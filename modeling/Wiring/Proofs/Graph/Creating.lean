import Wiring.Proofs.Graph.Operations.Variables
import Wiring.Proofs.Reachability
import Wiring.Proofs.Space.Leaves
import Wiring.Proofs.Store

/-!
Contract: what the creation of variables stores, also where it fails.

Owns: `createAll`, by which requests are met one after the other, and `Meets`, what is stored when the first of
them have been met; that the creation for a space, nested or flat, is `createAll` of the requests of its leaves;
and what a failed `getVariable` leaves behind, which is nothing unless a leaf other than the first is refused.

Does not own: the registries of graphs with a history.
-/

namespace Wiring

/-- What is asked of the backend for a leaf. -/
def Graph.LeafRequest.at (request : Graph.LeafRequest) (leaf : String × Box) : VariableRequest :=
  { name := leaf.1, shape := request.batchRank.dimensions ++ leaf.2.shape.map some, element := leaf.2.element,
    trainable := request.trainable, initializer := request.initializer }

/-- What all leaves of a variable for a space share. -/
def VariableSpec.shared (spec : VariableSpec) : Graph.LeafRequest :=
  { batchRank := spec.batchRank, trainable := spec.trainable, initializer := spec.initializer.getD .spread }

/-- The leaves of a space as they are created: in flat order, where of leaves with one key only one is left, or in
depth-first order. -/
def VariableSpec.leavesOf (spec : VariableSpec) (space : Space) : List (String × Box) :=
  if spec.flatten then space.flatten else space.leavesUnder ""

/-- All ways to create them have leaves with the same keys. -/
theorem mem_keys_leavesOf {spec : VariableSpec} {space : Space} {key : String} :
    key ∈ (spec.leavesOf space).map Prod.fst ↔ key ∈ space.flatten.map Prod.fst := by
  unfold VariableSpec.leavesOf
  split
  · rfl
  · exact Keyed.mem_keys_ofList.symm

namespace Graph

/-- The graph with another store. -/
def withStore (graph : Graph) (store : Store) : Graph :=
  { graph with backend := { graph.backend with store } }

variable {graph : Graph}

/-! ### One request after the other -/

/-- Meets requests in order, up to the first that is refused. -/
def createAll (requests : List VariableRequest) : GraphM (List Variable) :=
  requests.mapM fun request => useBackend fun backend => backend.create request

theorem createAll_cons (first : VariableRequest) (rest : List VariableRequest) :
    createAll (first :: rest) = (useBackend fun backend => backend.create first) >>= fun handle =>
      createAll rest >>= fun handles => pure (handle :: handles) :=
  List.mapM_cons

theorem create_cases (graph : Graph) (request : VariableRequest) :
    (∃ handle store, Capability.create ∈ graph.backend.offers ∧
      graph.backend.store.create request = .ok (handle, store) ∧
      (useBackend fun backend => backend.create request).run graph = (.ok handle, graph.withStore store)) ∨
    ∃ error, (useBackend fun backend => backend.create request).run graph = (.error error, graph) ∧
      (Capability.create ∉ graph.backend.offers ∨ graph.backend.store.Refuses request) := by
  unfold useBackend
  by_cases offered : Capability.create ∈ graph.backend.offers
  · have required := Backend.require_of_mem offered
    cases created : graph.backend.store.create request with
    | ok result =>
        have answered : graph.backend.create request = .ok (result.1, { graph.backend with store := result.2 }) :=
          except_bind_eq_ok.mpr ⟨⟨⟩, required, except_bind_eq_ok.mpr ⟨result, created, rfl⟩⟩
        refine .inl ⟨result.1, result.2, offered, rfl, ?_⟩
        rw [run_query_bind answered]
        rfl
    | error error =>
        have refused : graph.backend.create request = .error error := by
          unfold Backend.create
          rw [required]
          show (graph.backend.store.create request >>= fun result => _) = _
          rw [created]
          rfl
        exact .inr ⟨error, run_query_bind_error refused _, .inr (Store.refuses_of_create_error created)⟩
  · have refused : graph.backend.create request = .error (.unimplemented .create graph.backend.kind) := by
      unfold Backend.create
      rw [Backend.require_of_notMem offered]
      rfl
    exact .inr ⟨_, run_query_bind_error refused _, .inl offered⟩

/-- What is stored when the first of some requests have been met, which all fit: variables with the names that they
ask for, all of them new. -/
structure Meets (requests : List VariableRequest) (handles : List Variable) (before later : Store) : Prop where
  named : handles.map Variable.name <+: requests.map VariableRequest.name
  fits : ∀ request ∈ requests.take handles.length, request.Fits
  fresh : ∀ handle ∈ handles, handle.name ∉ Keyed.keys before.slots
  distinct : (handles.map Variable.name).Nodup
  slots : ∃ added, later.slots = before.slots ++ added ∧ Keyed.keys added = handles.map Variable.name
  untouched : handles = [] → later = before

namespace Meets

variable {requests : List VariableRequest} {handles : List Variable} {before middle later : Store}

theorem nothing (requests : List VariableRequest) (store : Store) : Meets requests [] store store where
  named := List.nil_prefix
  fits _ listed := by cases listed
  fresh _ listed := by cases listed
  distinct := List.nodup_nil
  slots := ⟨[], (List.append_nil _).symm, rfl⟩
  untouched _ := rfl

theorem keys (meets : Meets requests handles before later) :
    Keyed.keys later.slots = Keyed.keys before.slots ++ handles.map Variable.name := by
  rcases meets.slots with ⟨added, slots, names⟩
  rw [slots, ← names]
  exact List.map_append

theorem cons {request : VariableRequest} {handle : Variable} (created : before.create request = .ok (handle, middle))
    (meets : Meets requests handles middle later) : Meets (request :: requests) (handle :: handles) before later := by
  rcases Store.of_create_ok created with ⟨name, free, slot, slots⟩
  have fits := (Store.create_ok_iff.mp ⟨_, created⟩).2
  have middleKeys : Keyed.keys middle.slots = Keyed.keys before.slots ++ [handle.name] := by
    rw [slots, name]
    exact List.map_append
  have apart : ∀ other ∈ handles, other.name ∉ Keyed.keys before.slots ∧ other.name ≠ handle.name := by
    intro other listed
    have fresh := meets.fresh other listed
    rwa [middleKeys, List.mem_append, List.mem_singleton, not_or] at fresh
  refine ⟨?_, List.forall_mem_cons.mpr ⟨fits, meets.fits⟩,
    List.forall_mem_cons.mpr ⟨name ▸ free, fun other listed => (apart other listed).1⟩, ?_, ?_, ?_⟩
  · rw [List.map_cons, List.map_cons, name]
    exact List.cons_prefix_cons.mpr ⟨rfl, meets.named⟩
  · refine List.nodup_cons.mpr ⟨fun again => ?_, meets.distinct⟩
    rcases List.mem_map.mp again with ⟨other, listed, same⟩
    exact (apart other listed).2 same
  · rcases meets.slots with ⟨added, later, names⟩
    refine ⟨(request.name, slot) :: added, ?_, ?_⟩
    · rw [later, slots, List.append_assoc]
      rfl
    · rw [List.map_cons, ← names, name]
      rfl
  · exact fun empty => absurd empty (List.cons_ne_nil _ _)

/-- Where names differ from each other and from those that are taken, and all that is given fits, no request is
refused for what is stored. -/
theorem admits (meets : Meets requests handles before later) {request : VariableRequest}
    (next : requests[handles.length]? = some request) (distinct : (requests.map VariableRequest.name).Nodup)
    (free : ∀ request ∈ requests, request.name ∉ Keyed.keys before.slots)
    (fits : ∀ request ∈ requests, request.Fits) : ¬later.Refuses request := by
  have member := List.mem_of_getElem? next
  rintro (taken | unfit)
  · rw [meets.keys, List.mem_append] at taken
    have again := taken.resolve_left (free request member)
    -- The name is one of those to come, so it cannot also be one of those that are stored.
    rcases meets.named with ⟨rest, names⟩
    have later : request.name ∈ rest := by
      have named : (requests.map VariableRequest.name)[handles.length]? = some request.name := by
        rw [List.getElem?_map, next, Option.map_some]
      rw [← names, List.getElem?_append_right (Nat.le_of_eq (List.length_map _))] at named
      exact List.mem_of_getElem? named
    rw [← names] at distinct
    exact (List.nodup_append.mp distinct).2.2 _ again _ later rfl
  · exact unfit (fits request member)

/-- Requests that have all been met ask for different names, and all fit. -/
theorem all (meets : Meets requests handles before later) (length : handles.length = requests.length) :
    (requests.map VariableRequest.name).Nodup ∧ ∀ request ∈ requests, request.Fits := by
  constructor
  · rw [← meets.named.eq_of_length (by rw [List.length_map, List.length_map, length])]
    exact meets.distinct
  · have fits := meets.fits
    rwa [length, List.take_length] at fits

/-- Something is stored unless nothing has been met. -/
theorem unchanged_iff (meets : Meets requests handles before later) : later = before ↔ handles = [] := by
  refine ⟨fun same => ?_, meets.untouched⟩
  rcases meets.slots with ⟨added, slots, names⟩
  rw [same] at slots
  rw [List.self_eq_append_right.mp slots] at names
  exact List.map_eq_nil_iff.mp names.symm

end Meets

/-- Requests are met until one is refused, or none is if the backend creates no variables. -/
theorem createAll_cases (requests : List VariableRequest) (graph : Graph) :
    ∃ handles store, Meets requests handles graph.backend.store store ∧
      (handles = [] ∨ Capability.create ∈ graph.backend.offers) ∧
      ((handles.length = requests.length ∧ (createAll requests).run graph = (.ok handles, graph.withStore store)) ∨
        ∃ error request, (createAll requests).run graph = (.error error, graph.withStore store) ∧
          requests[handles.length]? = some request ∧
          (Capability.create ∉ graph.backend.offers ∨ store.Refuses request)) := by
  -- For all graphs: the rest of the requests meets the store that the first one leaves.
  induction requests generalizing graph with
  | nil => exact ⟨[], graph.backend.store, .nothing _ _, .inl rfl, .inl ⟨rfl, rfl⟩⟩
  | cons first rest inductionHypothesis =>
      rw [createAll_cons]
      rcases create_cases graph first with ⟨handle, middle, offered, created, ran⟩ | ⟨error, ran, refuses⟩
      · rcases inductionHypothesis (graph.withStore middle) with ⟨handles, store, meets, -, ended⟩
        refine ⟨handle :: handles, store, meets.cons created, .inr offered, ?_⟩
        rw [run_bind_ok ran]
        rcases ended with ⟨length, others⟩ | ⟨error, request, others, stopped, refuses⟩
        · refine .inl ⟨congrArg (· + 1) length, ?_⟩
          rw [run_bind_ok others]
          rfl
        · refine .inr ⟨error, request, ?_, stopped, refuses⟩
          rw [run_bind_error others]
          rfl
      · refine ⟨[], graph.backend.store, .nothing _ _, .inl rfl, .inr ⟨error, first, ?_, rfl, refuses⟩⟩
        exact run_bind_error ran _

/-- Reason to refuse one of the requests, but not the first. -/
structure Halfway (graph : Graph) (requests : List VariableRequest) : Prop where
  offered : Capability.create ∈ graph.backend.offers
  begun : ∃ first rest, requests = first :: rest ∧ first.Fits
  stuck : ¬((requests.map VariableRequest.name).Nodup ∧ ∀ request ∈ requests, request.Fits)

/-- If no name is taken, this is when a variable is stored although a later request is refused. -/
theorem createAll_halfway_iff {requests : List VariableRequest}
    (free : ∀ request ∈ requests, request.name ∉ Keyed.keys graph.backend.store.slots) :
    (∃ error, outcome (createAll requests) graph = .error error) ∧ after (createAll requests) graph ≠ graph ↔
      graph.Halfway requests := by
  rcases createAll_cases requests graph with ⟨handles, store, meets, offered, ended⟩
  have unchanged : graph.withStore store = graph ↔ handles = [] := by
    rw [← meets.unchanged_iff]
    exact ⟨fun same => congrArg (fun graph : Graph => graph.backend.store) same, fun same => same ▸ rfl⟩
  rcases ended with ⟨length, ran⟩ | ⟨error, request, ran, stopped, refuses⟩
  · rw [outcome_of_run ran]
    refine iff_of_false (fun failed => ?_) fun halfway => halfway.stuck (meets.all length)
    rcases failed.1 with ⟨_, refused⟩
    cases refused
  · rw [outcome_of_run ran, after_of_run ran, ne_eq, unchanged]
    constructor
    · rintro ⟨-, some⟩
      have creates := offered.resolve_left some
      refine ⟨creates, ?_, fun clear => ?_⟩
      · cases requests with
        | nil => cases stopped
        | cons first rest =>
            cases handles with
            | nil => exact absurd rfl some
            | cons handle handles => exact ⟨first, rest, rfl, meets.fits first List.mem_cons_self⟩
      · exact meets.admits stopped clear.1 free clear.2 (refuses.resolve_left (not_not_intro creates))
    · rintro ⟨creates, ⟨first, rest, rfl, fits⟩, -⟩
      refine ⟨⟨error, rfl⟩, fun none => ?_⟩
      subst none
      obtain rfl := Option.some.inj stopped
      rw [meets.untouched rfl] at refuses
      rcases refuses with missing | taken | unfit
      · exact missing creates
      · exact free first List.mem_cons_self taken
      · exact unfit fits

/-! ### The leaves of a space -/

theorem createAll_append (left right : List VariableRequest) :
    createAll (left ++ right) = createAll left >>= fun handles =>
      createAll right >>= fun others => pure (handles ++ others) :=
  List.mapM_append

mutual

/-- Nested creation meets the requests of the leaves in depth-first order. -/
theorem leaves_createNested (request : LeafRequest) (name : String) : ∀ space,
    VariableValue.leaves <$> createNested request name space = createAll ((space.leavesUnder name).map request.at)
  | .box leaf => by
      rw [createNested, Space.leavesUnder, List.map_cons, List.map_nil, createAll_cons, createAll, List.mapM_nil]
      simp [VariableValue.leaves]
      rfl
  | .dict entries => by
      rw [createNested, Space.leavesUnder, ← leaves_createEntries request name entries]
      simp [VariableValue.leaves]
  | .tuple parts => by
      rw [createNested, Space.leavesUnder, ← leaves_createParts request name 0 parts]
      simp [VariableValue.leaves]

theorem leaves_createEntries (request : LeafRequest) (name : String) : ∀ entries,
    VariableValue.entryLeaves <$> createEntries request name entries =
      createAll ((Space.entryLeaves name entries).map request.at)
  | [] => by
      rw [createEntries]
      rfl
  | (key, space) :: rest => by
      rw [createEntries, Space.entryLeaves, List.map_append, createAll_append,
        ← leaves_createNested request _ space, ← leaves_createEntries request name rest]
      simp [VariableValue.entryLeaves]

theorem leaves_createParts (request : LeafRequest) (name : String) (index : Nat) : ∀ parts,
    VariableValue.partLeaves <$> createParts request name index parts =
      createAll ((Space.partLeaves name index parts).map request.at)
  | [] => by
      rw [createParts]
      rfl
  | space :: rest => by
      rw [createParts, Space.partLeaves, List.map_append, createAll_append,
        ← leaves_createNested request _ space, ← leaves_createParts request name (index + 1) rest]
      simp [VariableValue.partLeaves]

end

theorem createFlat_eq (request : LeafRequest) (full name : String) (leaves : Keyed Box) :
    createFlat request full name leaves =
      (fun handles => .flat (Keyed.ofList ((leaves.map fun leaf => name ++ leaf.1).zip handles))) <$>
        createAll (leaves.map fun leaf => request.at (full ++ leaf.1, leaf.2)) := by
  have paired : (leaves.mapM fun leaf => do
      let handle ← createLeaf request (full ++ leaf.1) leaf.2
      return (name ++ leaf.1, handle)) = (fun handles => (leaves.map fun leaf => name ++ leaf.1).zip handles) <$>
        createAll (leaves.map fun leaf => request.at (full ++ leaf.1, leaf.2)) := by
    induction leaves with
    | nil => rfl
    | cons first rest inductionHypothesis =>
        rw [List.mapM_cons, inductionHypothesis, List.map_cons, List.map_cons, createAll_cons]
        simp
        rfl
  rw [createFlat, paired]
  simp

/-- The flat collection of some leaves: each under the name of the variable followed by its key. -/
def flatValue (name : String) (leaves : Keyed Box) (handles : List Variable) : Keyed Variable :=
  (leaves.map fun leaf => name ++ leaf.1).zip handles

theorem keys_flatValue {name : String} {leaves : Keyed Box} {handles : List Variable}
    (length : handles.length = leaves.length) :
    Keyed.keys (flatValue name leaves handles) = (Keyed.keys leaves).map (name ++ ·) :=
  (List.map_fst_zip (Nat.le_of_eq (by rw [List.length_map, length]))).trans List.map_map.symm

theorem values_flatValue {name : String} {leaves : Keyed Box} {handles : List Variable}
    (length : handles.length = leaves.length) : Keyed.values (flatValue name leaves handles) = handles :=
  List.map_snd_zip (Nat.le_of_eq (by rw [List.length_map, length]))

/-- Flat creation gathers what the requests are answered with. -/
theorem run_createFlat_ok {request : LeafRequest} {full name : String} {leaves : Keyed Box}
    (distinct : Keyed.DistinctKeys leaves) {handles : List Variable} (length : handles.length = leaves.length)
    {later : Graph}
    (ran : (createAll (leaves.map fun leaf => request.at (full ++ leaf.1, leaf.2))).run graph = (.ok handles, later)) :
    (createFlat request full name leaves).run graph = (.ok (.flat (flatValue name leaves handles)), later) := by
  have apart : Keyed.DistinctKeys (flatValue name leaves handles) := by
    rw [Keyed.DistinctKeys, keys_flatValue length]
    exact distinct.map fun first second same => by simpa using same
  rw [createFlat_eq, run_map, outcome_of_run ran, after_of_run ran]
  exact congrArg (fun gathered => (Except.ok (VariableValue.flat gathered), later))
    (Keyed.ofList_of_distinctKeys apart)

/-- Flat creation meets the requests of the leaves in flat order. -/
theorem run_createFlat (request : LeafRequest) (full name : String) {leaves : Keyed Box}
    (distinct : Keyed.DistinctKeys leaves) (graph : Graph) :
    (VariableValue.leaves <$> createFlat request full name leaves).run graph =
      (createAll (leaves.map fun leaf => request.at (full ++ leaf.1, leaf.2))).run graph := by
  rcases createAll_cases (leaves.map fun leaf => request.at (full ++ leaf.1, leaf.2)) graph with
    ⟨handles, store, -, -, ⟨length, ran⟩ | ⟨error, _, ran, -⟩⟩
  · rw [List.length_map] at length
    have created : (createFlat request full name leaves).run graph = (.ok (.flat (flatValue name leaves handles)), _) :=
      run_createFlat_ok distinct length ran
    rw [run_map, outcome_of_run created, after_of_run created, ran]
    exact congrArg (fun handles => (Except.ok handles, _)) (values_flatValue length)
  · rw [createFlat_eq, Functor.map_map, run_map, outcome_of_run ran, after_of_run ran, ran]
    rfl

/-! ### Requests of components -/

/-- The requests that a component makes for a variable: a single one, or those for the leaves of a space, none of
whose names is taken. -/
inductive Asks (graph : Graph) (owner : ComponentId) (name : String) (spec : VariableSpec) :
    List VariableRequest → Prop where
  | single (scope : String) (shape : List (Option Nat)) (told : graph.fullScope owner = .ok scope)
      (shaped : spec.source = none) (resolved : (spec.initializer.getD .spread).resolveShape spec.shape = .ok shape) :
      Asks graph owner name spec
        [{ name := fullName scope name, shape, element := spec.element, trainable := spec.trainable,
           initializer := spec.initializer.getD .spread }]
  | leaves (scope : String) (source : SpaceSource) (space : Space) (told : graph.fullScope owner = .ok scope)
      (given : spec.source = some source) (known : graph.spaceOfSource owner source = .ok space)
      (listed : Capability.collection ∈ graph.backend.offers)
      (free : ∀ leaf ∈ spec.leavesOf space,
        fullName scope name ++ leaf.1 ∉ Keyed.keys graph.backend.store.slots) :
      Asks graph owner name spec
        ((spec.leavesOf space).map fun leaf => spec.shared.at (fullName scope name ++ leaf.1, leaf.2))

variable {owner : ComponentId} {name : String} {spec : VariableSpec} {requests : List VariableRequest}

theorem checkLeafNames_cases (full : String) (leaves : Keyed Box) (graph : Graph) :
    (∃ error, (checkLeafNames full leaves).run graph = (.error error, graph) ∧
      ¬(Capability.collection ∈ graph.backend.offers ∧
        ∀ leaf ∈ leaves, full ++ leaf.1 ∉ Keyed.keys graph.backend.store.slots)) ∨
    (checkLeafNames full leaves).run graph = (.ok ⟨⟩, graph) ∧ Capability.collection ∈ graph.backend.offers ∧
      ∀ leaf ∈ leaves, full ++ leaf.1 ∉ Keyed.keys graph.backend.store.slots := by
  unfold checkLeafNames
  by_cases offered : Capability.collection ∈ graph.backend.offers
  · have listed : graph.backend.collection Store.globalVariables = .ok (Keyed.keys graph.backend.store.slots) := by
      unfold Backend.collection
      rw [Backend.require_of_mem offered]
      rfl
    rw [run_query_bind listed]
    cases found : leaves.find? fun leaf => (full ++ leaf.1) ∈ Keyed.keys graph.backend.store.slots with
    | some leaf =>
        refine .inl ⟨_, rfl, fun passed => ?_⟩
        exact passed.2 leaf (List.mem_of_find?_eq_some found) (by simpa using List.find?_some found)
    | none =>
        refine .inr ⟨rfl, offered, fun leaf member => ?_⟩
        simpa using List.find?_eq_none.mp found leaf member
  · have refused : graph.backend.collection Store.globalVariables =
        .error (.unimplemented .collection graph.backend.kind) := by
      unfold Backend.collection
      rw [Backend.require_of_notMem offered]
      rfl
    exact .inl ⟨_, run_query_bind_error refused _, fun passed => offered passed.1⟩

theorem free_flatten_iff {space : Space} {taken : List String} {full : String} :
    (∀ leaf ∈ space.flatten, full ++ leaf.1 ∉ taken) ↔ ∀ leaf ∈ spec.leavesOf space, full ++ leaf.1 ∉ taken := by
  have byKeys : ∀ leaves : List (String × Box),
      (∀ leaf ∈ leaves, full ++ leaf.1 ∉ taken) ↔ ∀ key ∈ leaves.map Prod.fst, full ++ key ∉ taken := by
    intro leaves
    rw [List.forall_mem_map]
  rw [byKeys, byKeys]
  exact forall_congr' fun key => by rw [mem_keys_leavesOf]

/-- Where no leaf of a space has a name that is taken, its leaves are created, in one of the two forms. -/
theorem run_createVariable_leaves {scope : String} {source : SpaceSource} {space : Space}
    (told : graph.fullScope owner = .ok scope) (given : spec.source = some source)
    (known : graph.spaceOfSource owner source = .ok space) (listed : Capability.collection ∈ graph.backend.offers)
    (free : ∀ leaf ∈ spec.leavesOf space, fullName scope name ++ leaf.1 ∉ Keyed.keys graph.backend.store.slots) :
    (createVariable owner name spec).run graph =
      (if spec.flatten then createFlat spec.shared (fullName scope name) name space.flatten
        else createNested spec.shared (fullName scope name) space).run graph := by
  unfold createVariable
  rw [run_query_bind told]
  dsimp only
  rw [given]
  dsimp only
  rw [run_query_bind known]
  rcases checkLeafNames_cases (fullName scope name) space.flatten graph with ⟨_, -, reason⟩ | ⟨passed, -⟩
  · exact absurd ⟨listed, free_flatten_iff.mpr free⟩ reason
  · exact run_bind_ok passed _

/-- Variables are created by meeting their requests. -/
theorem Asks.run (asks : graph.Asks owner name spec requests) :
    (VariableValue.leaves <$> createVariable owner name spec).run graph = (createAll requests).run graph := by
  cases asks with
  | single scope shape told shaped resolved =>
      unfold createVariable
      rw [map_bind, run_query_bind told]
      dsimp only
      rw [shaped]
      dsimp only
      rw [map_bind, run_query_bind resolved, createAll_cons, createAll, List.mapM_nil]
      simp [VariableValue.leaves]
  | leaves scope source space told given known listed free =>
      refine (run_map_congr (run_createVariable_leaves told given known listed free) _).trans ?_
      unfold VariableSpec.leavesOf
      split
      · exact run_createFlat spec.shared _ name (Keyed.distinctKeys_ofList _) graph
      · have moved := Space.leavesUnder_append (fullName scope name) "" space
        rw [String.append_empty] at moved
        rw [leaves_createNested, moved, List.map_map]
        rfl

/-- Without requests the creation fails at once. -/
theorem createVariable_cases (graph : Graph) (owner : ComponentId) (name : String) (spec : VariableSpec) :
    (∃ error, (createVariable owner name spec).run graph = (.error error, graph)) ∨
      ∃ requests, graph.Asks owner name spec requests := by
  unfold createVariable
  rcases except_cases (graph.fullScope owner) with ⟨error, refused⟩ | ⟨scope, told⟩
  · exact .inl ⟨error, run_query_bind_error refused _⟩
  rw [run_query_bind told]
  dsimp only
  cases given : spec.source with
  | none =>
      rcases except_cases ((spec.initializer.getD .spread).resolveShape spec.shape) with
        ⟨error, refused⟩ | ⟨shape, resolved⟩
      · exact .inl ⟨error, run_query_bind_error refused _⟩
      · exact .inr ⟨_, .single scope shape told given resolved⟩
  | some source =>
      rcases except_cases (graph.spaceOfSource owner source) with ⟨error, refused⟩ | ⟨space, known⟩
      · exact .inl ⟨error, run_query_bind_error refused _⟩
      rcases checkLeafNames_cases (fullName scope name) space.flatten graph with
        ⟨error, failed, -⟩ | ⟨-, listed, free⟩
      · refine .inl ⟨error, ?_⟩
        rw [run_query_bind known, run_bind_error failed]
      · exact .inr ⟨_, .leaves scope source space told given known listed (free_flatten_iff.mp free)⟩

/-- The creation of a variable stores new variables, as many as the answer has leaves. -/
theorem createVariable_stores (graph : Graph) (owner : ComponentId) (name : String) (spec : VariableSpec) :
    ∃ requests handles store, after (createVariable owner name spec) graph = graph.withStore store ∧
      Meets requests handles graph.backend.store store ∧
      ∀ value, outcome (createVariable owner name spec) graph = .ok value → value.leaves = handles := by
  rcases createVariable_cases graph owner name spec with ⟨error, failed⟩ | ⟨requests, asks⟩
  · refine ⟨[], [], graph.backend.store, after_of_run failed, .nothing _ _, fun value answered => ?_⟩
    cases (outcome_of_run failed).symm.trans answered
  have same := asks.run
  rw [run_map] at same
  rcases createAll_cases requests graph with ⟨handles, store, meets, -, ⟨-, ran⟩ | ⟨error, request, ran, -⟩⟩
  all_goals
    rw [ran, Prod.mk.injEq] at same
    refine ⟨requests, handles, store, same.2, meets, fun value answered => ?_⟩
    rw [answered] at same
  · exact Except.ok.inj same.1
  · cases same.1

/-- A single variable is stored or refused. -/
theorem not_halfway_singleton (request : VariableRequest) : ¬graph.Halfway [request] := by
  intro halfway
  rcases halfway.begun with ⟨first, rest, same, fits⟩
  obtain ⟨rfl, -⟩ := List.cons.inj same
  exact halfway.stuck ⟨List.nodup_singleton _, List.forall_mem_singleton.mpr fits⟩

/-- A creation fails with a variable stored if a request is refused, but not the first. -/
theorem createVariable_halfway_iff :
    (∃ error, outcome (createVariable owner name spec) graph = .error error) ∧
        after (createVariable owner name spec) graph ≠ graph ↔
      ∃ requests, graph.Asks owner name spec requests ∧ graph.Halfway requests := by
  have byRequests : ∀ requests, graph.Asks owner name spec requests →
      (((∃ error, outcome (createVariable owner name spec) graph = .error error) ∧
        after (createVariable owner name spec) graph ≠ graph) ↔ graph.Halfway requests) := by
    intro requests asks
    have same := asks.run
    rw [run_map, run_eq, Prod.mk.injEq] at same
    have failing : (∃ error, outcome (createVariable owner name spec) graph = .error error) ↔
        ∃ error, outcome (createAll requests) graph = .error error := by
      rw [← same.1]
      cases outcome (createVariable owner name spec) graph <;> simp
    rw [failing, same.2]
    -- The name of a single variable may be taken, and the shape has been checked before.
    cases asks with
    | single scope shape told shaped resolved =>
        refine iff_of_false ?_ (not_halfway_singleton _)
        rw [createAll_cons]
        rintro ⟨⟨error, failed⟩, changed⟩
        rcases create_cases graph _ with ⟨handle, store, -, -, ran⟩ | ⟨error, ran, -⟩
        · rw [outcome, run_bind_ok ran] at failed
          cases failed
        · exact changed (after_of_run (run_bind_error ran _))
    | leaves scope source space told given known listed free =>
        exact createAll_halfway_iff (List.forall_mem_map.mpr free)
  constructor
  · intro failed
    rcases createVariable_cases graph owner name spec with ⟨error, ran⟩ | ⟨requests, asks⟩
    · exact absurd (after_of_run ran) failed.2
    · exact ⟨requests, asks, (byRequests requests asks).mp failed⟩
  · rintro ⟨requests, asks, halfway⟩
    exact (byRequests requests asks).mpr halfway

/-- A variable is looked up, or its creation fails, or it is created and registered. -/
theorem getVariable_cases (graph : Graph) (owner : ComponentId) (name : String) (spec : VariableSpec) :
    (after (getVariable owner name spec) graph = graph ∧
      (spec.isLookup = true ∨ graph.component? owner = none)) ∨
    (∃ error, outcome (createVariable owner name spec) graph = .error error ∧
      (getVariable owner name spec).run graph = (.error error, after (createVariable owner name spec) graph)) ∨
    ∃ value, outcome (createVariable owner name spec) graph = .ok value ∧
      (∃ node, graph.component? owner = some node) ∧
      (getVariable owner name spec).run graph = (.ok value,
        (after (createVariable owner name spec) graph).changeComponent owner
          (withRegistry (Keyed.insert name value))) := by
  unfold getVariable
  cases found : graph.component? owner with
  | none =>
      rcases except_cases (graph.component owner) with ⟨error, missing⟩ | ⟨node, held⟩
      · exact .inl ⟨after_of_run (run_query_bind_error missing _), .inr rfl⟩
      · cases found.symm.trans (component_eq_ok.mp held)
  | some node =>
      rw [after, run_query_bind (component_eq_ok.mpr found)]
      split
      next lookup =>
        refine .inl ⟨?_, .inl lookup⟩
        cases Keyed.get? node.registry name <;> rfl
      next =>
        right
        rcases createVariable_stores graph owner name spec with ⟨_, _, store, stored, -⟩
        rcases except_cases (outcome (createVariable owner name spec) graph) with ⟨error, failed⟩ | ⟨value, created⟩
        · refine .inl ⟨error, failed, ?_⟩
          rw [run_bind, failed]
        · refine .inr ⟨value, created, ⟨node, rfl⟩, ?_⟩
          rw [run_bind, created]
          dsimp only
          rw [stored]
          have still : (graph.withStore store).component? owner = some node := found
          rw [run_bind_ok (run_editComponent still _)]
          rfl

theorem Asks.owner_exists (asks : graph.Asks owner name spec requests) : graph.component? owner ≠ none := by
  have told : ∃ scope, graph.fullScope owner = .ok scope := by
    cases asks with
    | single scope _ told => exact ⟨scope, told⟩
    | leaves scope _ _ told => exact ⟨scope, told⟩
  rcases told with ⟨scope, told⟩
  rcases except_bind_eq_ok.mp told with ⟨node, held, -⟩
  rw [component_eq_ok.mp held]
  exact Option.some_ne_none node

theorem Asks.not_lookup (asks : graph.Asks owner name spec requests) (halfway : graph.Halfway requests) :
    spec.isLookup = false := by
  cases asks with
  | single => exact absurd halfway (not_halfway_singleton _)
  | leaves _ source _ _ given => rw [VariableSpec.isLookup, given, Option.isNone_some, Bool.and_false]

/-- A failed request changes no component and no stored variable, but may add variables to the store: it leaves the
graph as it was exactly if it does not ask for leaves of which the first is created and a later one is refused,
because its name is that of an earlier one or given values do not have its shape. -/
theorem getVariable_error (graph : Graph) (owner : ComponentId) (name : String) (spec : VariableSpec) :
    (∀ error, outcome (getVariable owner name spec) graph = .error error →
      ∃ store added, after (getVariable owner name spec) graph = graph.withStore store ∧
        store.slots = graph.backend.store.slots ++ added) ∧
    ((∀ error, outcome (getVariable owner name spec) graph = .error error →
        after (getVariable owner name spec) graph = graph) ↔
      ∀ requests, graph.Asks owner name spec requests → ¬graph.Halfway requests) := by
  rcases getVariable_cases graph owner name spec with
    ⟨unchanged, reason⟩ | ⟨error, creation, ran⟩ | ⟨value, creation, -, ran⟩
  · refine ⟨fun _ _ => ⟨graph.backend.store, [], unchanged, (List.append_nil _).symm⟩,
      iff_of_true (fun _ _ => unchanged) fun requests asks halfway => ?_⟩
    rcases reason with lookup | missing
    · exact Bool.false_ne_true ((asks.not_lookup halfway).symm.trans lookup)
    · exact asks.owner_exists missing
  · rw [outcome_of_run ran, after_of_run ran]
    constructor
    · intro _ _
      rcases createVariable_stores graph owner name spec with ⟨_, _, store, stored, meets, -⟩
      rcases meets.slots with ⟨added, slots, -⟩
      exact ⟨store, added, stored, slots⟩
    · rw [← not_iff_not]
      push Not
      rw [← createVariable_halfway_iff]
      exact ⟨fun changed => ⟨⟨error, creation⟩, changed.choose_spec.2⟩, fun changed => ⟨error, rfl, changed.2⟩⟩
  · rw [outcome_of_run ran]
    refine ⟨fun error failed => (by cases failed), iff_of_true (fun error failed => by cases failed) ?_⟩
    intro requests asks halfway
    rcases (createVariable_halfway_iff.mpr ⟨requests, asks, halfway⟩).1 with ⟨error, failed⟩
    cases creation.symm.trans failed

/-- A single component. -/
def solitary : GraphM ComponentId :=
  create { scope := "agent" }

theorem reachable_solitary : (after solitary {}).Reachable :=
  (reachable_empty {}).reaches (.create _ {})

/-- Two leaves with the flat key `/a/b`. -/
def sampleColliding : VariableSpec :=
  { initializer := some (.constant 1.0),
    source := some (.space (.dict [("a/b", .floatBox []), ("a", .dict [("b", .floatBox [])])])) }

/-- Given values that have the shape of the first leaf only. -/
def sampleUnfit : VariableSpec :=
  { initializer := some (.values (Tensor.replicate [2] 1.0)),
    source := some (.space (.dict [("first", .floatBox [2]), ("second", .floatBox [3])])) }

/-- Failed requests that leave a variable in the store: there is none before. -/
theorem getVariable_leaves_variables :
    (after solitary {}).Reachable ∧ Keyed.keys (after solitary {}).backend.store.slots = [] ∧
      (outcome (getVariable ⟨0⟩ "record" sampleColliding) (after solitary {}) =
          .error (.nameConflict "agent/record/a/b") ∧
        Keyed.keys (after (getVariable ⟨0⟩ "record" sampleColliding) (after solitary {})).backend.store.slots =
          ["agent/record/a/b"]) ∧
      outcome (getVariable ⟨0⟩ "record" sampleUnfit) (after solitary {}) = .error (.valuesAgainstShape [2] [3]) ∧
        Keyed.keys (after (getVariable ⟨0⟩ "record" sampleUnfit) (after solitary {})).backend.store.slots =
          ["agent/record/first"] :=
  ⟨reachable_solitary, rfl, ⟨rfl, rfl⟩, rfl, rfl⟩

end Graph

end Wiring
