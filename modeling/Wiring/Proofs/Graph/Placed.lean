import Wiring.Graph.Composition
import Wiring.Proofs.Graph.Placement

/-!
Contract: operations on a part of a graph, wherever it stands.

Owns: that creating, naming, connecting and computing within a part answer and edit in the whole as they do in the part
on its own. An operation whose error names a component may name another one, since only the kind is compared.

Does not own: builds.
-/

namespace Wiring

/-- The outer component has no parent and no children, and the inner one was never put anywhere. -/
def Graph.adopts (graph : Graph) (outer inner : ComponentId) : Bool :=
  (graph.component? outer).any (fun node => node.parent.isNone && node.children.isEmpty) &&
    (graph.component? inner).any (fun node => !node.added) && outer ≠ inner

namespace Placement

open Wiring.Graph

variable {place : Placement}

/-! ### References -/

variable (place) in
def ref : SocketRef → SocketRef
  | .only => .only
  | .named name => .named name
  | .foreign owner name => .foreign (place.component owner) name
  | .id id => .id (place.socket id)

variable (place) in
/-- Ends that name counterparts. -/
inductive Ends : Endpoint → Endpoint → Prop where
  | space (given : Space) : Ends (.space given) (.space (place.space given))
  | component (id : ComponentId) : Ends (.component id) (.component (place.component id))
  | socket (given : SocketRef) : Ends (.socket given) (.socket (place.ref given))

variable (place) in
def entry (given : LinkEntry) : LinkEntry :=
  ⟨place.socket given.socket, given.incoming, place.connection given.connection⟩

theorem forall₂_map {α β : Type} (wrap : α → β) (items : List α) :
    List.Forall₂ (fun item other => other = wrap item) items (items.map wrap) :=
  List.forall₂_map_right_iff.mpr (List.forall₂_same.mpr fun _ _ => rfl)

theorem eq_map_of_forall₂ {α β : Type} {wrap : α → β} {items : List α} {others : List β}
    (pairs : List.Forall₂ (fun item other => other = wrap item) items others) : others = items.map wrap := by
  induction pairs with
  | nil => rfl
  | cons same _ inductionHypothesis => rw [same, inductionHypothesis, List.map_cons]

theorem searched_place {node other : Component} (stands : place.Node node other) (side : Option Side) :
    searched other side = (searched node side).map place.socket := by
  unfold searched
  split
  · rw [stands.inputs, stands.internals, List.map_append]
  · rw [stands.outputs, stands.internals, List.map_append]
  · rw [stands.inputs, stands.outputs, stands.internals, List.map_append, List.map_append]

theorem echo_onlySocket {node other : Component} (stands : place.Node node other) (side : Option Side) :
    Echo (fun id idToo => idToo = place.socket id) (onlySocket node side) (onlySocket other side) := by
  cases side with
  | none => exact .error rfl
  | some side =>
      cases side with
      | input =>
          unfold onlySocket
          dsimp only
          rw [stands.inputs]
          rcases node.inputs with _ | ⟨first, _ | ⟨second, rest⟩⟩
          · exact .error rfl
          · exact .ok rfl
          · exact .error rfl
      | output =>
          unfold onlySocket
          dsimp only
          rw [stands.outputs]
          rcases node.outputs with _ | ⟨first, _ | ⟨second, rest⟩⟩
          · exact .error rfl
          · exact .ok rfl
          · exact .error rfl

theorem echo_planSockets (owner ownerToo : String) (side : Option Side) (taken names : List String) :
    Echo (fun plan same => same = plan) (planSockets owner side taken names) (planSockets ownerToo side taken names) := by
  induction names generalizing taken with
  | nil => exact .ok rfl
  | cons name rest inductionHypothesis =>
      refine (Echo.refl (sideOf name side)).bind fun chosen same equal => ?_
      rw [equal]
      by_cases known : name ∈ taken
      · rw [if_pos known, if_pos known]
        exact .error rfl
      · rw [if_neg known, if_neg known]
        refine (inductionHypothesis (taken ++ [name])).map fun plan same equal => ?_
        rw [equal]

theorem echo_chooseMethod {node other : Component} (stands : place.Node node other) (name : Option String) :
    Echo (fun method same => same = method) (chooseMethod node name) (chooseMethod other name) := by
  cases name with
  | some name =>
      unfold chooseMethod Component.method?
      dsimp only
      rw [stands.methods]
      cases node.methods.find? fun method : Method => method.name = name with
      | some method => exact .ok rfl
      | none => exact .error rfl
  | none =>
      unfold chooseMethod
      rw [stands.methods]
      rcases node.methods with _ | ⟨method, _ | ⟨second, rest⟩⟩
      · exact .error rfl
      · exact .ok rfl
      · exact .error rfl

theorem adopts_iff {graph : Graph} {parent child : ComponentId} : graph.adopts parent child = true ↔
    ∃ outer inner, graph.component? parent = some outer ∧ graph.component? child = some inner ∧
      outer.parent = none ∧ outer.children = [] ∧ inner.added = false ∧ parent ≠ child := by
  unfold Graph.adopts
  cases graph.component? parent <;> cases graph.component? child <;> simp [and_assoc]

theorem planAdd_top {graph : Graph} {parent child : ComponentId} {outer inner : Component}
    (parentFound : graph.component? parent = some outer) (childFound : graph.component? child = some inner)
    (top : outer.parent = none) (empty : outer.children = []) (fresh : inner.added = false) (apart : parent ≠ child) :
    graph.planAdd parent child .nothing = .ok (inner.name, []) := by
  have climbed : graph.lineage parent = .ok [parent] := by
    have exists_one : 0 < graph.components.size :=
      Nat.lt_of_le_of_lt (Nat.zero_le _) (Array.getElem?_eq_some_iff.mp parentFound).1
    rcases Nat.exists_eq_succ_of_ne_zero (Nat.ne_of_gt exists_one) with ⟨more, size⟩
    unfold lineage
    rw [size, climb]
    refine except_bind_eq_ok.mpr ⟨outer, heldComponent_eq_ok.mpr parentFound, ?_⟩
    rw [top]
    rfl
  refine except_bind_eq_ok.mpr ⟨inner, component_eq_ok.mpr childFound, ?_⟩
  refine except_bind_eq_ok.mpr ⟨outer, component_eq_ok.mpr parentFound, ?_⟩
  have new : ¬Keyed.contains outer.children inner.name = true := by
    rw [empty]
    exact Bool.false_ne_true
  have free : ¬(inner.added = true ∨ parent = child) := by simp [fresh, apart]
  rw [if_neg new, if_neg free]
  refine except_bind_eq_ok.mpr ⟨[parent], climbed, ?_⟩
  rw [if_neg (by simpa using apart.symm)]
  rfl

section

variable {part whole : Graph} (holds : place.Holds part whole)
include holds

/-! ### Questions -/

theorem echo_socketNames (ids : List SocketId) :
    Echo (fun names same => same = names) (part.socketNames ids) (whole.socketNames (ids.map place.socket)) := by
  have names : Echo (List.Forall₂ fun name same => same = name) (part.socketNames ids)
      (whole.socketNames (ids.map place.socket)) :=
    .mapM (forall₂_map place.socket ids) fun id idToo same => by
      subst same
      refine (echo_heldSocket holds id).map fun socket other same => ?_
      rw [same]
      rfl
  exact names.imp fun names same pairs => by simpa using eq_map_of_forall₂ pairs

theorem echo_findNamed (name : String) (ids : List SocketId) :
    Echo (fun found other => other = found.map place.socket) (part.findNamed name ids)
      (whole.findNamed name (ids.map place.socket)) := by
  induction ids with
  | nil => exact .ok rfl
  | cons id rest inductionHypothesis =>
      refine (echo_heldSocket holds id).bind fun socket other same => ?_
      rw [show other.name = socket.name by rw [same]; rfl]
      split
      · exact .ok rfl
      · exact inductionHypothesis

theorem echo_socketNamed (owner : ComponentId) (name : String) (side : Option Side) :
    Echo (fun found other => other = found.map place.socket) (part.socketNamed? owner name side)
      (whole.socketNamed? (place.component owner) name side) := by
  refine (echo_component holds owner).bind fun node other stands => ?_
  rw [searched_place stands]
  exact echo_findNamed holds name _

theorem echo_named (owner : ComponentId) (name : String) (side : Option Side) :
    Echo (fun id idToo => idToo = place.socket id)
      (do
        match ← part.socketNamed? owner name side with
        | some id => return id
        | none =>
            let owner ← part.component owner
            throw (Error.socketNotFound owner.name name side))
      (do
        match ← whole.socketNamed? (place.component owner) name side with
        | some id => return id
        | none =>
            let owner ← whole.component (place.component owner)
            throw (Error.socketNotFound owner.name name side)) := by
  refine (echo_socketNamed holds owner name side).bind fun found other same => ?_
  subst same
  cases found with
  | some id => exact .ok rfl
  | none => exact (echo_component holds owner).bind fun _ _ _ => .error rfl

theorem echo_resolve (viewer : ComponentId) (given : SocketRef) (side : Option Side) :
    Echo (fun id idToo => idToo = place.socket id) (part.resolve viewer given side)
      (whole.resolve (place.component viewer) (place.ref given) side) := by
  refine (echo_component holds viewer).bind fun node other stands => ?_
  cases given with
  | only => exact echo_onlySocket stands side
  | named name => exact echo_named holds viewer name side
  | foreign owner name => exact echo_named holds owner name side
  | id id =>
      dsimp only [Placement.ref, Placement.socket, socket?]
      rcases holds.sockets.lookup id.index with ⟨absent, absentToo⟩ | ⟨_, _, found, foundToo, -⟩
      · rw [absent, absentToo]
        exact .error rfl
      · rw [found, foundToo]
        exact .ok rfl

/-! ### Connections -/

variable (place) in
/-- Terminals that are counterparts. -/
inductive Terminals : Terminal → Terminal → Prop where
  | space (given : Space) : Terminals (.space given) (.space (place.space given))
  | socket (id : SocketId) : Terminals (.socket id) (.socket (place.socket id))

theorem echo_terminal (viewer : ComponentId) (side : Side) {ending other : Endpoint} (ends : place.Ends ending other) :
    Echo place.Terminals (part.terminal viewer side ending) (whole.terminal (place.component viewer) side other) := by
  cases ends with
  | space given => exact .ok (.space given)
  | component id =>
      refine (echo_resolve holds id .only (some side)).map fun found other same => ?_
      subst same
      exact .socket found
  | socket given =>
      refine (echo_resolve holds viewer given none).map fun found other same => ?_
      subst same
      exact .socket found

theorem echo_planLink (viewer : ComponentId) {source sourceToo target targetToo : Endpoint}
    (sources : place.Ends source sourceToo) (targets : place.Ends target targetToo) :
    Echo (fun entries same => same = entries.map place.entry) (part.planLink viewer source target)
      (whole.planLink (place.component viewer) sourceToo targetToo) := by
  refine (echo_terminal holds viewer .output sources).bind fun first firstToo firsts => ?_
  refine (echo_terminal holds viewer .input targets).bind fun second secondToo seconds => ?_
  cases firsts with
  | space given =>
      cases seconds with
      | space other => exact .error rfl
      | socket id =>
          refine (echo_heldSocket holds id).bind fun socket same equal => ?_
          subst equal
          show Echo _ (if socket.side = .input then _ else _) (if socket.side = .input then _ else _)
          split
          · exact .ok rfl
          · exact .error rfl
  | socket id =>
      cases seconds with
      | space given =>
          refine (echo_heldSocket holds id).bind fun socket same equal => ?_
          subst equal
          show Echo _ (if socket.side = .output then _ else _) (if socket.side = .output then _ else _)
          split
          · exact .ok rfl
          · exact .error rfl
      | socket other =>
          refine (echo_heldSocket holds id).bind fun left leftToo leftSame => ?_
          refine (echo_heldSocket holds other).bind fun right rightToo rightSame => ?_
          subst leftSame
          subst rightSame
          have owners : (place.port left).owner = (place.port right).owner ↔ left.owner = right.owner :=
            place.component_inj
          by_cases same : left.owner = right.owner
          · rw [if_pos same, if_pos (owners.mpr same)]
            exact (echo_heldComponent holds left.owner).bind fun _ _ _ => .error rfl
          · rw [if_neg same, if_neg (mt owners.mp same)]
            exact .ok rfl

theorem follows_append (given : LinkEntry) :
    Follows place.Holds (Any Unit Unit) (append given) (append (place.entry given)) part whole := by
  refine follows_editSocket holds given.socket fun socket => ?_
  unfold LinkEntry.setList LinkEntry.listOf
  show (if given.incoming then _ else _) = place.port (if given.incoming then _ else _)
  cases incoming : given.incoming <;> simp [port, entry, incoming]

theorem follows_connect (viewer : ComponentId) {source sourceToo target targetToo : Endpoint}
    (sources : place.Ends source sourceToo) (targets : place.Ends target targetToo) :
    Follows place.Holds (Any Unit Unit) (connect viewer source target)
      (connect (place.component viewer) sourceToo targetToo) part whole := by
  refine (follows_query holds (echo_planLink holds viewer sources targets)).bind fun entries same equal _ _ => ?_
  subst equal
  refine .forM (forall₂_map place.entry entries) (fun given givenToo part whole same holds => ?_) holds
  rw [same]
  exact follows_append holds given

/-! ### New sockets -/

theorem follows_addSocket (owner : ComponentId) (internal : Bool) (plan : String × Side) :
    Follows place.Holds (fun id idToo => idToo = place.socket id) (addSocket owner internal plan)
      (addSocket (place.component owner) internal plan) part whole := by
  refine (Follows.get holds).bind fun before beforeToo held _ holds => ?_
  have same : (⟨beforeToo.sockets.size⟩ : SocketId) = place.socket ⟨before.sockets.size⟩ := nextSocket_whole held
  rw [same]
  refine (Follows.modify { holds with sockets := holds.sockets.push rfl }).bind fun _ _ _ _ holds => ?_
  refine (follows_editComponent holds owner fun node other _ stands => ?_).bind fun _ _ _ _ holds => .pure holds rfl
  cases internal with
  | true => exact { stands with internals := by simp [stands.internals] }
  | false =>
      cases plan.2 with
      | input => exact { stands with inputs := by simp [stands.inputs] }
      | output => exact { stands with outputs := by simp [stands.outputs] }

theorem follows_addSockets (owner : ComponentId) (names : List String) (side : Option Side) (internal : Bool) :
    Follows place.Holds (fun ids same => same = ids.map place.socket) (addSockets owner names side internal)
      (addSockets (place.component owner) names side internal) part whole := by
  have planned : Echo (fun plan same => same = plan)
      (do
        let component ← part.component owner
        let taken ← part.socketNames component.sockets
        planSockets component.name side taken names)
      (do
        let component ← whole.component (place.component owner)
        let taken ← whole.socketNames component.sockets
        planSockets component.name side taken names) := by
    refine (echo_component holds owner).bind fun node other stands => ?_
    rw [stands.sockets]
    refine (echo_socketNames holds node.sockets).bind fun taken same equal => ?_
    rw [equal]
    exact echo_planSockets node.name other.name side taken names
  refine (follows_query holds planned).bind fun plan same equal _ holds => ?_
  rw [equal]
  have added : Follows place.Holds (List.Forall₂ fun id idToo => idToo = place.socket id)
      (plan.mapM (addSocket owner internal)) (plan.mapM (addSocket (place.component owner) internal)) part whole :=
    .mapM (List.forall₂_same.mpr fun _ _ => rfl) (fun given givenToo part whole same holds => by
      rw [← show given = givenToo from same]
      exact follows_addSocket holds owner internal given) holds
  exact added.imp fun ids idsToo pairs => eq_map_of_forall₂ pairs

theorem follows_ensureInternal (owner : ComponentId) (name : String) :
    Follows place.Holds (fun id idToo => idToo = place.socket id) (ensureInternal owner name)
      (ensureInternal (place.component owner) name) part whole := by
  refine (follows_query holds (echo_socketNamed holds owner name none)).bind fun found same equal _ holds => ?_
  subst equal
  cases found with
  | some id => exact .pure holds rfl
  | none =>
      refine (follows_addSockets holds owner [name] (some .input) true).bind fun ids same equal _ holds => ?_
      subst equal
      cases ids with
      | nil => exact .throw holds rfl
      | cons id rest => exact .pure holds rfl

theorem follows_defineInputs (owner : ComponentId) (names : List String) :
    Follows place.Holds (fun ids same => same = ids.map place.socket) (defineInputs owner names none)
      (defineInputs (place.component owner) names none) part whole :=
  (follows_addSockets holds owner names (some .input) false).bind fun _ _ same _ holds => .pure holds same

theorem follows_defineOutputs (owner : ComponentId) (names : List String) :
    Follows place.Holds (fun ids same => same = ids.map place.socket) (defineOutputs owner names)
      (defineOutputs (place.component owner) names) part whole :=
  follows_addSockets holds owner names (some .output) false

/-! ### Components and computations -/

/-- Names may differ, settings may not. -/
theorem follows_create {config configToo : ComponentConfig} (scopes : isScope configToo.scope = isScope config.scope)
    (settings : configToo.settings = config.settings) (unsplit : config.settings.splitOps = false) :
    Follows place.Holds (fun id idToo => idToo = place.component id) (Graph.create config) (Graph.create configToo)
      part whole := by
  unfold Graph.create
  rw [scopes]
  by_cases allowed : isScope config.scope = true
  · rw [if_pos allowed, if_pos allowed]
    refine (Follows.get holds).bind fun before beforeToo held _ holds => ?_
    have stands : place.Node (.ofConfig config) (.ofConfig configToo) := by
      constructor
      case settings => exact settings
      case unsplit => exact unsplit
      case carried => exact fun _ registered => absurd registered List.not_mem_nil
      case looks => exact .inl rfl
      all_goals rfl
    refine (Follows.modify { holds with components := holds.components.push stands }).bind fun _ _ _ _ holds => ?_
    exact .pure holds (nextComponent_whole held)
  · rw [if_neg allowed, if_neg allowed]
    exact .throw holds rfl

theorem follows_setHook (id : ComponentId) :
    Follows place.Holds (Any Unit Unit) (setHook id .explorationInputs)
      (setHook (place.component id) .explorationInputs) part whole := by
  refine (follows_query holds (echo_component holds id)).bind fun _ _ _ _ holds => ?_
  exact follows_editComponent holds id fun node other _ stands =>
    { stands with
      hook := rfl
      looks := .inr rfl }

theorem follows_register (id : ComponentId) {method : Method} (carries : place.Carries method) :
    Follows place.Holds (Any Unit Unit) (register id method) (register (place.component id) method) part whole := by
  refine (follows_query holds (echo_component holds id)).bind fun node other stands _ holds => ?_
  rw [show other.method? method.name = node.method? method.name from
    congrArg (List.find? fun known : Method => known.name = method.name) stands.methods]
  cases node.method? method.name with
  | some known => exact .throw holds rfl
  | none =>
      refine follows_editComponent holds id fun node other _ stands => ?_
      refine { stands with methods := ?_, carried := ?_ }
      · rw [stands.methods]
      · intro known registered
        rcases List.mem_append.mp registered with earlier | new
        · exact stands.carried known earlier
        · rw [List.mem_singleton.mp new]
          exact carries

theorem echo_planCompute (owner : ComponentId) (inputs outputs : List String) (method : Option String)
    {options : Options} (unsplit : options.splitOps = none) :
    Echo (fun plan planToo => planToo = (plan.1, plan.2.1, plan.2.2.map place.socket) ∧ plan.2.1.splitOps = false)
      (part.planCompute owner inputs outputs method options)
      (whole.planCompute (place.component owner) inputs outputs method options) := by
  refine (echo_component holds owner).bind fun node other stands => ?_
  refine (echo_chooseMethod stands method).bind fun chosen same equal => ?_
  subst equal
  by_cases arity : inputs.length ≠ same.inputs ∨ outputs.length ≠ same.outputs
  · rw [if_pos arity, if_pos arity]
    exact .error rfl
  rw [if_neg arity, if_neg arity]
  have sockets : Echo (List.Forall₂ fun id idToo => idToo = place.socket id)
      (outputs.mapM fun name => do
        match ← part.socketNamed? owner name none with
        | some id => return id
        | none => throw (Error.socketNotFound node.name name (some .output)))
      (outputs.mapM fun name => do
        match ← whole.socketNamed? (place.component owner) name none with
        | some id => return id
        | none => throw (Error.socketNotFound other.name name (some .output))) := by
    refine .mapM (List.forall₂_same.mpr fun _ _ => rfl) fun name nameToo same => ?_
    rw [← show name = nameToo from same]
    refine (echo_socketNamed holds owner name none).bind fun found foundToo equal => ?_
    subst equal
    cases found with
    | some id => exact .ok rfl
    | none => exact .error rfl
  refine sockets.bind fun ids idsToo pairs => .ok ⟨?_, ?_⟩
  · rw [eq_map_of_forall₂ pairs, stands.settings]
  · show options.splitOps.getD node.settings.splitOps = false
    rw [unsplit]
    exact stands.unsplit

theorem follows_editSockets {ids : List SocketId} {change changeToo : Socket → Socket}
    (stands : ∀ socket, changeToo (place.port socket) = place.port (change socket)) :
    Follows place.Holds (Any Unit Unit) (ids.forM fun id => editSocket id change)
      ((ids.map place.socket).forM fun id => editSocket id changeToo) part whole := by
  refine .forM (forall₂_map place.socket ids) (fun id idToo part whole same holds => ?_) holds
  rw [same]
  exact follows_editSocket holds id stands

/-- The computation is not split, since its component and its options do not ask for it. -/
theorem follows_compute (owner : ComponentId) (inputs outputs : List String) (method : Option String)
    {options : Options} (unsplit : options.splitOps = none) :
    Follows place.Holds (fun id idToo => idToo = place.computation id) (compute owner inputs outputs method options)
      (compute (place.component owner) inputs outputs method options) part whole := by
  refine (follows_query holds (echo_planCompute holds owner inputs outputs method unsplit)).bind
    fun plan planToo planned _ holds => ?_
  rcases planned with ⟨rfl, plain⟩
  have ensured : Follows place.Holds (List.Forall₂ fun id idToo => idToo = place.socket id)
      (inputs.mapM (ensureInternal owner)) (inputs.mapM (ensureInternal (place.component owner))) part whole :=
    .mapM (List.forall₂_same.mpr fun _ _ => rfl) (fun name nameToo part whole same holds => by
      rw [← show name = nameToo from same]
      exact follows_ensureInternal holds owner name) holds
  refine ensured.bind fun ids idsToo pairs _ holds => ?_
  obtain rfl := eq_map_of_forall₂ pairs
  refine (Follows.get holds).bind fun before beforeToo held _ holds => ?_
  have same : (⟨beforeToo.computations.size⟩ : ComputationId) = place.computation ⟨before.computations.size⟩ :=
    nextComputation_whole held
  rw [same]
  refine (follows_editSockets holds fun socket => by simp [port, connection]).bind fun _ _ _ _ holds => ?_
  refine (follows_editSockets holds fun socket => by simp [port, connection]).bind fun _ _ _ _ holds => ?_
  refine (Follows.modify { holds with computations := holds.computations.push ⟨rfl, plain⟩ }).bind
    fun _ _ _ _ holds => ?_
  refine (follows_editComponent holds owner fun node other _ stands => ?_).bind fun _ _ _ _ holds => .pure holds rfl
  refine { stands with sources := ?_ }
  dsimp only
  split
  · rw [stands.sources, List.map_append]
    rfl
  · exact stands.sources

/-- A component is put into one that has no parent and no children, so neither names nor ancestors matter. -/
theorem follows_add {parent child : ComponentId} (adopts : part.adopts parent child = true) :
    Follows place.Holds (Any Unit Unit) (add parent child .nothing)
      (add (place.component parent) (place.component child) .nothing) part whole := by
  rcases adopts_iff.mp adopts with ⟨outer, inner, parentFound, childFound, top, empty, fresh, apart⟩
  rcases node_of_found holds parentFound with ⟨outerToo, parentFoundToo, outers⟩
  rcases node_of_found holds childFound with ⟨innerToo, childFoundToo, inners⟩
  have planned := planAdd_top parentFound childFound top empty fresh apart
  have plannedToo : whole.planAdd (place.component parent) (place.component child) .nothing =
      .ok (innerToo.name, []) :=
    planAdd_top parentFoundToo childFoundToo (by rw [outers.parent, top]; rfl) (outers.children_nil empty)
      (inners.added.trans fresh) (mt place.component_inj.mp apart)
  have plans : Echo (fun plan planToo => plan.2 = [] ∧ planToo.2 = [])
      (part.planAdd parent child .nothing)
      (whole.planAdd (place.component parent) (place.component child) .nothing) := by
    rw [planned, plannedToo]
    exact .ok ⟨rfl, rfl⟩
  refine (follows_query holds plans).bind fun plan planToo nothing _ holds => ?_
  obtain ⟨name, exposed⟩ := plan
  obtain ⟨nameToo, exposedToo⟩ := planToo
  obtain ⟨rfl, rfl⟩ := nothing
  have attached : Follows place.Holds (Any Unit Unit)
      (editComponent child fun component => { component with added := true, parent := some parent })
      (editComponent (place.component child) fun component =>
        { component with added := true, parent := some (place.component parent) }) part whole :=
    follows_editComponent holds child fun node other _ stands => { stands with added := rfl, parent := rfl }
  refine attached.bind fun _ _ _ _ holds => ?_
  have unchanged : (after (editComponent child fun component =>
      { component with added := true, parent := some parent }) part).component? parent = some outer := by
    rw [after_of_run (run_editComponent childFound _), component?_changeComponent, if_neg apart.symm, parentFound]
  refine (follows_editComponent holds parent fun node other found stands => ?_).bind fun _ _ _ _ holds =>
    .pure holds trivial
  obtain rfl := Option.some.inj (unchanged.symm.trans found)
  refine { stands with children := ?_ }
  show Keyed.values (Keyed.insert nameToo (place.component child) other.children) =
    (Keyed.values (Keyed.insert name child outer.children)).map place.component
  rw [stands.children_nil empty, empty]
  rfl

end

end Placement

end Wiring
