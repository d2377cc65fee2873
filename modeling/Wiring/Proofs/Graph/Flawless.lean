import Wiring.Proofs.Graph.References
import Wiring.Proofs.Histories

/-!
Contract: operations never run into a flaw of a sound graph.

Owns: `Lasts`, by which nothing disappears from a graph, and that every change keeps it; `Safely`, by which a step
ends as promised or fails for another reason than a flaw, and how it passes through the constructions of a step;
and that every operation is safe at every sound graph, whatever its arguments.

Does not own: builds.
-/

namespace Wiring

open Wiring.Graph

/-! ### Nothing disappears -/

/-- Components and sockets stay, components keep their methods, and computations stay as they are. -/
structure Lasts (before later : Graph) : Prop where
  component : ∀ id node, before.component? id = some node →
    ∃ new, later.component? id = some new ∧ ∀ method ∈ node.methods, method ∈ new.methods
  socket : ∀ id socket, before.socket? id = some socket → ∃ new, later.socket? id = some new
  computation : ∀ id computation, before.computation? id = some computation →
    later.computation? id = some computation

namespace Lasts

variable {graph later : Graph}

theorem refl (graph : Graph) : Lasts graph graph where
  component _ node found := ⟨node, found, fun _ registered => registered⟩
  socket _ socket held := ⟨socket, held⟩
  computation _ _ found := found

theorem trans {first second third : Graph} (left : Lasts first second) (right : Lasts second third) :
    Lasts first third where
  component id node found := by
    rcases left.component id node found with ⟨between, foundBetween, kept⟩
    rcases right.component id between foundBetween with ⟨new, newFound, keptToo⟩
    exact ⟨new, newFound, fun method registered => keptToo method (kept method registered)⟩
  socket id socket held := by
    rcases left.socket id socket held with ⟨between, heldBetween⟩
    exact right.socket id between heldBetween
  computation id computation found := right.computation id computation (left.computation id computation found)

/-- Changes that touch neither methods nor the arenas. -/
theorem of_views (methods : ∀ id, (later.component? id).map Component.methods =
      (graph.component? id).map Component.methods)
    (faces : ∀ id, (later.socket? id).map Socket.face = (graph.socket? id).map Socket.face)
    (computations : ∀ id, later.computation? id = graph.computation? id) : Lasts graph later where
  component id node found := by
    rcases exists_of_map_eq (methods id).symm found with ⟨new, newFound, same⟩
    exact ⟨new, newFound, fun method registered => same ▸ registered⟩
  socket id socket held := by
    rcases exists_of_map_eq (faces id).symm held with ⟨new, newHeld, -⟩
    exact ⟨new, newHeld⟩
  computation id _ found := (computations id).trans found

end Lasts

namespace Graph

variable {graph later : Graph}

theorem Change.lasts (change : Change graph later) : Lasts graph later := by
  cases change with
  | create config scope =>
      exact ⟨fun id node found =>
          ⟨node, component?_pushComponent_eq_some.mpr (.inr found), fun _ registered => registered⟩,
        fun _ socket held => ⟨socket, held⟩, fun _ _ found => found⟩
  | socket owner internal name side node found fresh =>
      refine ⟨fun id old oldFound => ?_,
        fun id socket held => ⟨socket, socket?_withSocket_of_some held owner internal name side⟩,
        fun _ _ found => found⟩
      rw [component?_withSocket, oldFound]
      split
      · exact ⟨_, rfl, fun method registered => (methods_enlist internal side _ old).symm ▸ registered⟩
      · exact ⟨old, rfl, fun _ registered => registered⟩
  | link source target =>
      exact .of_views (fun _ => rfl) (view_withLink graph (fun _ _ _ => rfl) source target) fun _ => rfl
  | unlink source target =>
      exact .of_views (fun _ => rfl) (view_withoutLink graph (fun _ _ _ => rfl) source target) fun _ => rfl
  | bind id incoming space =>
      exact .of_views (fun _ => rfl) (view_withEntry graph (fun _ _ _ => rfl) _) fun _ => rfl
  | unbind id incoming space =>
      exact .of_views (fun _ => rfl) (view_withoutEntry graph (fun _ _ _ => rfl) _) fun _ => rfl
  | method id method node found fresh =>
      refine ⟨fun other old oldFound => ?_, fun _ socket held => ⟨socket, held⟩, fun _ _ found => found⟩
      rw [component?_changeComponent, oldFound]
      split
      · exact ⟨_, rfl, fun _ registered => List.mem_append_left _ registered⟩
      · exact ⟨old, rfl, fun _ registered => registered⟩
  | computation computation =>
      have others : Lasts graph { graph.withComputation computation with computations := graph.computations } :=
        .of_views (componentView_withComputation graph (fun _ _ _ => rfl) computation)
          (view_withComputation graph (fun _ _ _ => rfl) computation) fun _ => rfl
      exact ⟨others.component, others.socket,
        fun id known found => computation?_withComputation_eq_some.mpr (.inr found)⟩
  | child parent child parentNode childNode =>
      exact .of_views (componentView_withChild graph (fun _ _ _ _ => rfl) parent child childNode.name)
        (fun _ => rfl) fun _ => rfl
  | hook id hook =>
      exact .of_views (componentView_changeComponent graph id (Component.withHook hook) fun _ => rfl)
        (fun _ => rfl) fun _ => rfl
  | state final same =>
      exact .of_views (componentView_of_wiring (fun _ => rfl) same) (view_of_wiring (fun _ => rfl) same)
        (computation?_of_wiring same)

theorem Changes.lasts (changes : Changes graph later) : Lasts graph later := by
  induction changes with
  | refl => exact .refl graph
  | tail _ last inductionHypothesis => exact inductionHypothesis.trans last.lasts

end Graph

/-! ### Safe steps -/

/-- Where the given holds, the step ends as promised or with a failure that is no flaw. -/
def Safely {α : Type} (given : Graph → Prop) (step : GraphM α) (promised : α → Graph → Prop) : Prop :=
  ∀ graph, given graph → Unflawed (outcome step graph) ∧
    ∀ value, outcome step graph = .ok value → promised value (after step graph)

namespace Safely

variable {α β : Type} {given : Graph → Prop} {promised : β → Graph → Prop}

theorem pure {value : β} (holds : ∀ graph, given graph → promised value graph) :
    Safely given (Pure.pure value : GraphM β) promised := by
  intro graph givenHere
  refine ⟨.ok value, fun other answered => ?_⟩
  obtain rfl := Except.ok.inj answered
  exact holds graph givenHere

theorem throw {error : Error} (harmless : error.isFlaw = false) :
    Safely given (MonadExcept.throw error : GraphM β) promised :=
  fun _ _ => ⟨.error harmless, fun _ answered => nomatch answered⟩

theorem query {question : Graph → Except Error β}
    (safe : ∀ graph, given graph → Unflawed (question graph) ∧
      ∀ value, question graph = .ok value → promised value graph) : Safely given (Wiring.query question) promised :=
  safe

theorem bind {step : GraphM α} {next : α → GraphM β} {between : α → Graph → Prop}
    (first : Safely given step between) (second : ∀ value, Safely (between value) (next value) promised) :
    Safely given (step >>= next) promised := by
  intro graph givenHere
  rcases first graph givenHere with ⟨unflawed, reached⟩
  unfold outcome after
  rw [run_bind]
  cases answered : outcome step graph with
  | error error =>
      rw [answered] at unflawed
      exact ⟨.error (unflawed error rfl), fun _ other => nomatch other⟩
  | ok value => exact second value (after step graph) (reached value answered)

/-- A question is followed by what is safe for each of its answers at that graph. -/
theorem query_bind {question : Graph → Except Error α} {next : α → GraphM β}
    (unflawed : ∀ graph, given graph → Unflawed (question graph))
    (second : ∀ value, Safely (fun graph => given graph ∧ question graph = .ok value) (next value) promised) :
    Safely given (Wiring.query question >>= next) promised :=
  bind (query fun graph givenHere => ⟨unflawed graph givenHere, fun _ answered => ⟨givenHere, answered⟩⟩) second

/-- A first part that keeps the given. -/
theorem keeping {step : GraphM α} {next : α → GraphM β} (first : Safely given step fun _ => given)
    (second : ∀ value, Safely given (next value) promised) : Safely given (step >>= next) promised :=
  first.bind second

theorem mono {step : GraphM β} {required : Graph → Prop} (safe : Safely given step promised)
    (weaker : ∀ graph, required graph → given graph) : Safely required step promised :=
  fun graph requiredHere => safe graph (weaker graph requiredHere)

/-- A question whose answer does not matter for what follows. -/
theorem query_keeping {question : Graph → Except Error α} {next : α → GraphM β}
    (unflawed : ∀ graph, given graph → Unflawed (question graph))
    (second : ∀ value, Safely given (next value) promised) : Safely given (Wiring.query question >>= next) promised :=
  query_bind unflawed fun value => (second value).mono fun _ known => known.1

theorem forM {visit : α → GraphM PUnit} {items : List α}
    (each : ∀ item ∈ items, Safely given (visit item) fun _ => given) :
    Safely given (items.forM visit) fun _ => given := by
  induction items with
  | nil => exact pure fun _ givenHere => givenHere
  | cons first rest inductionHypothesis =>
      rw [forM_cons]
      refine bind (each first List.mem_cons_self) fun _ => inductionHypothesis fun item member => ?_
      exact each item (List.mem_cons_of_mem first member)

theorem mapM {visit : α → GraphM β} {items : List α} (each : ∀ item ∈ items, Safely given (visit item) fun _ => given) :
    Safely given (items.mapM visit) fun _ => given := by
  induction items with
  | nil => exact pure fun _ givenHere => givenHere
  | cons first rest inductionHypothesis =>
      rw [List.mapM_cons]
      refine bind (each first List.mem_cons_self) fun _ => keeping ?_ fun _ => pure fun _ => id
      exact inductionHypothesis fun item member => each item (List.mem_cons_of_mem first member)

/-- What changes keep holds after a step that consists of changes. -/
theorem of_keeps {step : GraphM β} (stable : ∀ {before later}, Changes before later → given before → given later)
    (keeps : Keeps Changes step) (unflawed : ∀ graph, given graph → Unflawed (outcome step graph)) :
    Safely given step fun _ => given :=
  fun graph givenHere => ⟨unflawed graph givenHere, fun _ _ => stable (keeps graph) givenHere⟩

end Safely

namespace Graph

variable {graph : Graph}

theorem unflawed_of_run {α : Type} {step : GraphM α} {value : α} {later : Graph}
    (ran : step.run graph = (.ok value, later)) : Unflawed (outcome step graph) :=
  .of_ok (outcome_of_run ran)

/-- A step that can only fail in the question at its start is as unflawed as the question. -/
theorem unflawed_of_planned {α β : Type} {question : Graph → Except Error β} {next : β → GraphM α}
    (unflawed : Unflawed (question graph))
    (succeeds : ∀ value, question graph = .ok value →
      ∃ answer later, (query question >>= next).run graph = (.ok answer, later)) :
    Unflawed (outcome (query question >>= next) graph) := by
  cases answered : question graph with
  | error error =>
      rw [outcome_of_run (run_query_bind_error answered next)]
      exact .error (unflawed error answered)
  | ok value =>
      rcases succeeds value answered with ⟨answer, later, ran⟩
      exact unflawed_of_run ran

/-! ### Operations on the structure -/

theorem unflawed_create (graph : Graph) (config : ComponentConfig) : Unflawed (outcome (create config) graph) := by
  unfold create
  split
  · exact .ok _
  · exact .error rfl

theorem unflawed_setHook (graph : Graph) (id : ComponentId) (hook : Hook) :
    Unflawed (outcome (setHook id hook) graph) :=
  unflawed_of_planned (unflawed_component graph id) fun _ found =>
    ⟨_, _, (run_query_bind found _).trans (run_editComponent (component_eq_ok.mp found) _)⟩

theorem unflawed_register (graph : Graph) (id : ComponentId) (method : Method) :
    Unflawed (outcome (register id method) graph) := by
  cases found : graph.component id with
  | error error =>
      rw [register, outcome_of_run (run_query_bind_error found _)]
      exact .error (unflawed_component graph id error found)
  | ok node =>
      rw [register, outcome, run_query_bind found]
      cases node.method? method.name with
      | some other => exact .error rfl
      | none => exact unflawed_of_run (run_editComponent (component_eq_ok.mp found) _)

namespace SocketsSound

variable (sound : SocketsSound graph)
include sound

theorem unflawed_addSockets (owner : ComponentId) (names : List String) (side : Option Side) (internal : Bool) :
    Unflawed (outcome (addSockets owner names side internal) graph) := by
  refine unflawed_of_planned ?_ fun plan planned => run_addSockets_planned internal planned
  refine (unflawed_component graph owner).bind fun node found => ?_
  refine (unflawed_socketNames fun id listed => sound.held_of_mem (component_eq_ok.mp found) listed).bind
    fun taken _ => unflawed_planSockets node.name side taken names

theorem unflawed_ensureInternal (owner : ComponentId) (name : String) :
    Unflawed (outcome (ensureInternal owner name) graph) := by
  cases found : graph.component? owner with
  | none =>
      refine unflawed_of_planned (sound.unflawed_socketNamed owner name none) fun known asked => ?_
      rcases except_bind_eq_ok.mp asked with ⟨node, listed, -⟩
      rw [component_eq_ok, found] at listed
      cases listed
  | some node =>
      rcases sound.ensureInternal_answers found name with ⟨id, later, ran⟩
      exact unflawed_of_run ran

theorem unflawed_connect (viewer : ComponentId) (source target : Endpoint) :
    Unflawed (outcome (connect viewer source target) graph) :=
  unflawed_of_planned (sound.unflawed_planLink viewer source target) fun _ planned => run_connect_planned planned

theorem unflawed_disconnect (viewer : ComponentId) (source target : Endpoint) :
    Unflawed (outcome (disconnect viewer source target) graph) := by
  cases planned : graph.planLink viewer source target with
  | error error =>
      rw [disconnect, outcome_of_run (run_query_bind_error planned _)]
      exact .error (sound.unflawed_planLink viewer source target error planned)
  | ok entries =>
      rw [disconnect, outcome, run_query_bind planned]
      have linking := planLink_ok planned
      cases checked : graph.checkLinked entries with
      | error error =>
          rw [run_query_bind_error checked]
          exact .error (unflawed_checkLinked linking error checked)
      | ok done =>
          rw [run_query_bind checked]
          cases linking with
          | bound id incoming space socket found side =>
              rw [forM_cons]
              have removed := run_remove ⟨id, incoming, .space space⟩ found
              split at removed
              · exact unflawed_of_run (run_bind_ok removed _)
              · rw [run_bind_error removed]
                exact .error rfl
          | linked source target first second sourceFound targetFound apart =>
              rcases checkLinked_link_ok sourceFound targetFound checked with ⟨outgoing, incoming⟩
              exact unflawed_of_run (run_remove_link sourceFound targetFound apart outgoing incoming)

end SocketsSound

namespace Sound

variable (sound : Sound graph)
include sound

theorem unflawed_defineInputs (owner : ComponentId) (names : List String) (space : Option Space) :
    Unflawed (outcome (defineInputs owner names space) graph) := by
  have added := sound.sockets.unflawed_addSockets owner names (some .input) false
  unfold defineInputs
  cases answered : outcome (addSockets owner names (some .input) false) graph with
  | error error =>
      rw [outcome, run_bind_error (by rw [run_eq, answered])]
      exact .error (added error answered)
  | ok ids =>
      have ran : (addSockets owner names (some .input) false).run graph =
          (.ok ids, after (addSockets owner names (some .input) false) graph) := by rw [run_eq, answered]
      rcases addSockets_offers ran with ⟨⟨node, found⟩, offered⟩
      rw [outcome, run_bind_ok ran]
      cases space with
      | none => exact .ok _
      | some space =>
          rcases run_connect_spaces found space offered with ⟨final, bound⟩
          exact unflawed_of_run (run_bind_ok bound _)

theorem unflawed_compute (owner : ComponentId) (inputs outputs : List String) (method : Option String)
    (options : Options) : Unflawed (outcome (compute owner inputs outputs method options) graph) :=
  unflawed_of_planned (sound.sockets.unflawed_planCompute owner inputs outputs method options)
    fun _ planned => sound.run_compute_planned planned

theorem unflawed_add (parent child : ComponentId) (exposure : Exposure) :
    Unflawed (outcome (add parent child exposure) graph) :=
  unflawed_of_planned (sound.unflawed_planAdd parent child exposure) fun _ planned => sound.run_add_planned planned

end Sound

/-! ### Operations that consist of others -/

/-- The graph is sound, and the component is there. -/
def Founded (root : ComponentId) (graph : Graph) : Prop :=
  Sound graph ∧ ∃ node, graph.component? root = some node

theorem Founded.changes {root : ComponentId} {before later : Graph} (changes : Changes before later)
    (founded : Founded root before) : Founded root later := by
  rcases founded with ⟨sound, node, found⟩
  rcases changes.lasts.component root node found with ⟨new, newFound, -⟩
  exact ⟨sound.changes changes, new, newFound⟩

/-- A step that consists of changes and is unflawed at sound graphs leaves what is there. -/
theorem safely_founded {α : Type} {step : GraphM α} (root : ComponentId) (keeps : Keeps Changes step)
    (unflawed : ∀ graph, Sound graph → Unflawed (outcome step graph)) :
    Safely (Founded root) step fun _ => Founded root :=
  .of_keeps Founded.changes keeps fun graph founded => unflawed graph founded.1

theorem safely_create (config : ComponentConfig) : Safely Sound (create config) Founded := by
  intro graph sound
  refine ⟨unflawed_create graph config, fun id created => ⟨sound.changes (keeps_create config graph), ?_⟩⟩
  unfold create at created ⊢
  split at created
  next scope =>
    rw [if_pos scope]
    obtain rfl : graph.nextComponent = id := Except.ok.inj created
    exact ⟨_, by
      show (graph.pushComponent (.ofConfig config)).component? graph.nextComponent = _
      rw [component?_pushComponent, if_pos rfl]⟩
  next => cases created

theorem safely_addMany (parent : ComponentId) (children : List ComponentId) (exposures : Exposures) :
    Safely Sound (addMany parent children exposures) fun _ => Sound := by
  have added (child : ComponentId) (exposure : Exposure) : Safely Sound (add parent child exposure) fun _ => Sound :=
    .of_keeps Sound.changes (keeps_add parent child exposure) fun _ sound => sound.unflawed_add parent child exposure
  refine .forM fun child _ => ?_
  cases exposures with
  | each exposure => exact added child exposure
  | nothing => exact added child .nothing
  | byName chosen =>
      exact .query_keeping (fun graph _ => unflawed_component graph child) fun node => added child _

mutual

theorem safely_instantiatePlan (config : ComponentConfig) :
    ∀ plan, Safely Sound (instantiatePlan config plan) Founded
  | .node _ sockets methods computations hook children => by
      rw [instantiatePlan]
      refine (safely_create config).bind fun id => ?_
      refine Safely.keeping (.forM fun socket _ => ?_) fun _ => ?_
      · refine (safely_founded id (keeps_addSockets id _ _ _) fun graph sound => ?_).bind fun _ =>
          .pure fun _ founded => founded
        exact sound.sockets.unflawed_addSockets id _ _ _
      refine Safely.keeping (.forM fun method _ => ?_) fun _ => ?_
      · exact safely_founded id (keeps_register id method) fun graph _ => unflawed_register graph id method
      refine Safely.keeping (.forM fun computation _ => ?_) fun _ => ?_
      · refine (safely_founded id (keeps_compute id _ _ _ _) fun graph sound => ?_).bind fun _ =>
          .pure fun _ founded => founded
        exact sound.unflawed_compute id _ _ _ _
      have below : Safely (Founded id) (do
          instantiateChildren id children
          return id) Founded :=
        (safely_instantiateChildren id children).bind fun _ => .pure fun _ founded => founded
      cases hook with
      | some hook =>
          exact (safely_founded id (keeps_setHook id hook) fun graph _ => unflawed_setHook graph id hook).bind
            fun _ => below
      | none => exact below

theorem safely_instantiateChildren (parent : ComponentId) :
    ∀ children, Safely (Founded parent) (instantiateChildren parent children) fun _ => Founded parent
  | [] => by
      rw [instantiateChildren]
      exact .pure fun _ founded => founded
  | child :: rest => by
      rw [instantiateChildren]
      have made : Safely (Founded parent) (instantiatePlan child.config child) fun _ => Founded parent :=
        safely_founded parent (keeps_instantiatePlan child.config child) fun graph sound =>
          (safely_instantiatePlan child.config child graph sound).1
      refine made.bind fun id => ?_
      refine (safely_founded parent (keeps_add parent id .nothing) fun graph sound => ?_).bind fun _ =>
        safely_instantiateChildren parent rest
      exact sound.unflawed_add parent id .nothing

end

theorem safely_restoreLink (root : ComponentId) (link : SocketPath × SocketPath) :
    Safely (Founded root) (restoreLink root link) fun _ => Founded root := by
  have located (place : SocketPath) (graph : Graph) (founded : Founded root graph) :
      Unflawed (graph.socketAt root place) := by
    rcases founded with ⟨sound, node, found⟩
    exact sound.unflawed_socketAt found place
  refine .query_keeping (located link.1) fun source => .query_keeping (located link.2) fun target => ?_
  exact safely_founded root (keeps_connect root _ _) fun graph sound => sound.sockets.unflawed_connect root _ _

theorem safely_restoreBinding (root : ComponentId) (binding : SpaceBinding) :
    Safely (Founded root) (restoreBinding root binding) fun _ => Founded root := by
  have connected (source target : Endpoint) :
      Safely (Founded root) (connect root source target) fun _ => Founded root :=
    safely_founded root (keeps_connect root source target) fun graph sound =>
      sound.sockets.unflawed_connect root source target
  refine .query_keeping (fun graph founded => ?_) fun socket => ?_
  · rcases founded with ⟨sound, node, found⟩
    exact sound.unflawed_socketAt found binding.socket
  · split
    · exact connected _ _
    · exact connected _ _

theorem safely_instantiate (blueprint : Blueprint) (name scope : Option String) :
    Safely Sound (instantiate blueprint name scope) Founded := by
  rw [instantiate_eq]
  refine (safely_instantiatePlan _ blueprint.root).bind fun root => ?_
  refine Safely.keeping (.forM fun link _ => safely_restoreLink root link) fun _ => ?_
  refine Safely.keeping (.forM fun binding _ => safely_restoreBinding root binding) fun _ => ?_
  exact .pure fun _ founded => founded

theorem safely_copy (id : ComponentId) (name scope : Option String) :
    Safely Sound (copy id name scope) Founded :=
  .query_keeping (fun _ sound => sound.unflawed_blueprint id) fun blueprint => safely_instantiate blueprint name _

/-! ### Operations on variables -/

theorem unflawed_require (backend : Backend) (capability : Capability) : Unflawed (backend.require capability) := by
  unfold Backend.require
  split
  · exact .ok _
  · exact .error rfl

theorem unflawed_slot (store : Store) (handle : Variable) : Unflawed (store.slot handle) := by
  unfold Store.slot
  split
  · exact .ok _
  · exact .error rfl

theorem unflawed_checkRows (length : Nat) (rows : List Nat) (name : String) :
    Unflawed (Store.checkRows length rows name) := by
  unfold Store.checkRows
  split
  · exact .error rfl
  · exact .ok _

theorem unflawed_backendCreate (backend : Backend) (request : VariableRequest) :
    Unflawed (backend.create request) := by
  refine (unflawed_require backend .create).bind fun _ _ => Unflawed.bind ?_ fun _ _ => .ok _
  unfold Store.create
  split
  · exact .error rfl
  · refine Unflawed.bind ?_ fun _ _ => .ok _
    unfold Initializer.materialize
    split
    · exact .ok _
    · exact .ok _
    · exact .ok _
    · split
      · exact .ok _
      · exact .error rfl

theorem unflawed_scatter (backend : Backend) (handle : Variable) (rows : List Nat) (updates : Tensor Float32) :
    Unflawed (backend.scatter handle rows updates) := by
  refine (unflawed_require backend .scatter).bind fun _ _ => Unflawed.bind ?_ fun _ _ => .ok _
  refine (unflawed_slot backend.store handle).bind fun slot _ => ?_
  dsimp only
  split
  · split
    · exact .error rfl
    · exact (unflawed_checkRows _ rows handle.name).bind fun _ _ => .ok _
  · exact .error rfl

theorem unflawed_assign (backend : Backend) (handle : Variable) (value : Tensor Float32) :
    Unflawed (backend.assign handle value) := by
  refine (unflawed_require backend .assign).bind fun _ _ => Unflawed.bind ?_ fun _ _ => .ok _
  unfold Store.assign
  dsimp only
  split
  · exact .error rfl
  · exact (unflawed_slot backend.store handle).bind fun _ _ => .ok _

theorem unflawed_singleVariable (graph : Graph) (owner : ComponentId) (name : String) :
    Unflawed (graph.singleVariable owner name) := by
  refine (unflawed_component graph owner).bind fun node _ => ?_
  split
  · exact .ok _
  · exact .error rfl
  · exact .error rfl

theorem safely_useBackend {α : Type} {act : Backend → Except Error (α × Backend)} {own : ComponentId}
    (keeps : Keeps (Registers own) (useBackend act)) (unflawed : ∀ backend, Unflawed (act backend)) :
    Safely Sound (useBackend act) fun _ => Sound := by
  refine .of_keeps Sound.changes (fun graph => changes_of_registers (keeps graph)) fun graph _ => ?_
  exact unflawed_of_planned (unflawed graph.backend) fun answer acted => ⟨_, _, run_query_bind acted _⟩

theorem safely_createBackend (request : VariableRequest) :
    Safely Sound (useBackend fun backend => backend.create request) fun _ => Sound :=
  safely_useBackend (keeps_create_backend ⟨0⟩ request) fun backend => unflawed_backendCreate backend request

mutual

theorem safely_createNested (request : LeafRequest) (name : String) :
    ∀ space, Safely Sound (createNested request name space) fun _ => Sound
  | .box leaf => by
      rw [createNested]
      exact (safely_createBackend _).bind fun _ => .pure fun _ => id
  | .dict entries => by
      rw [createNested]
      exact (safely_createEntries request name entries).bind fun _ => .pure fun _ => id
  | .tuple parts => by
      rw [createNested]
      exact (safely_createParts request name 0 parts).bind fun _ => .pure fun _ => id

theorem safely_createEntries (request : LeafRequest) (name : String) :
    ∀ entries, Safely Sound (createEntries request name entries) fun _ => Sound
  | [] => by
      rw [createEntries]
      exact .pure fun _ => id
  | (key, space) :: rest => by
      rw [createEntries]
      exact (safely_createNested request _ space).bind fun _ =>
        (safely_createEntries request name rest).bind fun _ => .pure fun _ => id

theorem safely_createParts (request : LeafRequest) (name : String) (index : Nat) :
    ∀ parts, Safely Sound (createParts request name index parts) fun _ => Sound
  | [] => by
      rw [createParts]
      exact .pure fun _ => id
  | space :: rest => by
      rw [createParts]
      exact (safely_createNested request _ space).bind fun _ =>
        (safely_createParts request name (index + 1) rest).bind fun _ => .pure fun _ => id

end

theorem safely_createFlat (request : LeafRequest) (full name : String) (leaves : Keyed Box) :
    Safely Sound (createFlat request full name leaves) fun _ => Sound := by
  refine Safely.keeping (.mapM fun leaf _ => ?_) fun _ => .pure fun _ => id
  exact (safely_createBackend _).bind fun _ => .pure fun _ => id

theorem safely_checkLeafNames (full : String) (leaves : Keyed Box) :
    Safely Sound (checkLeafNames full leaves) fun _ => Sound := by
  refine .query_keeping (fun graph _ => ?_) fun taken => ?_
  · exact (unflawed_require graph.backend .collection).bind fun _ _ => .ok _
  · split
    · exact .throw rfl
    · exact .pure fun _ => id

theorem safely_createVariable (owner : ComponentId) (name : String) (spec : VariableSpec) :
    Safely Sound (createVariable owner name spec) fun _ => Sound := by
  refine .query_keeping (fun graph sound => sound.unflawed_fullScope owner) fun scope => ?_
  cases spec.source with
  | some source =>
      refine .query_keeping (fun graph sound => sound.unflawed_spaceOfSource owner source) fun space => ?_
      refine (safely_checkLeafNames _ _).bind fun _ => ?_
      split
      · exact safely_createFlat _ _ name _
      · exact safely_createNested _ _ space
  | none =>
      refine .query_keeping (fun graph _ => ?_) fun shape => ?_
      · unfold Initializer.resolveShape
        split
        · exact .ok _
        · split
          · exact .ok _
          · exact .error rfl
        · exact .ok _
        · exact .ok _
      · exact (safely_createBackend _).bind fun _ => .pure fun _ => id

theorem safely_getVariable (owner : ComponentId) (name : String) (spec : VariableSpec) :
    Safely Sound (getVariable owner name spec) fun _ => Sound := by
  have edited (change : Keyed VariableValue → Keyed VariableValue) :
      Safely (Founded owner) (editComponent owner (withRegistry change)) fun _ => Founded owner := by
    refine .of_keeps Founded.changes (fun graph => changes_of_registers (keeps_editRegistry owner change graph)) ?_
    rintro graph ⟨-, node, found⟩
    exact unflawed_of_run (run_editComponent found _)
  have created : Safely (Founded owner) (do
      let value ← createVariable owner name spec
      editComponent owner (withRegistry (Keyed.insert name value))
      return value) fun _ => Sound := by
    refine (safely_founded owner (fun graph => changes_of_registers (keeps_createVariable owner name spec graph))
      fun graph sound => (safely_createVariable owner name spec graph sound).1).bind fun value => ?_
    exact (edited _).bind fun _ => .pure fun _ founded => founded.1
  refine .query_bind (fun graph _ => unflawed_component graph owner) fun node => ?_
  suffices founded : Safely (Founded owner) _ fun _ => Sound from
    founded.mono fun graph known => ⟨known.1, node, component_eq_ok.mp known.2⟩
  by_cases lookup : spec.isLookup = true
  · simp only [if_pos lookup]
    cases Keyed.get? node.registry name with
    | some value => exact .pure fun _ founded => founded.1
    | none => exact Safely.keeping (.throw rfl) fun _ => created
  · simp only [if_neg lookup]
    exact created

/-- The values of variables are written by the backend alone. -/
theorem unflawed_write (graph : Graph) (owner : ComponentId) (name : String)
    {act : Variable → Backend → Except Error Backend} (unflawed : ∀ handle backend, Unflawed (act handle backend)) :
    Unflawed (outcome (do
      let handle ← query (·.singleVariable owner name)
      useBackend fun backend => ((), ·) <$> act handle backend) graph) := by
  cases found : graph.singleVariable owner name with
  | error error =>
      rw [outcome_of_run (run_query_bind_error found _)]
      exact .error (unflawed_singleVariable graph owner name error found)
  | ok handle =>
      rw [outcome, run_query_bind found]
      exact unflawed_of_planned (unflawed handle graph.backend).map fun answer acted => ⟨_, _, run_query_bind acted _⟩

/-! ### All operations -/

/-- An operation on a sound graph does not run into a flaw, whatever its arguments. -/
theorem Sound.unflawed_operation (sound : Sound graph) {α : Type} {step : GraphM α} (isOperation : IsOperation step) :
    Unflawed (outcome step graph) := by
  cases isOperation with
  | create config => exact unflawed_create graph config
  | setHook id hook => exact unflawed_setHook graph id hook
  | addSockets owner names side internal => exact sound.sockets.unflawed_addSockets owner names side internal
  | defineInputs owner names space => exact sound.unflawed_defineInputs owner names space
  | defineOutputs owner names => exact sound.sockets.unflawed_addSockets owner names (some .output) false
  | ensureInternal owner name => exact sound.sockets.unflawed_ensureInternal owner name
  | connect viewer source target => exact sound.sockets.unflawed_connect viewer source target
  | disconnect viewer source target => exact sound.sockets.unflawed_disconnect viewer source target
  | register id method => exact unflawed_register graph id method
  | compute owner inputs outputs method options => exact sound.unflawed_compute owner inputs outputs method options
  | add parent child exposure => exact sound.unflawed_add parent child exposure
  | addMany parent children exposures => exact (safely_addMany parent children exposures graph sound).1
  | getVariable owner name spec => exact (safely_getVariable owner name spec graph sound).1
  | scatter owner name rows updates =>
      exact unflawed_write graph owner name fun handle backend => unflawed_scatter backend handle rows updates
  | assign owner name value =>
      exact unflawed_write graph owner name fun handle backend => unflawed_assign backend handle value
  | instantiate blueprint name scope => exact (safely_instantiate blueprint name scope graph sound).1
  | copy id name scope => exact (safely_copy id name scope graph sound).1

end Graph

end Wiring
