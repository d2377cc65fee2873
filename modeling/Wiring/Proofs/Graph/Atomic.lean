import Wiring.Proofs.Blueprint.Places

/-!
Contract: operations on the structure of a graph leave no trace of a failure.

Owns: `Atomic`, by which a step that fails at a graph leaves that graph; that new sockets, internal sockets,
bound spaces and exposed sockets can be made once the checks in front of them have passed, in every sound
graph; and that each structural operation is atomic at every reachable graph.

Does not own: the operations that consist of several structural ones, which keep what was done before a
failure.
-/

namespace Wiring

open Wiring.Graph

variable {α β : Type} {graph : Graph}

/-- A failure of the step leaves the graph as it was. -/
def Atomic (step : GraphM α) (graph : Graph) : Prop :=
  ∀ error, outcome step graph = .error error → after step graph = graph

/-- The operations on the structure of a graph, each with any arguments. -/
inductive IsStructural : {α : Type} → GraphM α → Prop where
  | create (config : ComponentConfig) : IsStructural (Graph.create config)
  | addSockets (owner : ComponentId) (names : List String) (side : Option Side) (internal : Bool) :
      IsStructural (Graph.addSockets owner names side internal)
  | defineInputs (owner : ComponentId) (names : List String) (space : Option Space) :
      IsStructural (Graph.defineInputs owner names space)
  | defineOutputs (owner : ComponentId) (names : List String) : IsStructural (Graph.defineOutputs owner names)
  | ensureInternal (owner : ComponentId) (name : String) : IsStructural (Graph.ensureInternal owner name)
  | connect (viewer : ComponentId) (source target : Endpoint) : IsStructural (Graph.connect viewer source target)
  | disconnect (viewer : ComponentId) (source target : Endpoint) :
      IsStructural (Graph.disconnect viewer source target)
  | register (id : ComponentId) (method : Method) : IsStructural (Graph.register id method)
  | setHook (id : ComponentId) (hook : Hook) : IsStructural (Graph.setHook id hook)
  | compute (owner : ComponentId) (inputs outputs : List String) (method : Option String) (options : Options) :
      IsStructural (Graph.compute owner inputs outputs method options)
  | add (parent child : ComponentId) (exposure : Exposure) : IsStructural (Graph.add parent child exposure)

namespace Atomic

theorem of_ok {step : GraphM α} {value : α} {later : Graph} (ran : step.run graph = (.ok value, later)) :
    Atomic step graph := by
  intro error failed
  rw [outcome_of_run ran] at failed
  cases failed

theorem of_unchanged {step : GraphM α} {answer : Except Error α} (ran : step.run graph = (answer, graph)) :
    Atomic step graph :=
  fun _ _ => after_of_run ran

/-- Questions edit nothing, so only what follows a successful one matters. -/
theorem query_bind {question : Graph → Except Error β} {next : β → GraphM α}
    (second : ∀ value, question graph = .ok value → Atomic (next value) graph) :
    Atomic (query question >>= next) graph := by
  cases answered : question graph with
  | error error => exact of_unchanged (run_query_bind_error answered next)
  | ok value =>
      have ran := run_query_bind answered next
      intro error failed
      rw [show outcome (query question >>= next) graph = outcome (next value) graph from congrArg Prod.fst ran]
        at failed
      rw [show after (query question >>= next) graph = after (next value) graph from congrArg Prod.snd ran]
      exact second value answered error failed

/-- A step that can only fail in the question at its start. -/
theorem of_planned {question : Graph → Except Error β} {next : β → GraphM α}
    (succeeds : ∀ value, question graph = .ok value →
      ∃ answer later, (query question >>= next).run graph = (.ok answer, later)) :
    Atomic (query question >>= next) graph := by
  cases answered : question graph with
  | error error => exact of_unchanged (run_query_bind_error answered next)
  | ok value =>
      rcases succeeds value answered with ⟨answer, later, ran⟩
      exact of_ok ran

/-- After a part that is atomic nothing may fail any more. -/
theorem bind {step : GraphM β} {next : β → GraphM α} (first : Atomic step graph)
    (second : ∀ value later, step.run graph = (.ok value, later) →
      ∃ answer final, (next value).run later = (.ok answer, final)) : Atomic (step >>= next) graph := by
  cases answered : outcome step graph with
  | error error =>
      have ran : step.run graph = (.error error, graph) := by rw [run_eq, answered, first error answered]
      exact of_unchanged (run_bind_error ran next)
  | ok value =>
      have ran : step.run graph = (.ok value, after step graph) := by rw [run_eq, answered]
      rcases second value _ ran with ⟨answer, final, finished⟩
      exact of_ok ((run_bind_ok ran next).trans finished)

end Atomic

namespace Graph

/-! ### New sockets -/

/-- The sockets of a side, each of an owner. -/
def Offers (graph : Graph) (owner : ComponentId) (side : Side) (ids : List SocketId) : Prop :=
  ∀ id ∈ ids, ∃ socket, graph.socket? id = some socket ∧ socket.owner = owner ∧ socket.side = side

/-- Planned sockets can be made, since their owner exists. -/
theorem run_addSocket_all {owner : ComponentId} (internal : Bool) (plan : List (String × Side))
    (found : ∃ node, graph.component? owner = some node) :
    ∃ ids later, (plan.mapM (addSocket owner internal)).run graph = (.ok ids, later) ∧
      (∃ node, later.component? owner = some node) ∧
      (∀ id socket, graph.socket? id = some socket → later.socket? id = some socket) ∧
      ∀ side, (∀ entry ∈ plan, entry.2 = side) → Offers later owner side ids := by
  induction plan generalizing graph with
  | nil => exact ⟨[], graph, rfl, found, fun _ _ held => held, fun side _ id member => by cases member⟩
  | cons first rest inductionHypothesis =>
      rcases found with ⟨node, found⟩
      have foundAfter : (graph.withSocket owner internal first.1 first.2).component? owner =
          some (node.enlist internal first.2 graph.nextSocket) := by
        rw [component?_withSocket, if_pos rfl, found]
        rfl
      rcases inductionHypothesis ⟨_, foundAfter⟩ with ⟨ids, later, ran, foundLater, kept, offered⟩
      refine ⟨graph.nextSocket :: ids, later, ?_, foundLater, ?_, ?_⟩
      · rw [List.mapM_cons, run_bind_ok (run_addSocket found internal first), run_bind_ok ran]
        rfl
      · exact fun id socket held => kept id socket (socket?_withSocket_of_some held owner internal _ _)
      · intro side onSide id member
        rcases List.mem_cons.mp member with rfl | later
        · refine ⟨_, kept graph.nextSocket { name := first.1, side := first.2, internal, owner } ?_, rfl, ?_⟩
          · rw [socket?_withSocket, if_pos rfl]
          · exact onSide first List.mem_cons_self
        · exact offered side (fun entry entryMember => onSide entry (List.mem_cons_of_mem first entryMember)) id later

/-- Sockets can be added as soon as their names have been checked. -/
theorem run_addSockets_planned {owner : ComponentId} {names : List String} {side : Option Side}
    {plan : List (String × Side)} (internal : Bool) (planned : (do
      let component ← graph.component owner
      let taken ← graph.socketNames component.sockets
      planSockets component.name side taken names) = .ok plan) :
    ∃ ids later, (addSockets owner names side internal).run graph = (.ok ids, later) := by
  rcases except_bind_eq_ok.mp planned with ⟨node, found, -⟩
  rcases run_addSocket_all internal plan ⟨node, component_eq_ok.mp found⟩ with ⟨ids, later, ran, -⟩
  exact ⟨ids, later, (run_query_bind planned _).trans ran⟩

theorem atomic_addSockets (graph : Graph) (owner : ComponentId) (names : List String) (side : Option Side)
    (internal : Bool) : Atomic (addSockets owner names side internal) graph := by
  refine .of_planned fun plan planned => ?_
  rcases run_addSockets_planned internal planned with ⟨ids, later, ran⟩
  exact ⟨ids, later, ran⟩

/-- Sockets that are asked for with a side get it. -/
theorem planSockets_side {owner : String} {side : Side} {taken names : List String} {plan : List (String × Side)}
    (planned : planSockets owner (some side) taken names = .ok plan) : ∀ entry ∈ plan, entry.2 = side := by
  induction names generalizing taken plan with
  | nil =>
      obtain rfl : [] = plan := Except.ok.inj planned
      exact fun entry member => by cases member
  | cons name rest inductionHypothesis =>
      obtain ⟨chosen, sided, checked⟩ := except_bind_eq_ok.mp planned
      obtain rfl : side = chosen := Except.ok.inj sided
      by_cases known : name ∈ taken
      · simp only [if_pos known] at checked
        cases checked
      · simp only [if_neg known] at checked
        obtain ⟨others, restPlanned, rfl⟩ := except_map_eq_ok.mp checked
        intro entry member
        rcases List.mem_cons.mp member with rfl | later
        · rfl
        · exact inductionHypothesis restPlanned entry later

theorem addSockets_offers {later : Graph} {owner : ComponentId} {names : List String} {side : Side}
    {internal : Bool} {ids : List SocketId}
    (ran : (addSockets owner names (some side) internal).run graph = (.ok ids, later)) :
    (∃ node, later.component? owner = some node) ∧ Offers later owner side ids := by
  rcases of_run_bind_ok ran with ⟨plan, middle, asked, ran⟩
  obtain rfl : graph = middle := congrArg Prod.snd asked
  rcases except_bind_eq_ok.mp (congrArg Prod.fst asked) with ⟨node, found, planned⟩
  rcases except_bind_eq_ok.mp planned with ⟨taken, -, planned⟩
  rcases run_addSocket_all internal plan ⟨node, component_eq_ok.mp found⟩ with
    ⟨made, final, added, foundAfter, -, offered⟩
  have same := ran.symm.trans added
  obtain rfl : ids = made := Except.ok.inj (congrArg Prod.fst same)
  obtain rfl : later = final := congrArg Prod.snd same
  exact ⟨foundAfter, offered side (planSockets_side planned)⟩

/-! ### Bound spaces -/

theorem run_connect_space {owner : ComponentId} {node : Component} (found : graph.component? owner = some node)
    {id : SocketId} {socket : Socket} (held : graph.socket? id = some socket) (side : socket.side = .input)
    (space : Space) :
    (connect owner (.space space) (.socket (.id id))).run graph =
      (.ok ⟨⟩, graph.withEntry ⟨id, true, .space space⟩) :=
  run_connect_input (resolve_id found held none) held side space

theorem run_connect_spaces {owner : ComponentId} {node : Component} (found : graph.component? owner = some node)
    (space : Space) {ids : List SocketId} (offered : Offers graph owner .input ids) :
    ∃ later, (ids.forM fun id => connect owner (.space space) (.socket (.id id))).run graph = (.ok ⟨⟩, later) := by
  induction ids generalizing graph with
  | nil => exact ⟨graph, rfl⟩
  | cons first rest inductionHypothesis =>
      rcases offered first List.mem_cons_self with ⟨socket, held, -, side⟩
      have offeredAfter : Offers (graph.withEntry ⟨first, true, .space space⟩) owner .input rest := by
        intro id member
        rcases offered id (List.mem_cons_of_mem first member) with ⟨other, otherHeld, owned, otherSide⟩
        rw [socket?_withEntry, otherHeld]
        split
        · exact ⟨_, rfl, owned, otherSide⟩
        · exact ⟨other, rfl, owned, otherSide⟩
      have foundAfter : (graph.withEntry ⟨first, true, .space space⟩).component? owner = some node := found
      rcases inductionHypothesis foundAfter offeredAfter with ⟨later, ran⟩
      exact ⟨later, by rw [forM_cons, run_bind_ok (run_connect_space found held side space), ran]⟩

theorem atomic_defineInputs (graph : Graph) (owner : ComponentId) (names : List String) (space : Option Space) :
    Atomic (defineInputs owner names space) graph := by
  refine .bind (atomic_addSockets graph owner names (some .input) false) fun ids later ran => ?_
  rcases addSockets_offers ran with ⟨⟨node, found⟩, offered⟩
  cases space with
  | none => exact ⟨ids, later, rfl⟩
  | some space =>
      rcases run_connect_spaces found space offered with ⟨final, bound⟩
      exact ⟨ids, final, run_bind_ok bound _⟩

/-! ### Internal sockets -/

theorem findNamed_answers (name : String) {ids : List SocketId}
    (held : ∀ id ∈ ids, ∃ socket, graph.socket? id = some socket) :
    ∃ answer, graph.findNamed name ids = .ok answer ∧
      (answer = none → ∀ id ∈ ids, ∀ socket, graph.socket? id = some socket → socket.name ≠ name) := by
  induction ids with
  | nil => exact ⟨none, rfl, fun _ id member => by cases member⟩
  | cons first rest inductionHypothesis =>
      rcases held first List.mem_cons_self with ⟨socket, firstHeld⟩
      by_cases same : socket.name = name
      · refine ⟨some first, except_bind_eq_ok.mpr ⟨socket, heldSocket_eq_ok.mpr firstHeld, ?_⟩, nofun⟩
        rw [if_pos same]
        rfl
      · rcases inductionHypothesis fun id member => held id (List.mem_cons_of_mem first member) with
          ⟨answer, found, absent⟩
        refine ⟨answer, except_bind_eq_ok.mpr ⟨socket, heldSocket_eq_ok.mpr firstHeld, ?_⟩, ?_⟩
        · rw [if_neg same]
          exact found
        · intro missing id member other otherHeld
          rcases List.mem_cons.mp member with rfl | later
          · obtain rfl := Option.some.inj (firstHeld.symm.trans otherHeld)
            exact same
          · exact absent missing id later other otherHeld

namespace SocketsSound

variable (sound : SocketsSound graph) {owner : ComponentId} {node : Component}
include sound

theorem held_of_mem (found : graph.component? owner = some node) {id : SocketId} (listed : id ∈ node.sockets) :
    ∃ socket, graph.socket? id = some socket := by
  rcases (sound.mem_sockets found).mp listed with ⟨socket, held, -⟩
  exact ⟨socket, held⟩

/-- Looking for a socket of a component by its name always gives an answer. -/
theorem socketNamed_answers (found : graph.component? owner = some node) (name : String) :
    ∃ answer, graph.socketNamed? owner name none = .ok answer ∧
      (answer = none → ∀ id ∈ node.sockets, ∀ socket, graph.socket? id = some socket → socket.name ≠ name) := by
  have held : ∀ id ∈ searched node none, ∃ socket, graph.socket? id = some socket :=
    fun id member => sound.held_of_mem found (mem_searched member)
  obtain ⟨answer, searchedIn, absent⟩ : ∃ answer, graph.findNamed name (searched node none) = .ok answer ∧ _ :=
    findNamed_answers name held
  refine ⟨answer, except_bind_eq_ok.mpr ⟨node, component_eq_ok.mpr found, searchedIn⟩, fun missing id listed => ?_⟩
  refine absent missing id ?_
  unfold Component.sockets at listed
  simp only [searched, List.mem_append] at listed ⊢
  tauto

theorem socketNames_answers (found : graph.component? owner = some node) :
    ∃ taken, graph.socketNames node.sockets = .ok taken ∧
      ∀ name ∈ taken, ∃ id ∈ node.sockets, ∃ socket, graph.socket? id = some socket ∧ socket.name = name := by
  have all : ∀ id ∈ node.sockets, ∃ name, Socket.name <$> graph.heldSocket id = .ok name := by
    intro id listed
    rcases sound.held_of_mem found listed with ⟨socket, held⟩
    exact ⟨socket.name, except_map_eq_ok.mpr ⟨socket, heldSocket_eq_ok.mpr held, rfl⟩⟩
  rcases exists_forall₂ all with ⟨taken, each⟩
  refine ⟨taken, mapM_eq_ok.mpr each, fun name member => ?_⟩
  rcases forall₂_of_mem_right each member with ⟨id, listed, answered⟩
  rcases except_map_eq_ok.mp answered with ⟨socket, held, named⟩
  exact ⟨id, listed, socket, heldSocket_eq_ok.mp held, named⟩

/-- A socket can be made under a name for which none is found. -/
theorem run_addSockets_absent (found : graph.component? owner = some node) {name : String}
    (absent : ∀ id ∈ node.sockets, ∀ socket, graph.socket? id = some socket → socket.name ≠ name) (side : Side)
    (internal : Bool) :
    (addSockets owner [name] (some side) internal).run graph =
      (.ok [graph.nextSocket], graph.withSocket owner internal name side) := by
  rcases sound.socketNames_answers found with ⟨taken, named, held⟩
  refine run_addSockets_one found named (fun member => ?_) side internal
  rcases held name member with ⟨id, listed, socket, socketHeld, same⟩
  exact absent id listed socket socketHeld same

theorem ensureInternal_answers (found : graph.component? owner = some node) (name : String) :
    ∃ id later, (ensureInternal owner name).run graph = (.ok id, later) := by
  rcases sound.socketNamed_answers found name with ⟨answer, asked, absent⟩
  unfold ensureInternal
  rw [run_query_bind asked]
  cases answer with
  | some id => exact ⟨id, graph, rfl⟩
  | none => exact ⟨_, _, run_bind_ok (sound.run_addSockets_absent found (absent rfl) .input true) _⟩

end SocketsSound

theorem atomic_ensureInternal (sound : SocketsSound graph) (owner : ComponentId) (name : String) :
    Atomic (ensureInternal owner name) graph := by
  cases found : graph.component? owner with
  | none =>
      refine .query_bind fun known asked => ?_
      rcases except_bind_eq_ok.mp asked with ⟨node, listed, -⟩
      rw [component_eq_ok, found] at listed
      cases listed
  | some node =>
      rcases sound.ensureInternal_answers found name with ⟨id, later, ran⟩
      exact .of_ok ran

/-- Asking for sockets one after the other always gives an answer, since the graph stays sound. -/
theorem Sound.ensureInternal_all {owner : ComponentId} {node : Component} (sound : Sound graph)
    (found : graph.component? owner = some node) (names : List String) :
    ∃ ids later, (names.mapM (ensureInternal owner)).run graph = (.ok ids, later) := by
  induction names generalizing graph node with
  | nil => exact ⟨[], graph, rfl⟩
  | cons name rest inductionHypothesis =>
      rcases sound.sockets.ensureInternal_answers found name with ⟨id, middle, first⟩
      rcases (ensureInternal_ok first).1 with ⟨grown, foundAfter, -⟩
      have soundAfter := sound.changes (keeps_ensureInternal owner name graph)
      rw [after_of_run first] at soundAfter
      rcases inductionHypothesis soundAfter foundAfter with ⟨ids, later, others⟩
      refine ⟨id :: ids, later, ?_⟩
      rw [List.mapM_cons, run_bind_ok first, run_bind_ok others]
      rfl

/-! ### Links -/

theorem run_connect_planned {viewer : ComponentId} {source target : Endpoint} {entries : List LinkEntry}
    (planned : graph.planLink viewer source target = .ok entries) :
    ∃ answer later, (connect viewer source target).run graph = (.ok answer, later) := by
  unfold connect
  rw [run_query_bind planned]
  cases planLink_ok planned with
  | bound id incoming space socket found side => exact ⟨_, _, run_append_bound found⟩
  | linked source target first second sourceFound targetFound apart =>
      exact ⟨_, _, run_append_link sourceFound targetFound⟩

theorem atomic_connect (graph : Graph) (viewer : ComponentId) (source target : Endpoint) :
    Atomic (connect viewer source target) graph :=
  .of_planned fun _ planned => run_connect_planned planned

/-- Of a link the check has found both entries; of a bound space there is only one. -/
theorem atomic_disconnect (graph : Graph) (viewer : ComponentId) (source target : Endpoint) :
    Atomic (disconnect viewer source target) graph := by
  refine .query_bind fun entries planned => .query_bind fun _ checked => ?_
  cases planLink_ok planned with
  | bound id incoming space socket found side =>
      rw [forM_cons]
      have removed := run_remove ⟨id, incoming, .space space⟩ found
      split at removed
      · exact .of_ok (run_bind_ok removed _)
      · exact .of_unchanged (run_bind_error removed _)
  | linked source target first second sourceFound targetFound apart =>
      rcases checkLinked_link_ok sourceFound targetFound checked with ⟨outgoing, incoming⟩
      exact .of_ok (run_remove_link sourceFound targetFound apart outgoing incoming)

/-! ### Components, hooks, methods and computations -/

theorem atomic_create (graph : Graph) (config : ComponentConfig) : Atomic (create config) graph := by
  unfold create
  by_cases scope : isScope config.scope = true
  · rw [if_pos scope]
    exact .of_ok rfl
  · rw [if_neg scope]
    exact .of_unchanged rfl

theorem atomic_setHook (graph : Graph) (id : ComponentId) (hook : Hook) : Atomic (setHook id hook) graph :=
  .query_bind fun _ found => .of_ok (run_editComponent (component_eq_ok.mp found) _)

theorem atomic_register (graph : Graph) (id : ComponentId) (method : Method) :
    Atomic (register id method) graph := by
  refine .query_bind fun node found => ?_
  cases node.method? method.name with
  | some other => exact .of_unchanged rfl
  | none => exact .of_ok (run_editComponent (component_eq_ok.mp found) _)

/-- A computation can be made as soon as it has been checked. -/
theorem Sound.run_compute_planned (sound : Sound graph) {owner : ComponentId} {inputs outputs : List String}
    {method : Option String} {options : Options} {plan : String × Settings × List SocketId}
    (planned : graph.planCompute owner inputs outputs method options = .ok plan) :
    ∃ id later, (compute owner inputs outputs method options).run graph = (.ok id, later) := by
  rw [compute_eq, run_query_bind planned]
  obtain ⟨name, settings, outputSockets⟩ := plan
  obtain ⟨plan⟩ := planCompute_ok planned
  rcases sound.ensureInternal_all plan.found inputs with ⟨sockets, later, ran⟩
  rcases Graph.ensureInternal_all inputs ran with ⟨listed, grown, length⟩
  rcases grown.component plan.node plan.found with ⟨node, found, -⟩
  have written : ∀ id ∈ outputSockets, Lists later owner id := by
    intro id member
    rcases forall₂_of_mem_right plan.resolved member with ⟨output, -, resolved⟩
    rcases socketNamed_ok resolved with ⟨other, otherFound, otherListed, socket, held, -⟩
    exact Lists.grown ⟨other, otherFound, otherListed, socket, held⟩ grown
  have bound := run_bindComputation ⟨name, owner, sockets, outputSockets, settings⟩ listed written found
  rw [← isEmpty_of_length_eq length] at bound
  exact ⟨_, _, (run_bind_ok ran _).trans bound⟩

theorem atomic_compute (sound : Sound graph) (owner : ComponentId) (inputs outputs : List String)
    (method : Option String) (options : Options) : Atomic (compute owner inputs outputs method options) graph :=
  .of_planned fun _ planned => sound.run_compute_planned planned

/-! ### Sub-components -/

/-- The component has the socket under this name. -/
def Names (graph : Graph) (owner : ComponentId) (name : String) (id : SocketId) : Prop :=
  ∃ socket, graph.socket? id = some socket ∧ socket.owner = owner ∧ socket.name = name

/-- Some socket of the component has the name. -/
def Shows (graph : Graph) (owner : ComponentId) (name : String) : Prop :=
  ∃ id socket, graph.socket? id = some socket ∧ socket.owner = owner ∧ socket.name = name

/-- A socket is found from everywhere by the name of its component and its own. -/
theorem Names.resolve (sound : SocketsSound graph) {viewer owner : ComponentId} {name : String} {id : SocketId}
    (names : graph.Names owner name id) {node : Component} (found : graph.component? viewer = some node) :
    graph.resolve viewer (.foreign owner name) none = .ok id := by
  rcases names with ⟨socket, held, rfl, rfl⟩
  refine except_bind_eq_ok.mpr ⟨node, component_eq_ok.mpr found, ?_⟩
  exact except_bind_eq_ok.mpr ⟨some id, sound.socketNamed held, rfl⟩

theorem SocketsSound.names_of_socketNamed (sound : SocketsSound graph) {owner : ComponentId} {name : String}
    {side : Option Side} {id : SocketId} (named : graph.socketNamed? owner name side = .ok (some id)) :
    graph.Names owner name id := by
  rcases socketNamed_ok named with ⟨node, found, listed, socket, held, same⟩
  rcases (sound.mem_sockets found).mp listed with ⟨_, again, owned⟩
  obtain rfl := Option.some.inj (held.symm.trans again)
  exact ⟨socket, held, owned, same⟩

/-- Sockets of different components can be linked. -/
theorem run_connect_sockets {viewer : ComponentId} {source target : SocketRef} {first second : SocketId}
    {left right : Socket} (atSource : graph.resolve viewer source none = .ok first)
    (atTarget : graph.resolve viewer target none = .ok second) (firstHeld : graph.socket? first = some left)
    (secondHeld : graph.socket? second = some right) (apart : left.owner ≠ right.owner) :
    (connect viewer (.socket source) (.socket target)).run graph = (.ok ⟨⟩, graph.withLink first second) := by
  have planned : graph.planLink viewer (.socket source) (.socket target) =
      .ok [⟨first, false, .socket second⟩, ⟨second, true, .socket first⟩] := by
    refine except_bind_eq_ok.mpr ⟨.socket first, except_map_eq_ok.mpr ⟨first, atSource, rfl⟩, ?_⟩
    refine except_bind_eq_ok.mpr ⟨.socket second, except_map_eq_ok.mpr ⟨second, atTarget, rfl⟩, ?_⟩
    refine except_bind_eq_ok.mpr ⟨left, heldSocket_eq_ok.mpr firstHeld, ?_⟩
    refine except_bind_eq_ok.mpr ⟨right, heldSocket_eq_ok.mpr secondHeld, ?_⟩
    rw [if_neg apart]
    rfl
  unfold connect
  rw [run_query_bind planned]
  exact run_append_link firstHeld secondHeld

/-- Components stay, and sockets keep their faces. -/
structure KeepsFaces (before later : Graph) : Prop where
  component : ∀ id node, before.component? id = some node → ∃ new, later.component? id = some new
  socket : ∀ id socket, before.socket? id = some socket →
    ∃ new, later.socket? id = some new ∧ new.face = socket.face

theorem KeepsFaces.trans {first second third : Graph} (left : KeepsFaces first second)
    (right : KeepsFaces second third) : KeepsFaces first third where
  component id node found := by
    rcases left.component id node found with ⟨between, foundBetween⟩
    exact right.component id between foundBetween
  socket id socket held := by
    rcases left.socket id socket held with ⟨between, heldBetween, same⟩
    rcases right.socket id between heldBetween with ⟨new, newHeld, sameAgain⟩
    exact ⟨new, newHeld, sameAgain.trans same⟩

theorem Names.kept {before later : Graph} {owner : ComponentId} {name : String} {id : SocketId}
    (names : before.Names owner name id) (kept : KeepsFaces before later) : later.Names owner name id := by
  rcases names with ⟨socket, held, owned, named⟩
  rcases kept.socket id socket held with ⟨new, newHeld, same⟩
  exact ⟨new, newHeld, (Socket.owner_of_face same).trans owned, (Socket.name_of_face same).trans named⟩

theorem Shows.kept {before later : Graph} {owner : ComponentId} {name : String} (shows : before.Shows owner name)
    (kept : KeepsFaces before later) : later.Shows owner name := by
  rcases shows with ⟨id, names⟩
  exact ⟨id, Names.kept names kept⟩

theorem keepsFaces_withSocket (graph : Graph) (owner : ComponentId) (internal : Bool) (name : String)
    (side : Side) : KeepsFaces graph (graph.withSocket owner internal name side) where
  component id node found := by
    rw [component?_withSocket, found]
    split
    · exact ⟨_, rfl⟩
    · exact ⟨node, rfl⟩
  socket _ socket held := ⟨socket, socket?_withSocket_of_some held owner internal name side, rfl⟩

theorem keepsFaces_withLink (graph : Graph) (source target : SocketId) :
    KeepsFaces graph (graph.withLink source target) where
  component _ node found := ⟨node, found⟩
  socket id socket held := by
    have faces : ((graph.withLink source target).socket? id).map Socket.face = (graph.socket? id).map Socket.face :=
      view_withLink graph (fun _ _ _ => rfl) source target id
    rcases exists_of_map_eq faces.symm held with ⟨new, newHeld, same⟩
    exact ⟨new, newHeld, same.symm⟩

/-- A socket of a child linked with one of the parent: fed by it, or feeding it. -/
def withShown (graph : Graph) (side : Side) (inner outer : SocketId) : Graph :=
  match side with
  | .input => graph.withLink outer inner
  | .output => graph.withLink inner outer

theorem keepsFaces_withShown (graph : Graph) (side : Side) (inner outer : SocketId) :
    KeepsFaces graph (graph.withShown side inner outer) := by
  cases side with
  | input => exact keepsFaces_withLink graph outer inner
  | output => exact keepsFaces_withLink graph inner outer

/-- What is made of an exposed socket: a link with the socket that the parent has under the name, or with a new one
where it has none. -/
inductive Exposes (graph : Graph) (parent child : ComponentId) (plan : Exposed) (inner : SocketId) :
    SocketId → Graph → Prop where
  | linked (outer : SocketId) (below : graph.Names child plan.socket inner)
      (above : graph.Names parent plan.exposed outer) :
      Exposes graph parent child plan inner outer (graph.withShown plan.side inner outer)
  | made (below : graph.Names child plan.socket inner) (free : ∀ id, ¬ graph.Names parent plan.exposed id) :
      Exposes graph parent child plan inner graph.nextSocket
        ((graph.withSocket parent false plan.exposed plan.side).withShown plan.side inner graph.nextSocket)

theorem Exposes.keepsFaces {parent child : ComponentId} {plan : Exposed} {inner outer : SocketId} {later : Graph}
    (exposes : Exposes graph parent child plan inner outer later) : KeepsFaces graph later := by
  cases exposes with
  | linked outer below above => exact keepsFaces_withShown graph plan.side inner outer
  | made below free =>
      exact (keepsFaces_withSocket graph parent false plan.exposed plan.side).trans (keepsFaces_withShown _ _ _ _)

/-- The link between an exposed socket and the socket of the parent can be made in either direction. -/
theorem run_link_exposed (sound : SocketsSound graph) {parent child : ComponentId} {node : Component}
    (found : graph.component? parent = some node) (apart : parent ≠ child) (plan : Exposed) {inner outer : SocketId}
    (below : graph.Names child plan.socket inner) (above : graph.Names parent plan.exposed outer) :
    (match plan.side with
      | .input => connect parent (.socket (.named plan.exposed)) (.socket (.foreign child plan.socket))
      | .output => connect parent (.socket (.foreign child plan.socket)) (.socket (.named plan.exposed))).run graph =
        (.ok ⟨⟩, graph.withShown plan.side inner outer) := by
  have atOuter := above.resolve sound found
  have atInner := below.resolve sound found
  rcases above with ⟨outerSocket, outerHeld, rfl, -⟩
  rcases below with ⟨innerSocket, innerHeld, rfl, -⟩
  cases plan.side with
  | input => exact run_connect_sockets atOuter atInner outerHeld innerHeld apart
  | output => exact run_connect_sockets atInner atOuter innerHeld outerHeld apart.symm

/-- A socket that the child shows can be exposed, whether the parent has a socket of the name or not. -/
theorem Sound.run_expose (sound : Sound graph) {parent child : ComponentId} {node : Component}
    (found : graph.component? parent = some node) (apart : parent ≠ child) {plan : Exposed} {inner : SocketId}
    (below : graph.Names child plan.socket inner) :
    ∃ outer later, (expose parent child plan).run graph = (.ok ⟨⟩, later) ∧
      Exposes graph parent child plan inner outer later := by
  rcases sound.sockets.socketNamed_answers found plan.exposed with ⟨answer, asked, absent⟩
  unfold expose
  rw [run_query_bind asked]
  cases answer with
  | some outer =>
      have above := sound.sockets.names_of_socketNamed asked
      exact ⟨outer, _, run_link_exposed sound.sockets found apart plan below above, .linked outer below above⟩
  | none =>
      have made := sound.sockets.run_addSockets_absent found (absent rfl) plan.side false
      have soundAfter := sound.changes (keeps_addSockets parent [plan.exposed] (some plan.side) false graph)
      rw [after_of_run made] at soundAfter
      have kept := keepsFaces_withSocket graph parent false plan.exposed plan.side
      rcases kept.component parent node found with ⟨grown, foundAfter⟩
      have above : (graph.withSocket parent false plan.exposed plan.side).Names parent plan.exposed graph.nextSocket :=
        ⟨_, by rw [socket?_withSocket, if_pos rfl], rfl, rfl⟩
      have free : ∀ id, ¬ graph.Names parent plan.exposed id := fun id ⟨socket, held, owned, named⟩ =>
        absent rfl id ((sound.sockets.mem_sockets found).mpr ⟨socket, held, owned⟩) socket held named
      have linked := run_link_exposed soundAfter.sockets foundAfter apart plan (below.kept kept) above
      exact ⟨_, _, (run_bind_ok made _).trans linked, .made below free⟩

theorem Sound.run_exposeAll (sound : Sound graph) {parent child : ComponentId} {node : Component}
    (found : graph.component? parent = some node) (apart : parent ≠ child) {plans : List Exposed}
    (inner : ∀ plan ∈ plans, graph.Shows child plan.socket) :
    ∃ later, (plans.forM (expose parent child)).run graph = (.ok ⟨⟩, later) := by
  induction plans generalizing graph node with
  | nil => exact ⟨graph, rfl⟩
  | cons first rest inductionHypothesis =>
      rcases inner first List.mem_cons_self with ⟨below, names⟩
      rcases sound.run_expose found apart names with ⟨_, middle, exposed, exposes⟩
      have kept := exposes.keepsFaces
      have soundAfter := sound.changes (keeps_expose parent child first graph)
      rw [after_of_run exposed] at soundAfter
      rcases kept.component parent node found with ⟨grown, foundAfter⟩
      rcases inductionHypothesis soundAfter foundAfter fun plan member =>
        (inner plan (List.mem_cons_of_mem first member)).kept kept with ⟨later, others⟩
      exact ⟨later, by rw [forM_cons, run_bind_ok exposed, others]⟩

/-- The sockets that an addition exposes have been found at the child. -/
theorem planAdd_shows (sound : SocketsSound graph) {parent child : ComponentId} {exposure : Exposure} {name : String}
    {exposed : List Exposed} (planned : graph.planAdd parent child exposure = .ok (name, exposed)) :
    ∀ plan ∈ exposed, graph.Shows child plan.socket := by
  intro plan member
  rcases planAdd_checked planned with ⟨-, selected, -, each⟩
  rcases forall₂_of_mem_right each member with ⟨entry, -, id, socket, named, -, rfl⟩
  exact ⟨id, sound.names_of_socketNamed named⟩

namespace AddPlan

variable {parent child : ComponentId} {name : String} (plan : AddPlan graph parent child name)
include plan

theorem apart : parent ≠ child := by
  rcases (Ancestry.of_climb plan.climbed).head with ⟨rest, chain⟩
  rintro rfl
  exact plan.outside (by rw [chain]; exact List.mem_cons_self)

theorem sound_withChild (sound : Sound graph) : Sound (graph.withChild parent child name) :=
  plan.named ▸ sound.change (.child parent child plan.parentNode plan.childNode plan.chain plan.parentFound
    plan.childFound plan.free plan.fresh plan.climbed plan.outside)

theorem found_withChild : ∃ node, (graph.withChild parent child name).component? parent = some node := by
  rw [component?_withChild, plan.parentFound]
  exact ⟨_, rfl⟩

end AddPlan

/-- A component can be added as soon as everything has been checked. -/
theorem Sound.run_add_planned (sound : Sound graph) {parent child : ComponentId} {exposure : Exposure}
    {answer : String × List Exposed} (planned : graph.planAdd parent child exposure = .ok answer) :
    ∃ done later, (add parent child exposure).run graph = (.ok done, later) := by
  unfold add
  rw [run_query_bind planned]
  obtain ⟨name, exposed⟩ := answer
  have shown : ∀ plan ∈ exposed, (graph.withChild parent child name).Shows child plan.socket :=
    planAdd_shows sound.sockets planned
  obtain ⟨plan, -⟩ := planAdd_checked planned
  have attached := run_attach plan.parentFound plan.childFound name (exposed.forM (expose parent child))
  rcases plan.found_withChild with ⟨node, found⟩
  rcases (plan.sound_withChild sound).run_exposeAll found plan.apart shown with ⟨later, linked⟩
  exact ⟨_, later, attached.trans linked⟩

theorem atomic_add (sound : Sound graph) (parent child : ComponentId) (exposure : Exposure) :
    Atomic (add parent child exposure) graph :=
  .of_planned fun _ planned => sound.run_add_planned planned

/-- An operation on the structure of a reachable graph that answers with an error has changed nothing: whatever
it does after its first edit succeeds in every sound graph. -/
theorem Reachable.unchanged_of_error (reachable : graph.Reachable) {step : GraphM α}
    (structural : IsStructural step) {error : Error} (failed : outcome step graph = .error error) :
    after step graph = graph := by
  have sound := reachable.sound
  have atomic : Atomic step graph := by
    cases structural with
    | create config => exact atomic_create graph config
    | addSockets owner names side internal => exact atomic_addSockets graph owner names side internal
    | defineInputs owner names space => exact atomic_defineInputs graph owner names space
    | defineOutputs owner names => exact atomic_addSockets graph owner names (some .output) false
    | ensureInternal owner name => exact atomic_ensureInternal sound.sockets owner name
    | connect viewer source target => exact atomic_connect graph viewer source target
    | disconnect viewer source target => exact atomic_disconnect graph viewer source target
    | register id method => exact atomic_register graph id method
    | setHook id hook => exact atomic_setHook graph id hook
    | compute owner inputs outputs method options => exact atomic_compute sound owner inputs outputs method options
    | add parent child exposure => exact atomic_add sound parent child exposure
  exact atomic error failed

/-- A computation that lacks one of its outputs leaves no internal socket for its input either. -/
theorem unchanged_of_error_doubled :
    outcome (compute ⟨0⟩ ["fresh"] ["out", "missing"] none {}) (after doubled {}) =
        .error (.socketNotFound "source" "missing" (some .output)) ∧
      after (compute ⟨0⟩ ["fresh"] ["out", "missing"] none {}) (after doubled {}) = after doubled {} :=
  ⟨rfl, Reachable.unchanged_of_error reachable_doubled (.compute ⟨0⟩ ["fresh"] ["out", "missing"] none {}) rfl⟩

end Graph

end Wiring
