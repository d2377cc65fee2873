import Mathlib.Data.List.Count
import Mathlib.Logic.Function.Basic
import Wiring.Proofs.Steps
import Wiring.Graph.Links

/-!
Contract: looking things up in a graph, and what an edit of one node or socket does to the lookups.

Owns: `component?` beside `socket?` and `computation?`; the readings of the failing lookups; the edits as
functions on graphs; the lists of everything in an arena that has some property, in the order of creation;
and the entries of connection lists by kind.
-/

namespace Wiring

/-! ### Entries of connection lists by kind -/

def Connection.asSocket? : Connection → Option SocketId
  | .socket id => some id
  | _ => none

@[simp] theorem Connection.asSocket?_socket (id : SocketId) : (Connection.socket id).asSocket? = some id := rfl

@[simp] theorem Connection.asSocket?_space (space : Space) : (Connection.space space).asSocket? = none := rfl

@[simp] theorem Connection.asSocket?_computation (id : ComputationId) :
    (Connection.computation id).asSocket? = none := rfl

@[simp] theorem Connection.asComputation?_socket (id : SocketId) :
    (Connection.socket id).asComputation? = none := rfl

@[simp] theorem Connection.asComputation?_space (space : Space) :
    (Connection.space space).asComputation? = none := rfl

@[simp] theorem Connection.asComputation?_computation (id : ComputationId) :
    (Connection.computation id).asComputation? = some id := rfl

@[simp] theorem Connection.asSpace?_socket (id : SocketId) : (Connection.socket id).asSpace? = none := rfl

@[simp] theorem Connection.asSpace?_space (space : Space) : (Connection.space space).asSpace? = some space := rfl

@[simp] theorem Connection.asSpace?_computation (id : ComputationId) :
    (Connection.computation id).asSpace? = none := rfl

theorem Connection.asSocket?_eq_some {connection : Connection} {id : SocketId} :
    connection.asSocket? = some id ↔ connection = .socket id := by
  cases connection <;> simp [asSocket?]

theorem Connection.asComputation?_eq_some {connection : Connection} {id : ComputationId} :
    connection.asComputation? = some id ↔ connection = .computation id := by
  cases connection <;> simp [asComputation?]

theorem Connection.asSpace?_eq_some {connection : Connection} {bound : Space} :
    connection.asSpace? = some bound ↔ connection = .space bound := by
  cases connection <;> simp [asSpace?]

/-- The sockets among the entries of a connection list, in order. -/
def socketEntries (connections : List Connection) : List SocketId :=
  connections.filterMap Connection.asSocket?

/-- The computations among the entries of a connection list, in order. -/
def computationEntries (connections : List Connection) : List ComputationId :=
  connections.filterMap Connection.asComputation?

/-- The spaces among the entries of a connection list, in order. -/
def spaceEntries (connections : List Connection) : List Space :=
  connections.filterMap Connection.asSpace?

theorem mem_socketEntries {connections : List Connection} {id : SocketId} :
    id ∈ socketEntries connections ↔ .socket id ∈ connections := by
  simp only [socketEntries, List.mem_filterMap, Connection.asSocket?_eq_some, exists_eq_right]

theorem mem_computationEntries {connections : List Connection} {id : ComputationId} :
    id ∈ computationEntries connections ↔ .computation id ∈ connections := by
  simp only [computationEntries, List.mem_filterMap, Connection.asComputation?_eq_some, exists_eq_right]

theorem mem_spaceEntries {connections : List Connection} {bound : Space} :
    bound ∈ spaceEntries connections ↔ .space bound ∈ connections := by
  simp only [spaceEntries, List.mem_filterMap, Connection.asSpace?_eq_some, exists_eq_right]

theorem socketEntries_append (left right : List Connection) :
    socketEntries (left ++ right) = socketEntries left ++ socketEntries right :=
  List.filterMap_append

theorem computationEntries_append (left right : List Connection) :
    computationEntries (left ++ right) = computationEntries left ++ computationEntries right :=
  List.filterMap_append

theorem spaceEntries_append (left right : List Connection) :
    spaceEntries (left ++ right) = spaceEntries left ++ spaceEntries right :=
  List.filterMap_append

theorem computationEntries_replicate (count : Nat) (id : ComputationId) :
    computationEntries (List.replicate count (.computation id)) = List.replicate count id :=
  List.filterMap_replicate_of_some rfl

theorem socketEntries_replicate (count : Nat) (id : ComputationId) :
    socketEntries (List.replicate count (.computation id)) = [] :=
  List.filterMap_replicate_of_none rfl

theorem spaceEntries_replicate (count : Nat) (id : ComputationId) :
    spaceEntries (List.replicate count (.computation id)) = [] :=
  List.filterMap_replicate_of_none rfl

theorem socketEntries_links (ids : List SocketId) : socketEntries (ids.map .socket) = ids :=
  List.filterMap_map.trans List.filterMap_some

theorem computationEntries_links (ids : List SocketId) : computationEntries (ids.map .socket) = [] :=
  List.filterMap_map.trans (List.filterMap_eq_nil_iff.mpr fun _ _ => rfl)

theorem spaceEntries_links (ids : List SocketId) : spaceEntries (ids.map .socket) = [] :=
  List.filterMap_map.trans (List.filterMap_eq_nil_iff.mpr fun _ _ => rfl)

/-! #### Removing an entry -/

/-- Equal entries are of one kind. -/
theorem Connection.kind_of_same {left right : Connection} (same : left.same right = true) :
    left.asComputation?.isSome = right.asComputation?.isSome ∧
      left.asSocket?.isSome = right.asSocket?.isSome := by
  cases left <;> cases right <;> first | exact ⟨rfl, rfl⟩ | cases same

/-- Removing an entry of another kind. -/
theorem filterMap_eraseFirst {α : Type} {view : Connection → Option α} {connection : Connection}
    (other : ∀ entry : Connection, entry.same connection = true → view entry = none)
    (connections : List Connection) :
    (Graph.eraseFirst connection connections).filterMap view = connections.filterMap view := by
  induction connections with
  | nil => rfl
  | cons first rest inductionHypothesis =>
      rw [Graph.eraseFirst]
      split
      · next same => rw [List.filterMap_cons_none (other first same)]
      · rw [List.filterMap_cons, List.filterMap_cons, inductionHypothesis]

theorem computationEntries_eraseFirst {connection : Connection} (other : connection.asComputation? = none)
    (connections : List Connection) :
    computationEntries (Graph.eraseFirst connection connections) = computationEntries connections := by
  refine filterMap_eraseFirst (fun entry same => ?_) connections
  have kind := (Connection.kind_of_same same).1
  rw [other] at kind
  exact Option.not_isSome_iff_eq_none.mp (kind ▸ Bool.false_ne_true)

theorem socketEntries_eraseFirst_space (space : Space) (connections : List Connection) :
    socketEntries (Graph.eraseFirst (.space space) connections) = socketEntries connections := by
  refine filterMap_eraseFirst (fun entry same => ?_) connections
  have kind := (Connection.kind_of_same same).2
  exact Option.not_isSome_iff_eq_none.mp (kind ▸ Bool.false_ne_true)

theorem socketEntries_eraseFirst_socket (id : SocketId) (connections : List Connection) :
    socketEntries (Graph.eraseFirst (.socket id) connections) = (socketEntries connections).erase id := by
  induction connections with
  | nil => rfl
  | cons first rest inductionHypothesis =>
      rw [Graph.eraseFirst]
      cases first with
      | socket other =>
          by_cases same : other = id
          · subst same
            simp [Connection.same, socketEntries]
          · rw [if_neg (by simpa [Connection.same] using same)]
            simp only [socketEntries, List.filterMap_cons, Connection.asSocket?_socket] at inductionHypothesis ⊢
            rw [inductionHypothesis, List.erase_cons_tail (by simpa using same)]
      | space other =>
          rw [if_neg (by simp [Connection.same])]
          exact inductionHypothesis
      | computation other =>
          rw [if_neg (by simp [Connection.same])]
          exact inductionHypothesis

theorem eraseFirst_sublist (connection : Connection) (connections : List Connection) :
    (Graph.eraseFirst connection connections).Sublist connections := by
  induction connections with
  | nil => exact .slnil
  | cons first rest inductionHypothesis =>
      rw [Graph.eraseFirst]
      split
      · exact List.sublist_cons_self first rest
      · exact inductionHypothesis.cons_cons first

namespace Graph

/-! ### Lookups -/

def component? (graph : Graph) (id : ComponentId) : Option Component :=
  graph.components[id.index]?

theorem component_eq_ok {graph : Graph} {id : ComponentId} {node : Component} :
    graph.component id = .ok node ↔ graph.component? id = some node := by
  unfold component component?
  cases graph.components[id.index]? <;> simp

theorem heldComponent_eq_ok {graph : Graph} {id : ComponentId} {node : Component} :
    graph.heldComponent id = .ok node ↔ graph.component? id = some node := by
  unfold heldComponent component?
  cases graph.components[id.index]? <;> simp

/-- The sockets that a computation reads; none if there is no such computation. -/
def inputsOf (graph : Graph) (id : ComputationId) : List SocketId :=
  ((graph.computation? id).map Computation.inputs).getD []

/-- The sockets that a computation writes to. -/
def outputsOf (graph : Graph) (id : ComputationId) : List SocketId :=
  ((graph.computation? id).map Computation.outputs).getD []

theorem heldSocket_eq_ok {graph : Graph} {id : SocketId} {socket : Socket} :
    graph.heldSocket id = .ok socket ↔ graph.socket? id = some socket := by
  unfold heldSocket socket?
  cases graph.sockets[id.index]? <;> simp

theorem heldComputation_eq_ok {graph : Graph} {id : ComputationId} {computation : Computation} :
    graph.heldComputation id = .ok computation ↔ graph.computation? id = some computation := by
  unfold heldComputation computation?
  cases graph.computations[id.index]? <;> simp

/-- Graphs are the same if their parts are. -/
theorem ext_parts {left right : Graph} (backend : left.backend = right.backend)
    (component : ∀ id, left.component? id = right.component? id) (socket : ∀ id, left.socket? id = right.socket? id)
    (computations : left.computations = right.computations) : left = right := by
  have components : left.components = right.components := by
    apply Array.ext_getElem?
    exact fun position => component ⟨position⟩
  have sockets : left.sockets = right.sockets := by
    apply Array.ext_getElem?
    exact fun position => socket ⟨position⟩
  cases left
  cases right
  simp only at backend components sockets computations
  rw [backend, components, sockets, computations]

/-! ### Edits as functions -/

def changeComponent (graph : Graph) (id : ComponentId) (change : Component → Component) : Graph :=
  { graph with components := graph.components.modify id.index change }

def changeSocket (graph : Graph) (id : SocketId) (change : Socket → Socket) : Graph :=
  { graph with sockets := graph.sockets.modify id.index change }

def pushComponent (graph : Graph) (node : Component) : Graph :=
  { graph with components := graph.components.push node }

def pushSocket (graph : Graph) (socket : Socket) : Graph :=
  { graph with sockets := graph.sockets.push socket }

def pushComputation (graph : Graph) (computation : Computation) : Graph :=
  { graph with computations := graph.computations.push computation }

/-- The identifier that the next component gets. -/
def nextComponent (graph : Graph) : ComponentId :=
  ⟨graph.components.size⟩

def nextSocket (graph : Graph) : SocketId :=
  ⟨graph.sockets.size⟩

def nextComputation (graph : Graph) : ComputationId :=
  ⟨graph.computations.size⟩

theorem run_editComponent {graph : Graph} {id : ComponentId} {node : Component}
    (found : graph.component? id = some node) (change : Component → Component) :
    (editComponent id change).run graph = (.ok ⟨⟩, graph.changeComponent id change) := by
  unfold editComponent
  rw [run_query_bind (heldComponent_eq_ok.mpr found)]
  rfl

theorem run_editSocket {graph : Graph} {id : SocketId} {socket : Socket}
    (found : graph.socket? id = some socket) (change : Socket → Socket) :
    (editSocket id change).run graph = (.ok ⟨⟩, graph.changeSocket id change) := by
  unfold editSocket
  rw [run_query_bind (heldSocket_eq_ok.mpr found)]
  rfl

/-! ### Lookups after edits -/

section AfterEdits

variable (graph : Graph)

theorem component?_changeComponent (id other : ComponentId) (change : Component → Component) :
    (graph.changeComponent id change).component? other =
      if id = other then (graph.component? other).map change else graph.component? other := by
  unfold component? changeComponent
  rw [Array.getElem?_modify]
  exact if_congr (by cases id; cases other; simp) rfl rfl

theorem socket?_changeSocket (id other : SocketId) (change : Socket → Socket) :
    (graph.changeSocket id change).socket? other =
      if id = other then (graph.socket? other).map change else graph.socket? other := by
  unfold socket? changeSocket
  rw [Array.getElem?_modify]
  exact if_congr (by cases id; cases other; simp) rfl rfl

theorem component?_pushComponent (node : Component) (other : ComponentId) :
    (graph.pushComponent node).component? other =
      if other = graph.nextComponent then some node else graph.component? other := by
  unfold component? pushComponent nextComponent
  rw [Array.getElem?_push]
  exact if_congr (by cases other; simp) rfl rfl

theorem socket?_pushSocket (socket : Socket) (other : SocketId) :
    (graph.pushSocket socket).socket? other =
      if other = graph.nextSocket then some socket else graph.socket? other := by
  unfold socket? pushSocket nextSocket
  rw [Array.getElem?_push]
  exact if_congr (by cases other; simp) rfl rfl

theorem computation?_pushComputation (computation : Computation) (other : ComputationId) :
    (graph.pushComputation computation).computation? other =
      if other = graph.nextComputation then some computation else graph.computation? other := by
  unfold computation? pushComputation nextComputation
  rw [Array.getElem?_push]
  exact if_congr (by cases other; simp) rfl rfl

@[simp] theorem socket?_changeComponent (id : ComponentId) (change : Component → Component)
    (other : SocketId) : (graph.changeComponent id change).socket? other = graph.socket? other := rfl

@[simp] theorem computation?_changeComponent (id : ComponentId) (change : Component → Component)
    (other : ComputationId) :
    (graph.changeComponent id change).computation? other = graph.computation? other := rfl

@[simp] theorem component?_changeSocket (id : SocketId) (change : Socket → Socket) (other : ComponentId) :
    (graph.changeSocket id change).component? other = graph.component? other := rfl

@[simp] theorem computation?_changeSocket (id : SocketId) (change : Socket → Socket)
    (other : ComputationId) :
    (graph.changeSocket id change).computation? other = graph.computation? other := rfl

@[simp] theorem socket?_pushComponent (node : Component) (other : SocketId) :
    (graph.pushComponent node).socket? other = graph.socket? other := rfl

@[simp] theorem computation?_pushComponent (node : Component) (other : ComputationId) :
    (graph.pushComponent node).computation? other = graph.computation? other := rfl

@[simp] theorem component?_pushSocket (socket : Socket) (other : ComponentId) :
    (graph.pushSocket socket).component? other = graph.component? other := rfl

@[simp] theorem computation?_pushSocket (socket : Socket) (other : ComputationId) :
    (graph.pushSocket socket).computation? other = graph.computation? other := rfl

@[simp] theorem component?_pushComputation (computation : Computation) (other : ComponentId) :
    (graph.pushComputation computation).component? other = graph.component? other := rfl

@[simp] theorem socket?_pushComputation (computation : Computation) (other : SocketId) :
    (graph.pushComputation computation).socket? other = graph.socket? other := rfl

theorem component?_nextComponent : graph.component? graph.nextComponent = none := by
  simp [component?, nextComponent]

theorem socket?_nextSocket : graph.socket? graph.nextSocket = none := by
  simp [socket?, nextSocket]

theorem computation?_nextComputation : graph.computation? graph.nextComputation = none := by
  simp [computation?, nextComputation]

variable {graph}

theorem ne_nextComponent {id : ComponentId} {node : Component} (found : graph.component? id = some node) :
    id ≠ graph.nextComponent := by
  rintro rfl
  cases found.symm.trans (component?_nextComponent graph)

theorem ne_nextSocket {id : SocketId} {socket : Socket} (held : graph.socket? id = some socket) :
    id ≠ graph.nextSocket := by
  rintro rfl
  cases held.symm.trans (socket?_nextSocket graph)

theorem ne_nextComputation {id : ComputationId} {computation : Computation}
    (found : graph.computation? id = some computation) : id ≠ graph.nextComputation := by
  rintro rfl
  cases found.symm.trans (computation?_nextComputation graph)

/-- What is found once something is new is the new thing itself, or something found before. -/
theorem added_eq_some {α : Type} {isNew : Prop} [Decidable isNew] {item found : α} {before : Option α}
    (unknown : isNew → before = none) :
    (if isNew then some item else before) = some found ↔ (isNew ∧ found = item) ∨ before = some found := by
  by_cases new : isNew
  · simp [new, unknown new, eq_comm]
  · simp [new]

theorem component?_pushComponent_eq_some {node found : Component} {id : ComponentId} :
    (graph.pushComponent node).component? id = some found ↔
      (id = graph.nextComponent ∧ found = node) ∨ graph.component? id = some found := by
  rw [component?_pushComponent]
  exact added_eq_some fun new => new ▸ component?_nextComponent graph

theorem socket?_pushSocket_eq_some {socket found : Socket} {id : SocketId} :
    (graph.pushSocket socket).socket? id = some found ↔
      (id = graph.nextSocket ∧ found = socket) ∨ graph.socket? id = some found := by
  rw [socket?_pushSocket]
  exact added_eq_some fun new => new ▸ socket?_nextSocket graph

theorem computation?_pushComputation_eq_some {computation found : Computation} {id : ComputationId} :
    (graph.pushComputation computation).computation? id = some found ↔
      (id = graph.nextComputation ∧ found = computation) ∨ graph.computation? id = some found := by
  rw [computation?_pushComputation]
  exact added_eq_some fun new => new ▸ computation?_nextComputation graph

end AfterEdits

/-! ### The marks that builds leave -/

def spaceOf (graph : Graph) (id : SocketId) : Option Space :=
  (graph.socket? id).bind Socket.space

def isComplete (graph : Graph) (id : ComponentId) : Bool :=
  ((graph.component? id).map Component.complete).getD false

def deferredOf (graph : Graph) (id : ComponentId) : List SocketId :=
  ((graph.component? id).map Component.deferred).getD []

section Marks

variable {graph : Graph}

theorem spaceOf_eq {id : SocketId} {socket : Socket} (held : graph.socket? id = some socket) :
    graph.spaceOf id = socket.space := by
  rw [spaceOf, held]
  rfl

theorem isComplete_eq {id : ComponentId} {node : Component} (found : graph.component? id = some node) :
    graph.isComplete id = node.complete := by
  rw [isComplete, found]
  rfl

theorem deferredOf_eq {id : ComponentId} {node : Component} (found : graph.component? id = some node) :
    graph.deferredOf id = node.deferred := by
  rw [deferredOf, found]
  rfl

theorem spaceOf_changeSocket {id : SocketId} {socket : Socket} (held : graph.socket? id = some socket)
    (change : Socket → Socket) :
    (graph.changeSocket id change).spaceOf = Function.update graph.spaceOf id (change socket).space := by
  funext other
  rw [spaceOf, socket?_changeSocket]
  by_cases same : id = other
  · subst same
    rw [if_pos rfl, held, Function.update_self]
    rfl
  · rw [if_neg same, Function.update_of_ne (Ne.symm same)]
    rfl

/-- What is read off a component differs at most there. -/
theorem view_changeComponent {α : Type} (view : Component → α) (missing : α) {id : ComponentId} {node : Component}
    (found : graph.component? id = some node) (change : Component → Component) :
    (fun other => (((graph.changeComponent id change).component? other).map view).getD missing) =
      Function.update (fun other => ((graph.component? other).map view).getD missing) id (view (change node)) := by
  funext other
  rw [component?_changeComponent]
  by_cases same : id = other
  · subst same
    rw [if_pos rfl, found, Function.update_self]
    rfl
  · rw [if_neg same, Function.update_of_ne (Ne.symm same)]

theorem isComplete_changeComponent {id : ComponentId} {node : Component}
    (found : graph.component? id = some node) (change : Component → Component) :
    (graph.changeComponent id change).isComplete = Function.update graph.isComplete id (change node).complete :=
  view_changeComponent Component.complete false found change

theorem deferredOf_changeComponent {id : ComponentId} {node : Component}
    (found : graph.component? id = some node) (change : Component → Component) :
    (graph.changeComponent id change).deferredOf = Function.update graph.deferredOf id (change node).deferred :=
  view_changeComponent Component.deferred [] found change

end Marks

end Graph

end Wiring
