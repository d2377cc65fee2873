import Wiring.Component
import Wiring.Store

/-!
Contract: the graph, and the two ways to work with it.

A graph owns all components, sockets and computations of one assembly and the backend of its variables. A
query reads it and may fail. A `GraphM` step edits it and may fail as well: edits made before the failure
stay, so that an operation leaves no trace of a failure only where that has been shown.

An identifier from outside is looked up with `component`; one that the graph itself has stored is looked up
with the `held` functions, whose failure would be a flaw of the graph.
-/

namespace Wiring

structure Graph where
  backend : Backend := {}
  components : Array Component := #[]
  sockets : Array Socket := #[]
  computations : Array Computation := #[]

/-- Edits of a graph that stay even if a later one fails. -/
abbrev GraphM := ExceptT Error (StateM Graph)

/-- A question to the graph as a step that edits nothing. -/
def query (question : Graph → Except Error α) : GraphM α :=
  ExceptT.mk fun graph => (question graph, graph)

namespace Graph

def component (graph : Graph) (id : ComponentId) : Except Error Component :=
  match graph.components[id.index]? with
  | some component => .ok component
  | none => .error (.componentNotFound id)

def socket? (graph : Graph) (id : SocketId) : Option Socket :=
  graph.sockets[id.index]?

def computation? (graph : Graph) (id : ComputationId) : Option Computation :=
  graph.computations[id.index]?

def heldComponent (graph : Graph) (id : ComponentId) : Except Error Component :=
  match graph.components[id.index]? with
  | some component => .ok component
  | none => .error (.dangling id.describe)

def heldSocket (graph : Graph) (id : SocketId) : Except Error Socket :=
  match graph.sockets[id.index]? with
  | some socket => .ok socket
  | none => .error (.dangling id.describe)

def heldComputation (graph : Graph) (id : ComputationId) : Except Error Computation :=
  match graph.computations[id.index]? with
  | some computation => .ok computation
  | none => .error (.dangling ("ComputationId#" ++ toString id.index))

/-! ### Edits -/

def editComponent (id : ComponentId) (change : Component → Component) : GraphM Unit := do
  let _ ← query (·.heldComponent id)
  modify fun graph => { graph with components := graph.components.modify id.index change }

def editSocket (id : SocketId) (change : Socket → Socket) : GraphM Unit := do
  let _ ← query (·.heldSocket id)
  modify fun graph => { graph with sockets := graph.sockets.modify id.index change }

/-- Lets the backend act; its new state stays if it succeeds. -/
def useBackend (action : Backend → Except Error (α × Backend)) : GraphM α := do
  let (answer, backend) ← query fun graph => action graph.backend
  modify fun graph => { graph with backend }
  return answer

/-! ### Names and the tree of components -/

def socketNames (graph : Graph) (ids : List SocketId) : Except Error (List String) :=
  ids.mapM fun id => Socket.name <$> graph.heldSocket id

/-- `id` and its ancestors, from below. The fuel bounds the length of a chain of parents. -/
def climb (graph : Graph) : Nat → ComponentId → Except Error (List ComponentId)
  | 0, id => .error (.dangling id.describe)
  | fuel + 1, id => do
      let component ← graph.heldComponent id
      match component.parent with
      | none => return [id]
      | some parent => (id :: ·) <$> graph.climb fuel parent

/-- A component and its ancestors up to one without a parent. A chain without repetition is no longer than
the number of components. -/
def lineage (graph : Graph) (id : ComponentId) : Except Error (List ComponentId) :=
  graph.climb graph.components.size id

/-- The components that wait in the list, each followed later by its children. -/
def descend (graph : Graph) : Nat → List ComponentId → Except Error (List ComponentId)
  | _, [] => .ok []
  | 0, id :: _ => .error (.dangling id.describe)
  | fuel + 1, id :: waiting => do
      let component ← graph.heldComponent id
      (id :: ·) <$> graph.descend fuel (waiting ++ Keyed.values component.children)

/-- A component and everything below it, parents before children. -/
def subtree (graph : Graph) (id : ComponentId) : Except Error (List ComponentId) := do
  let _ ← graph.component id
  graph.descend graph.components.size [id]

/-- The scopes from the root down to the component, without the empty ones. -/
def fullScope (graph : Graph) (id : ComponentId) : Except Error String := do
  let _ ← graph.component id
  let chain ← graph.lineage id
  let scopes ← chain.reverse.mapM fun id => Component.scope <$> graph.heldComponent id
  return String.intercalate "/" (scopes.filter fun scope => scope ≠ "")

/-- The component with its interface in one line. -/
def describe (graph : Graph) (id : ComponentId) : Except Error String := do
  let component ← graph.component id
  let inputs ← graph.socketNames component.inputs
  let outputs ← graph.socketNames component.outputs
  return "Component('" ++ component.name ++ "' in=[" ++ String.intercalate ", " inputs ++ "] out=[" ++
    String.intercalate ", " outputs ++ "])"

end Graph

end Wiring
