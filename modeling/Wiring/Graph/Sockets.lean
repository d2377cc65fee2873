import Wiring.Graph.Basic

/-!
Contract: creating components and sockets, and finding sockets by name.

A call that adds several sockets first checks all of their names, so it adds all of them or none. Names are
unique over the three lists of a component; finding a socket looks through the lists that the requested side
admits.
-/

namespace Wiring.Graph

/-- Creates a component without parent. -/
def create (config : ComponentConfig) : GraphM ComponentId := do
  if isScope config.scope then
    let graph ← get
    modify fun graph => { graph with components := graph.components.push (.ofConfig config) }
    return ⟨graph.components.size⟩
  else throw (.scopeFormat config.scope)

def setHook (id : ComponentId) (hook : Hook) : GraphM Unit := do
  let _ ← query (·.component id)
  editComponent id fun component => { component with hook := some hook }

/-! ### Adding sockets -/

/-- The side of a new socket: the given one, or the one that its name tells. -/
def sideOf (name : String) : Option Side → Except Error Side
  | some side => .ok side
  | none =>
      match Side.infer? name with
      | some side => .ok side
      | none => .error (.nameInference name)

/-- Checks new names one after the other against the names before them. -/
def planSockets (owner : String) (side : Option Side) : List String → List String →
    Except Error (List (String × Side))
  | _, [] => .ok []
  | taken, name :: rest => do
      let chosen ← sideOf name side
      if name ∈ taken then throw (.duplicateSocket owner name)
      ((name, chosen) :: ·) <$> planSockets owner side (taken ++ [name]) rest

def addSocket (owner : ComponentId) (internal : Bool) (plan : String × Side) : GraphM SocketId := do
  let graph ← get
  let id : SocketId := ⟨graph.sockets.size⟩
  let socket : Socket := { name := plan.1, side := plan.2, internal, owner }
  modify fun graph => { graph with sockets := graph.sockets.push socket }
  editComponent owner fun component =>
    if internal then { component with internals := component.internals ++ [id] }
    else match plan.2 with
      | .input => { component with inputs := component.inputs ++ [id] }
      | .output => { component with outputs := component.outputs ++ [id] }
  return id

def addSockets (owner : ComponentId) (names : List String) (side : Option Side) (internal : Bool) :
    GraphM (List SocketId) := do
  let plan ← query fun graph => do
    let component ← graph.component owner
    let taken ← graph.socketNames component.sockets
    planSockets component.name side taken names
  plan.mapM (addSocket owner internal)

/-! ### Finding sockets -/

def findNamed (graph : Graph) (name : String) : List SocketId → Except Error (Option SocketId)
  | [] => .ok none
  | id :: rest => do
      let socket ← graph.heldSocket id
      if socket.name = name then return some id else graph.findNamed name rest

/-- The lists in which a requested side is looked for, first to last. -/
def searched (component : Component) : Option Side → List SocketId
  | some .input => component.inputs ++ component.internals
  | some .output => component.outputs ++ component.internals
  | none => component.outputs ++ component.internals ++ component.inputs

def socketNamed? (graph : Graph) (owner : ComponentId) (name : String) (side : Option Side) :
    Except Error (Option SocketId) := do
  let component ← graph.component owner
  graph.findNamed name (searched component side)

/-- The only socket of the requested side; without a side there is no such thing. -/
def onlySocket (component : Component) (side : Option Side) : Except Error SocketId :=
  match side with
  | none => .error (.ambiguousSocket component.name none (component.inputs.length + component.outputs.length))
  | some side =>
      let candidates := match side with
        | .input => component.inputs
        | .output => component.outputs
      match candidates with
      | [id] => .ok id
      | _ => .error (.ambiguousSocket component.name (some side) candidates.length)

/-- The socket that a reference names, seen from a component. -/
def resolve (graph : Graph) (viewer : ComponentId) (ref : SocketRef) (side : Option Side) :
    Except Error SocketId := do
  let component ← graph.component viewer
  let named (owner : ComponentId) (name : String) : Except Error SocketId := do
    match ← graph.socketNamed? owner name side with
    | some id => return id
    | none =>
        let owner ← graph.component owner
        throw (.socketNotFound owner.name name side)
  match ref with
  | .only => onlySocket component side
  | .id id =>
      match graph.socket? id with
      | some _ => return id
      | none => throw (.socketNotFound component.name id.describe side)
  | .named name => named viewer name
  | .foreign owner name => named owner name

/-- The socket of a name; where there is none, a new internal one. -/
def ensureInternal (owner : ComponentId) (name : String) : GraphM SocketId := do
  match ← query (·.socketNamed? owner name none) with
  | some id => return id
  | none =>
      match ← addSockets owner [name] (some .input) true with
      | id :: _ => return id
      | [] => throw (.dangling name)

end Wiring.Graph
