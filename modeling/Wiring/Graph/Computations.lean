import Wiring.Graph.Sockets

/-!
Contract: methods of components and their bindings to sockets.

A computation binds a registered method to sockets by name. Its outputs must exist; an input that does not
exist becomes an internal socket. The method must have as many inputs and outputs as there are sockets.
-/

namespace Wiring.Graph

def register (id : ComponentId) (method : Method) : GraphM Unit := do
  let component ← query (·.component id)
  match component.method? method.name with
  | some _ => throw (.methodRegistered method.name component.name)
  | none => editComponent id fun component => { component with methods := component.methods ++ [method] }

/-- The method of a name, or the only one. -/
def chooseMethod (component : Component) : Option String → Except Error Method
  | some name =>
      match component.method? name with
      | some method => .ok method
      | none => .error (.unknownMethod component.name name)
  | none =>
      match component.methods with
      | [method] => .ok method
      | methods => .error (.methodNotUnique component.name methods.length)

/-- What a new computation checks: the name of its method, its settings and its output sockets. -/
def planCompute (graph : Graph) (owner : ComponentId) (inputs outputs : List String)
    (method : Option String) (options : Options) : Except Error (String × Settings × List SocketId) := do
  let component ← graph.component owner
  let method ← chooseMethod component method
  if inputs.length ≠ method.inputs ∨ outputs.length ≠ method.outputs then
    throw (.arityMismatch method.name method.inputs method.outputs inputs.length outputs.length)
  let sockets ← outputs.mapM fun name => do
    match ← graph.socketNamed? owner name none with
    | some id => return id
    | none => throw (.socketNotFound component.name name (some .output))
  return (method.name, options.resolve component.settings, sockets)

/-- Binds a method to sockets. -/
def compute (owner : ComponentId) (inputs outputs : List String) (method : Option String)
    (options : Options) : GraphM ComputationId := do
  let (method, settings, outputSockets) ← query (·.planCompute owner inputs outputs method options)
  let inputSockets ← inputs.mapM (ensureInternal owner)
  let graph ← get
  let id : ComputationId := ⟨graph.computations.size⟩
  inputSockets.forM fun socket =>
    editSocket socket fun socket => { socket with outgoing := socket.outgoing ++ [.computation id] }
  outputSockets.forM fun socket =>
    editSocket socket fun socket => { socket with incoming := socket.incoming ++ [.computation id] }
  let computation : Computation := { method, owner, inputs := inputSockets, outputs := outputSockets, settings }
  modify fun graph => { graph with computations := graph.computations.push computation }
  editComponent owner fun component =>
    { component with
      computations := component.computations ++ [id]
      sources := if inputs.isEmpty then component.sources ++ [id] else component.sources }
  return id

end Wiring.Graph
