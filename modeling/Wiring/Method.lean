import Wiring.Error
import Wiring.OpLog
import Wiring.Settings

/-!
Contract: methods, and what it means to run one on ops.

A method gets ops and returns ops; on the way it records new ops and may look up the variables of its
component. `Method.apply` is one firing: where the settings ask for it and an input is a container, the
method runs once per flat key and its outputs are put together again.
-/

namespace Wiring

/-- What a running method writes to. -/
structure Recorder where
  log : OpLog := {}
  /-- How many metered methods were called. -/
  calls : Nat := 0

abbrev Recording := StateT Recorder (Except Error)

/-- What a running method can see of the graph. -/
structure MethodContext where
  component : ComponentId
  componentName : String
  /-- The variables of the running component by registered name. -/
  registry : Keyed VariableValue
  /-- The flat key of the call, where the computation asked for it. -/
  key : Option String
  backend : BackendKind

namespace MethodContext

/-- A registered variable of the running component. -/
def lookup (context : MethodContext) (name : String) : Except Error VariableValue :=
  match Keyed.get? context.registry name with
  | some value => .ok value
  | none => .error (.variableNotFound context.componentName name)

/-- Records an op of the running component. -/
def record (context : MethodContext) (label : String) (inputs : List OpId) (space : Space) :
    Recording DataOp := do
  let recorder ← get
  let (op, log) := recorder.log.push { label, component := some context.component, inputs, space }
  set { recorder with log }
  return op

end MethodContext

/-- A named method with its numbers of inputs and outputs. -/
structure Method where
  name : String
  inputs : Nat
  outputs : Nat
  run : MethodContext → List DataOp → Recording (List DataOp)

namespace Method

def toTerm (method : Method) : Term :=
  .record "ComputationMethod"
    [("name", .quoted method.name), ("num_inputs", .nat method.inputs), ("num_outputs", .nat method.outputs)]
    true

/-- Runs the method and checks the number of returned ops. -/
def call (method : Method) (context : MethodContext) (inputs : List DataOp) : Recording (List DataOp) := do
  let returned ← method.run context inputs
  if returned.length = method.outputs then return returned
  else throw (.outputCount method.name returned.length method.outputs)

/-! ### Splitting -/

/-- One input of the call for a flat key: a container is replaced by its part, anything else stays. -/
def splitInput (context : MethodContext) (key : String) (input : DataOp) : Recording DataOp :=
  if input.space.isContainer then
    match Keyed.get? input.space.flatten key with
    | some part => context.record ("split" ++ key) [input.id] (.box part)
    | none => throw (.splitKeyMissing input.space key)
  else return input

/-- The outputs of the call for one flat key. -/
def callForKey (method : Method) (settings : Settings) (context : MethodContext) (inputs : List DataOp)
    (key : String) : Recording (String × List DataOp) := do
  let parts ← inputs.mapM (splitInput context key)
  let outputs ← method.call { context with key := if settings.passKey then some key else none } parts
  return (key, outputs)

/-- Puts output number `j` of all calls together. -/
def merge (settings : Settings) (context : MethodContext) (calls : List (String × List DataOp)) (j : Nat) :
    Recording DataOp := do
  let outputs := calls.map fun call => (call.1, call.2.getD j default)
  let parts : Keyed Space := outputs.map fun output => (output.1, output.2.space)
  let ids := outputs.map fun output => output.2.id
  if settings.unflattenOps then
    match Space.unflatten parts with
    | .ok space => context.record "unflatten" ids space
    | .error fault => throw (.flatKeys fault)
  else context.record "flat" ids (.dict parts)

/-- The flat keys of the first container among the inputs. -/
def splitKeys (inputs : List DataOp) : List String :=
  match inputs.find? fun input => input.space.isContainer with
  | some input => Keyed.keys input.space.flatten
  | none => []

/-- Whether a firing on these inputs is split by flat key. -/
def splits (settings : Settings) (inputs : List DataOp) : Bool :=
  settings.flattenOps && settings.splitOps && inputs.any fun input => input.space.isContainer

/-- One firing of a computation with this method. -/
def apply (method : Method) (settings : Settings) (context : MethodContext) (inputs : List DataOp) :
    Recording (List DataOp) := do
  if splits settings inputs then
    let calls ← (splitKeys inputs).mapM (method.callForKey settings context inputs)
    (List.range method.outputs).mapM (merge settings context calls)
  else method.call { context with key := if settings.passKey then some "" else none } inputs

end Method

end Wiring
