import Wiring.Graph.Computations

/-!
Contract: the transposition component, which exchanges batch and time in every box that passes through.

A container is split by flat key and put together again, so every box is turned on its own.
-/

namespace Wiring.Transposition

/-- Records an op whose space has its two leading ranks exchanged. -/
def method : Method where
  name := "apply"
  inputs := 1
  outputs := 1
  run := fun context inputs => do
    let space := (inputs.getD 0 default).space.flipTimeMajor
    let op ← context.record "transpose" (inputs.map DataOp.id) space
    return [op]

def settings : Settings :=
  { splitOps := true, passKey := true }

/-- Creates the component with its in-socket and its out-socket. -/
def create (scope : Option String) : GraphM ComponentId := do
  let id ← Graph.create { scope := scope.getD "transpose", settings }
  let _ ← Graph.addSockets id ["input", "output"] none false
  Graph.register id method
  let _ ← Graph.compute id ["input"] ["output"] none {}
  return id

/-- The array with its two leading axes exchanged. -/
def apply (values : Tensor Float32) : Except Error (Tensor Float32) :=
  match values.swapLeading? with
  | some swapped => .ok swapped
  | none => .error (.cannotTranspose values.shape)

end Wiring.Transposition
