import Wiring.Keyed
import Wiring.Tensor
import Wiring.Space.Basic

/-!
Contract: variables as the graph sees them: handles into a store, possibly gathered into containers that
follow a space.
-/

namespace Wiring

/-- A handle to one stored array; an absent length is only known at run time. -/
structure Variable where
  id : Nat
  name : String
  shape : List (Option Nat)
  element : ElementType
  trainable : Bool
deriving DecidableEq, Repr, Inhabited

inductive VariableValue where
  | single (handle : Variable)
  /-- The leaves of a container under their registered names. -/
  | flat (leaves : List (String × Variable))
  | dict (entries : List (String × VariableValue))
  | tuple (parts : List VariableValue)
deriving Inhabited

namespace VariableValue

mutual

/-- Every handle, in depth-first order. -/
def leaves : VariableValue → List Variable
  | .single handle => [handle]
  | .flat handles => handles.map Prod.snd
  | .dict entries => entryLeaves entries
  | .tuple parts => partLeaves parts

def entryLeaves : List (String × VariableValue) → List Variable
  | [] => []
  | (_, value) :: rest => leaves value ++ entryLeaves rest

def partLeaves : List VariableValue → List Variable
  | [] => []
  | value :: rest => leaves value ++ partLeaves rest

end

def asSingle? : VariableValue → Option Variable
  | .single handle => some handle
  | _ => none

end VariableValue

/-- The values that a new variable starts with. -/
inductive Initializer where
  /-- Random within a bound that shrinks with the outer lengths. -/
  | spread
  /-- Random around zero, never beyond two deviations. -/
  | truncatedNormal
  | constant (value : Float)
  /-- These values; they bring their own shape. -/
  | values (tensor : Tensor Float32)
deriving Inhabited

/-- The leading dimension of variables that follow a space. -/
inductive BatchRank where
  | none
  | dynamic
  | fixed (length : Nat)
deriving DecidableEq, Repr, Inhabited

def BatchRank.dimensions : BatchRank → List (Option Nat)
  | .none => []
  | .dynamic => [Option.none]
  | .fixed length => [some length]

/-- Where a variable that follows a space takes it from. -/
inductive SpaceSource where
  | space (space : Space)
  /-- The space that the last build gave this in-socket. -/
  | socket (name : String)
deriving Inhabited

/-- What a component asks for when it wants a variable. -/
structure VariableSpec where
  shape : Option (List (Option Nat)) := none
  element : ElementType := .float
  initializer : Option Initializer := none
  trainable : Bool := true
  source : Option SpaceSource := none
  batchRank : BatchRank := .none
  /-- Register the leaves of a space in one flat collection. -/
  flatten : Bool := false
deriving Inhabited

/-- A request without shape, values and space only looks a variable up. -/
def VariableSpec.isLookup (spec : VariableSpec) : Bool :=
  spec.shape.isNone && spec.initializer.isNone && spec.source.isNone

/-- What a store needs to know to hold a new variable. -/
structure VariableRequest where
  name : String
  shape : List (Option Nat)
  element : ElementType
  trainable : Bool
  initializer : Initializer

end Wiring
