import Wiring.Error
import Wiring.Json.Reader
import Wiring.Json.Record

/-!
Contract: the JSON forms of initial values and of the plain choices.

Given values are written with a version, the lengths of the axes, and the elements row by row; reading takes
these three fields in any order and no others, and the lengths must match the number of elements.
-/

namespace Wiring

def Side.choices : List (String × Side) :=
  [("in", .input), ("out", .output)]

def BackendKind.choices : List (String × BackendKind) :=
  [("ndarray", .ndArray), ("tensorflow", .tensorFlow), ("pytorch", .pyTorch)]

namespace Tensor

/-- The bound on the product of the lengths that are not zero. -/
def lengthBound : Nat := Nat.pow 2 63

def ofShapeAndData? (shape : List Nat) (data : List Float32) : Option (Tensor Float32) :=
  if volume (shape.filter (· ≠ 0)) < lengthBound then ofData? shape data.toArray else none

def isVersion (json : Json) : Bool :=
  json.asNat? = some 1

/-- An array written out by fields or by position. -/
def ofJson? : Json → Option (Tensor Float32)
  | .object entries => do
      if !entries.all fun entry => ["v", "dim", "data"].contains entry.1 then none
      if !entries.all fun entry => entry.1 ≠ "v" || isVersion entry.2 then none
      let valuesOf (name : String) := (entries.filter fun entry => entry.1 = name).map Prod.snd
      let _ ← entries.lookup "v"
      let shapes ← (valuesOf "dim").mapM (Json.asListOf? Json.asNat?)
      let contents ← (valuesOf "data").mapM (Json.asListOf? Json.asFloat32?)
      ofShapeAndData? (← shapes.getLast?) (← contents.getLast?)
  | .array [version, shape, data] => do
      if !isVersion version then none
      ofShapeAndData? (← shape.asListOf? Json.asNat?) (← data.asListOf? Json.asFloat32?)
  | _ => none

def toJson (tensor : Tensor Float32) : Json :=
  .object
    [("v", .ofNat 1),
      ("dim", .array (tensor.shape.map .ofNat)),
      ("data", .array (tensor.data.toList.map fun x => .number (.single x)))]

end Tensor

namespace Initializer

def bareChoices : List (String × Initializer) :=
  [("default", .spread), ("truncated_normal", .truncatedNormal)]

def ofJson? : Json → Option Initializer
  | .object [("constant", json)] => Initializer.constant <$> json.asFloat?
  | .object [("values", json)] => Initializer.values <$> Tensor.ofJson? json
  | json => Json.choice? false bareChoices json

def toJson : Initializer → Json
  | .spread => .string "default"
  | .truncatedNormal => .string "truncated_normal"
  | .constant x => .object [("constant", .ofFloat x)]
  | .values tensor => .object [("values", tensor.toJson)]

end Initializer

end Wiring
