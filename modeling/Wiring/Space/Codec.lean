import Wiring.Space.Basic
import Wiring.Json.Reader
import Wiring.Json.Record

/-!
Contract: spaces as JSON documents.

A document says its kind in the entry `type`. A box lists its fields, every one of which may be missing; a
dict and a tuple hold their spaces under `spaces`. A bare name stands for a box without dimensions. Bounds
that are not finite have no JSON form, so reading back a written space turns them into absent bounds.
-/

namespace Wiring

def ElementType.name : ElementType → String
  | .float => "float"
  | .int => "int"
  | .bool => "bool"

def ElementType.choices : List (String × ElementType) :=
  [("float", .float), ("int", .int), ("bool", .bool)]

namespace Space

/-- Why a document describes no space. -/
inductive SpecFault where
  | unknownName (name : String)
  | malformed
deriving DecidableEq, Repr

/-! ### Writing -/

def boundJson : Option Float → Json
  | none => .null
  | some bound => if bound.isFinite then .ofFloat bound else .null

def boxFields (leaf : Box) : List (String × Json) :=
  [("dtype", .string leaf.element.name),
    ("shape", .array (leaf.shape.map .ofNat)),
    ("num_categories", .ofOption .ofNat leaf.categories),
    ("low", boundJson leaf.low),
    ("high", boundJson leaf.high),
    ("add_batch_rank", .bool leaf.batchRank),
    ("add_time_rank", .bool leaf.timeRank),
    ("time_major", .bool leaf.timeMajor)]

mutual

def toJson : Space → Json
  | .box leaf => .object (("type", .string "box") :: boxFields leaf)
  | .dict entries => .object [("type", .string "dict"), ("spaces", .object (entriesJson entries))]
  | .tuple parts => .object [("type", .string "tuple"), ("spaces", .array (partsJson parts))]

def entriesJson : List (String × Space) → List (String × Json)
  | [] => []
  | (key, space) :: rest => (key, toJson space) :: entriesJson rest

def partsJson : List Space → List Json
  | [] => []
  | space :: rest => toJson space :: partsJson rest

end

/-! ### Reading -/

def boxNames : List String :=
  ["dtype", "shape", "num_categories", "low", "high", "add_batch_rank", "add_time_rank", "time_major"]

def boxOfJson? (json : Json) : Option Box := do
  match ← Json.fields? boxNames json with
  | [element, shape, categories, low, high, batchRank, timeRank, timeMajor] =>
      return {
        element := ← Json.fieldOr .float (Json.choice? true ElementType.choices) element
        shape := ← Json.fieldOr [] (Json.asListOf? Json.asNat?) shape
        categories := ← Json.fieldOr none (Json.asOption? Json.asNat?) categories
        low := ← Json.fieldOr none (Json.asOption? Json.asFloat?) low
        high := ← Json.fieldOr none (Json.asOption? Json.asFloat?) high
        batchRank := ← Json.fieldOr false Json.asBool? batchRank
        timeRank := ← Json.fieldOr false Json.asBool? timeRank
        timeMajor := ← Json.fieldOr false Json.asBool? timeMajor }
  | _ => none

def kinds : List String :=
  ["box", "dict", "tuple"]

/-- The space of a document that is not a bare name. The fuel bounds the nesting of spaces; `nested` spaces
may give their kind by its number. -/
def ofJson? : Nat → Bool → Json → Option Space
  | 0, _, _ => none
  | fuel + 1, nested, json => do
      let (kind, rest) ← Json.tagged? nested kinds json
      if kind = 0 then
        let leaf ← boxOfJson? rest
        return .box leaf
      let spaces ← match ← Json.fields? ["spaces"] rest with
        | [some spaces] => some spaces
        | _ => none
      if kind = 1 then
        match spaces with
        | .object entries => do
            let entries ← entries.mapM fun entry => (ofJson? fuel true entry.2).map (entry.1, ·)
            return dictOf entries
        | _ => none
      else
        match spaces with
        | .array items => (items.mapM (ofJson? fuel true)).map .tuple
        | _ => none

end Space

namespace Json

mutual

/-- How deep containers are nested. -/
def depth : Json → Nat
  | .array items => itemsDepth items + 1
  | .object entries => entriesDepth entries + 1
  | _ => 0

def itemsDepth : List Json → Nat
  | [] => 0
  | item :: rest => max (depth item) (itemsDepth rest)

def entriesDepth : List (String × Json) → Nat
  | [] => 0
  | (_, value) :: rest => max (depth value) (entriesDepth rest)

end

/-- Containers may be nested this deep in a text. -/
def nestingLimit : Nat := 127

end Json

namespace Space

/-- The space of a document whose keys are in order. -/
def ofDocument? (json : Json) : Option Space :=
  ofJson? (json.depth + 1) false json

/-- The space that a specification names or describes. The keys of its objects are taken in order. -/
def ofSpec (spec : Json) : Except SpecFault Space :=
  match spec with
  | .string "float" => .ok (floatBox [])
  | .string "int" => .ok (.box { element := .int })
  | .string "bool" => .ok (boolBox [])
  | .string name => .error (.unknownName name)
  | spec =>
      match ofDocument? spec.sortKeys with
      | some space => .ok space
      | none => .error .malformed

/-- The space that a text describes; its dicts keep the order of the text. -/
def parse? (text : String) : Option Space := do
  let json ← Json.parse? text
  if json.readableWithin Json.nestingLimit then ofDocument? json else none

end Space

end Wiring
