import Wiring.Space.Basic
import Wiring.Decimal.Style
import Wiring.Text.Term

/-!
Contract: the two texts of a space: the short form of sentences, such as `Float(?,3)` or `Dict(a: Int())`,
and the full form of dumps, which shows every field.
-/

namespace Wiring

def ElementType.label : ElementType → String
  | .float => "Float"
  | .int => "Int"
  | .bool => "Bool"

namespace Space

def dimensionText : Option Nat → String
  | none => "?"
  | some n => toString n

mutual

def describe : Space → String
  | .box leaf => leaf.element.label ++ "(" ++ String.intercalate "," (leaf.fullShape.map dimensionText) ++ ")"
  | .dict entries => "Dict(" ++ String.intercalate ", " (describeEntries entries) ++ ")"
  | .tuple parts => "Tuple(" ++ String.intercalate ", " (describeParts parts) ++ ")"

def describeEntries : List (String × Space) → List String
  | [] => []
  | (key, space) :: rest => (key ++ ": " ++ describe space) :: describeEntries rest

def describeParts : List Space → List String
  | [] => []
  | space :: rest => describe space :: describeParts rest

end

end Space

/-! ### Dumps -/

def Term.float (x : Float) : Term :=
  .atom (Decimal.Style.detailed.write (.ofFloat x))

def Term.shape (shape : List Nat) : Term :=
  .list (shape.map .nat)

/-- A shape some of whose lengths are not known. -/
def Term.openShape (shape : List (Option Nat)) : Term :=
  .list (shape.map fun dimension => .option (dimension.map .nat))

def Box.toTerm (box : Box) : Term :=
  .record "BoxSpace"
    [("dtype", .atom box.element.label),
      ("shape", .shape box.shape),
      ("num_categories", .option (box.categories.map .nat)),
      ("low", .option (box.low.map .float)),
      ("high", .option (box.high.map .float)),
      ("add_batch_rank", .bool box.batchRank),
      ("add_time_rank", .bool box.timeRank),
      ("time_major", .bool box.timeMajor)]
    false

namespace Space

mutual

def toTerm : Space → Term
  | .box leaf => .apply "Primitive" [leaf.toTerm]
  | .dict entries => .record "Dict" [("spaces", .map (entryTerms entries))] false
  | .tuple parts => .record "Tuple" [("spaces", .list (partTerms parts))] false

def entryTerms : List (String × Space) → List (String × Term)
  | [] => []
  | (key, space) :: rest => (key, toTerm space) :: entryTerms rest

def partTerms : List Space → List Term
  | [] => []
  | space :: rest => toTerm space :: partTerms rest

end

end Space

end Wiring
