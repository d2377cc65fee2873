import Wiring.Keyed

/-!
Contract: spaces, the descriptions of the data that sockets carry.

A box describes one array: element type, shape, bounds, and whether a batch rank and a time rank come before
the shape. A dict names spaces, a tuple numbers them. `Space.same` is the comparison under which bound spaces
are found again: bounds compare as numbers, and the order of the entries of a dict does not count.
-/

namespace Wiring

inductive ElementType where
  | float
  | int
  | bool
deriving DecidableEq, Repr, Inhabited

structure Box where
  element : ElementType := .float
  shape : List Nat := []
  categories : Option Nat := none
  low : Option Float := none
  high : Option Float := none
  batchRank : Bool := false
  timeRank : Bool := false
  /-- The time rank comes before the batch rank. -/
  timeMajor : Bool := false
deriving Inhabited

inductive Space where
  | box (box : Box)
  | dict (entries : List (String × Space))
  | tuple (parts : List Space)
deriving Inhabited

namespace Box

/-- The shape with its leading ranks, whose length is not known. -/
def fullShape (box : Box) : List (Option Nat) :=
  let ranks : List (Option Nat) := match box.batchRank, box.timeRank with
    | true, true => [none, none]
    | true, false | false, true => [none]
    | false, false => []
  ranks ++ box.shape.map some

/-- Where the batch rank stands in the full shape. -/
def batchAxis (box : Box) : Option Nat :=
  match box.batchRank, box.timeRank, box.timeMajor with
  | false, _, _ => none
  | true, true, true => some 1
  | true, _, _ => some 0

def sameBound : Option Float → Option Float → Bool
  | none, none => true
  | some a, some b => a == b
  | _, _ => false

def same (a b : Box) : Bool :=
  a.element = b.element && a.shape = b.shape && a.categories = b.categories && sameBound a.low b.low &&
    sameBound a.high b.high && a.batchRank = b.batchRank && a.timeRank = b.timeRank &&
    a.timeMajor = b.timeMajor

end Box

namespace Space

/-! ### Constructors -/

def floatBox (shape : List Nat) : Space :=
  .box { shape }

def boundedBox (shape : List Nat) (low high : Float) : Space :=
  .box { shape, low := some low, high := some high }

/-- The double nearest to a count of at most sixty-four bits. -/
def boundOfCount (count : Nat) : Float :=
  count.toUInt64.toFloat

/-- An integer box whose elements are the numbers below `categories`. -/
def intBox (categories : Nat) (shape : List Nat) : Space :=
  .box
    { element := .int, shape, categories := some categories, low := some 0.0,
      high := some (boundOfCount categories) }

def boolBox (shape : List Nat) : Space :=
  .box { element := .bool, shape }

/-- A dict of the given pairs; a repeated key keeps its first place and its last space. -/
def dictOf (pairs : List (String × Space)) : Space :=
  .dict (Keyed.ofList pairs)

/-! ### Boxes inside -/

mutual

def mapBoxes (change : Box → Box) : Space → Space
  | .box leaf => .box (change leaf)
  | .dict entries => .dict (mapEntries change entries)
  | .tuple parts => .tuple (mapParts change parts)

def mapEntries (change : Box → Box) : List (String × Space) → List (String × Space)
  | [] => []
  | (key, space) :: rest => (key, mapBoxes change space) :: mapEntries change rest

def mapParts (change : Box → Box) : List Space → List Space
  | [] => []
  | space :: rest => mapBoxes change space :: mapParts change rest

end

def withBatchRank (space : Space) : Space :=
  space.mapBoxes fun shaped => { shaped with batchRank := true }

def withTimeRank (timeMajor : Bool) (space : Space) : Space :=
  space.mapBoxes fun shaped => { shaped with timeRank := true, timeMajor }

def withTimeMajor (timeMajor : Bool) (space : Space) : Space :=
  space.mapBoxes fun shaped => { shaped with timeMajor }

/-- The space with the order of batch and time rank exchanged in every box. -/
def flipTimeMajor (space : Space) : Space :=
  space.mapBoxes fun shaped => { shaped with timeMajor := !shaped.timeMajor }

def isContainer : Space → Bool
  | .box _ => false
  | _ => true

def asBox? : Space → Option Box
  | .box leaf => some leaf
  | _ => none

/-- A box of the given element type. -/
def isBoxOf (element : ElementType) (space : Space) : Bool :=
  space.asBox?.any fun shaped => shaped.element = element

/-! ### Comparison -/

mutual

def same : Space → Space → Bool
  | .box a, .box b => a.same b
  | .dict a, .dict b => a.length = b.length && sameEntries a b
  | .tuple a, .tuple b => sameParts a b
  | _, _ => false

/-- Whether every entry stands in the other dict too. -/
def sameEntries : List (String × Space) → List (String × Space) → Bool
  | [], _ => true
  | (key, space) :: rest, others =>
      (match others.lookup key with
        | some other => space.same other
        | none => false) && sameEntries rest others

def sameParts : List Space → List Space → Bool
  | [], [] => true
  | a :: as, b :: bs => a.same b && sameParts as bs
  | _, _ => false

end

end Space

end Wiring
