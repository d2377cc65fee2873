/-!
Contract: JSON documents as values.

An object keeps its entries in document order and keeps repeated keys, because a record with a repeated field
is refused where one is read. `unreadable` stands for a part that is formed correctly but has no value: a
number beyond the range of a double, or a string with half a surrogate pair. Such a part does no harm where
it is skipped.
-/

namespace Wiring

namespace Json

/-- A number is an integer of at most sixty-four bits, or it is floating. Minus zero is floating. A text is
never read as a `single`, which is written with the fewest digits of its own precision. -/
inductive Number where
  | integer (value : Int)
  | floating (value : Float)
  | single (value : Float32)

end Json

inductive Json where
  | null
  | bool (value : Bool)
  | number (value : Json.Number)
  | string (value : String)
  | array (items : List Json)
  | object (entries : List (String × Json))
  | unreadable
deriving Inhabited

namespace Json

def ofNat (n : Nat) : Json :=
  .number (.integer n)

def ofInt (n : Int) : Json :=
  .number (.integer n)

def ofFloat (x : Float) : Json :=
  .number (.floating x)

def ofOption (encode : α → Json) : Option α → Json
  | none => .null
  | some value => encode value

/-- Unsigned integers are carried by sixty-four bits. -/
def wordBound : Nat := Nat.pow 2 64

def asNat? : Json → Option Nat
  | .number (.integer value) => if value < 0 then none else some value.toNat
  | _ => none

def asInt? : Json → Option Int
  | .number (.integer value) => some value
  | _ => none

/-- The double nearest to an integer of at most sixty-four bits. -/
def Number.toFloat : Number → Float
  | .integer value =>
      if value < 0 then -(value.natAbs.toUInt64.toFloat) else value.toNat.toUInt64.toFloat
  | .floating value => value
  | .single value => value.toFloat

/-- The single nearest to the number: an integer is rounded once, not through a double. -/
def Number.toFloat32 : Number → Float32
  | .integer value =>
      if value < 0 then -(value.natAbs.toUInt64.toFloat32) else value.toNat.toUInt64.toFloat32
  | .floating value => value.toFloat32
  | .single value => value

def asFloat? : Json → Option Float
  | .number value => some value.toFloat
  | _ => none

def asFloat32? : Json → Option Float32
  | .number value => some value.toFloat32
  | _ => none

def asBool? : Json → Option Bool
  | .bool value => some value
  | _ => none

def asString? : Json → Option String
  | .string value => some value
  | _ => none

def asList? : Json → Option (List Json)
  | .array items => some items
  | _ => none

def asListOf? (decode : Json → Option α) : Json → Option (List α)
  | .array items => items.mapM decode
  | _ => none

/-- `null` is the absent value. -/
def asOption? (decode : Json → Option α) : Json → Option (Option α)
  | .null => some none
  | json => (decode json).map some

/-- The first entry under a key. -/
def field? (json : Json) (key : String) : Option Json :=
  match json with
  | .object entries => entries.lookup key
  | _ => none

/-! ### Depth -/

mutual

/-- Whether no part is unreadable and containers are nested at most `depth` deep. -/
def readableWithin (depth : Nat) : Json → Bool
  | .null | .bool _ | .number _ | .string _ => true
  | .unreadable => false
  | .array items =>
      match depth with
      | 0 => false
      | depth + 1 => allReadable depth items
  | .object entries =>
      match depth with
      | 0 => false
      | depth + 1 => entriesReadable depth entries

def allReadable (depth : Nat) : List Json → Bool
  | [] => true
  | item :: rest => item.readableWithin depth && allReadable depth rest

def entriesReadable (depth : Nat) : List (String × Json) → Bool
  | [] => true
  | (_, value) :: rest => value.readableWithin depth && entriesReadable depth rest

end

/-! ### Sorted keys -/

/-- Strings by their bytes, which is the order of their code points. -/
def insertSorted (key : String) (value : Json) : List (String × Json) → List (String × Json)
  | [] => [(key, value)]
  | (other, kept) :: rest =>
      if key = other then (key, value) :: rest
      else if key < other then (key, value) :: (other, kept) :: rest
      else (other, kept) :: insertSorted key value rest

mutual

/-- The same document with the keys of every object in order; of a repeated key the last value stays. -/
def sortKeys : Json → Json
  | .array items => .array (sortItems items)
  | .object entries => .object (sortEntries entries)
  | json => json

def sortItems : List Json → List Json
  | [] => []
  | item :: rest => sortKeys item :: sortItems rest

/-- Entries are placed from the last to the first, so a later value of a key must not be replaced. -/
def sortEntries : List (String × Json) → List (String × Json)
  | [] => []
  | (key, value) :: rest =>
      let sorted := sortEntries rest
      if sorted.any (fun entry => entry.1 = key) then sorted
      else insertSorted key (sortKeys value) sorted

end

end Json

end Wiring
