import Wiring.Space.Basic

/-!
Contract: the flat form of a space and the way back.

The flat form lists the boxes of a space under their flat keys: a step into a dict appends `/key`, a step into
a tuple `/[i]`, and a box at the top has the empty key. `unflatten` reads keys as paths, gathers them into a
tree and turns a node whose children are numbered `[0]`, `[1]`, … into a tuple. It refuses keys that do not
describe one tree.
-/

namespace Wiring

namespace FlatKey

/-- Why a set of flat keys describes no space. -/
inductive Fault where
  | mixedWithRoot
  | throughLeaf (key : String)
  | withoutPath (key : String)
  | repeated (key : String)
  | indexOutOfRange (index : Nat)
  | indexGap
deriving DecidableEq, Repr

def Fault.message : Fault → String
  | .mixedWithRoot => "Flat key '' mixed with container keys"
  | .throughLeaf key => "Flat key '" ++ key ++ "' descends into a primitive"
  | .withoutPath key => "Empty flat key segment in '" ++ key ++ "'"
  | .repeated key => "Duplicate flat key '" ++ key ++ "'"
  | .indexOutOfRange index => "Tuple index " ++ toString index ++ " out of range"
  | .indexGap => "Gap in tuple indices"

/-- The key of a dict entry below `stem`. -/
def entry (stem key : String) : String :=
  stem ++ "/" ++ key

/-- The key of a tuple part below `stem`. -/
def part (stem : String) (index : Nat) : String :=
  stem ++ "/[" ++ toString index ++ "]"

/-- The pieces between slashes; there is always at least one. -/
def pieces : List Char → List (List Char)
  | [] => [[]]
  | c :: rest =>
      if c = '/' then [] :: pieces rest
      else match pieces rest with
        | [] => [[c]]
        | piece :: others => (c :: piece) :: others

/-- The path of a key: its pieces after the first slash. -/
def path (key : String) : List String :=
  (pieces key.toList).tail.map String.ofList

/-- An unsigned number of sixty-four bits in decimal, possibly after a plus sign. -/
def readIndex? (cs : List Char) : Option Nat :=
  let digits := match cs with
    | '+' :: rest => rest
    | cs => cs
  if digits.isEmpty || !digits.all Char.isDigit then none
  else
    let value := digits.foldl (fun total c => total * 10 + (c.toNat - '0'.toNat)) 0
    if value < Nat.pow 2 64 then some value else none

/-- The number of a bracketed piece. -/
def bracketed? (piece : String) : Option Nat :=
  match piece.toList with
  | '[' :: rest =>
      match rest.reverse with
      | ']' :: digits => readIndex? digits.reverse
      | _ => none
  | _ => none

/-- Paths gathered by their first pieces. -/
inductive Tree where
  | leaf (space : Space)
  | branch (children : List (String × Tree))

namespace Tree

/-- Places a space at the end of a path; `key` is the whole key, for the fault. -/
def insert (key : String) (space : Space) : List String → Tree → Except Fault Tree
  | _, .leaf _ => .error (.throughLeaf key)
  | [], .branch _ => .error (.withoutPath key)
  | [last], .branch children =>
      if Keyed.contains children last then .error (.repeated key)
      else .ok (.branch (children ++ [(last, .leaf space)]))
  | head :: next :: rest, .branch children =>
      let child := (Keyed.get? children head).getD (.branch [])
      (insert key space (next :: rest) child).map fun child => .branch (Keyed.insert head child children)

/-- The numbers of the children, if all of them are numbered. -/
def indices? (children : List (String × Tree)) : Option (List Nat) :=
  children.mapM fun child => bracketed? child.1

mutual

def toSpace : Tree → Except Fault Space
  | .leaf space => .ok space
  | .branch children =>
      match indices? children with
      | some (_ :: _) => do
          let slots ← fillSlots children (List.replicate children.length none)
          match slots.mapM id with
          | some parts => .ok (.tuple parts)
          | none => .error .indexGap
      | _ => do
          let entries ← toEntries children
          .ok (.dict entries)

/-- Puts every numbered child into its slot. -/
def fillSlots : List (String × Tree) → List (Option Space) → Except Fault (List (Option Space))
  | [], slots => .ok slots
  | (piece, child) :: rest, slots =>
      let index := (bracketed? piece).getD 0
      if index < slots.length then do
        let space ← toSpace child
        fillSlots rest (slots.set index (some space))
      else .error (.indexOutOfRange index)

def toEntries : List (String × Tree) → Except Fault (List (String × Space))
  | [] => .ok []
  | (piece, child) :: rest => do
      let space ← toSpace child
      let entries ← toEntries rest
      .ok ((piece, space) :: entries)

end

/-- The tree of several keyed spaces. -/
def gather (flat : Keyed Space) : Except Fault Tree :=
  flat.foldlM (fun tree entry => tree.insert entry.1 entry.2 (path entry.1)) (.branch [])

end Tree

end FlatKey

namespace Space

/-! ### The flat form -/

mutual

/-- The boxes of a space with their keys below `stem`, in order. -/
def leavesUnder (stem : String) : Space → List (String × Box)
  | .box leaf => [(stem, leaf)]
  | .dict entries => entryLeaves stem entries
  | .tuple parts => partLeaves stem 0 parts

def entryLeaves (stem : String) : List (String × Space) → List (String × Box)
  | [] => []
  | (key, space) :: rest => leavesUnder (FlatKey.entry stem key) space ++ entryLeaves stem rest

def partLeaves (stem : String) (index : Nat) : List Space → List (String × Box)
  | [] => []
  | space :: rest => leavesUnder (FlatKey.part stem index) space ++ partLeaves stem (index + 1) rest

end

/-- The boxes by flat key. Two boxes can only share a key where a dict key holds a slash. -/
def flatten (space : Space) : Keyed Box :=
  Keyed.ofList (leavesUnder "" space)

/-- The flat form as spaces. -/
def flatSpaces (space : Space) : Keyed Space :=
  space.flatten.map fun entry => (entry.1, .box entry.2)

def unflatten (flat : Keyed Space) : Except FlatKey.Fault Space :=
  match Keyed.get? flat "" with
  | some space => if flat.length = 1 then .ok space else .error .mixedWithRoot
  | none => (FlatKey.Tree.gather flat).bind FlatKey.Tree.toSpace

/-- Whether every box carries a batch rank. -/
def hasBatchRank (space : Space) : Bool :=
  space.flatten.all fun entry => entry.2.batchRank

end Space

end Wiring
