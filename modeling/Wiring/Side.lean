import Wiring.Text.CharClass

/-!
Contract: the two directions of a socket, and how a name tells its direction.

A name tells it by the word `input` or `output` standing apart: before and after the word there is a digit,
an underscore, or the edge of a run of word characters. `matchAt?` looks for the word from one position on,
with the delimiter that it consumes or the edge that it stands on; `infer?` takes the first position that
matches.
-/

namespace Wiring

inductive Side where
  | input
  | output
deriving DecidableEq, Repr, Inhabited

namespace Side

def name : Side → String
  | .input => "in"
  | .output => "out"

def label : Side → String
  | .input => "In"
  | .output => "Out"

/-- Digits and underscores separate the word from the rest of a name. -/
def isDelimiter (c : Char) : Bool :=
  CharClass.isDigit c || c = '_'

/-- Whether exactly one of two neighbours is a word character; an end of the name is none. -/
def isEdge (before after : Option Char) : Bool :=
  before.any CharClass.isWord != after.any CharClass.isWord

/-- Whether the word, read up to its last character `last`, ends here. -/
def endsBefore (last : Char) (rest : List Char) : Bool :=
  rest.head?.any isDelimiter || isEdge (some last) rest.head?

/-- The word at the start of the characters, with its end. -/
def word? : List Char → Option Side
  | 'i' :: 'n' :: 'p' :: 'u' :: 't' :: rest => if endsBefore 't' rest then some .input else none
  | 'o' :: 'u' :: 't' :: 'p' :: 'u' :: 't' :: rest => if endsBefore 't' rest then some .output else none
  | _ => none

/-- A match from one position on: after a delimiter, or on an edge. -/
def matchAt? (before : Option Char) (cs : List Char) : Option Side :=
  let afterDelimiter := match cs with
    | c :: rest => if isDelimiter c then word? rest else none
    | [] => none
  afterDelimiter.or (if isEdge before cs.head? then word? cs else none)

/-- The match at the first position that has one. -/
def firstMatch? (before : Option Char) : List Char → Option Side
  | [] => matchAt? before []
  | c :: rest => (matchAt? before (c :: rest)).or (firstMatch? (some c) rest)

def infer? (name : String) : Option Side :=
  firstMatch? none name.toList

example : infer? "nn_input" = some .input ∧ infer? "output_2" = some .output ∧ infer? "inputs" = none := by
  decide +kernel

end Side

end Wiring
