/-!
Contract: random draws from a stream of sixty-four-bit words.

A stream gives its words in order and counts how many were taken. A unit draw takes one word. A draw below a
bound multiplies a word with the bound and takes the upper half of the product; it takes further words while
the lower half lies in the part of the range that would favour some numbers. Normal samples are a parameter, with the
number of words that each of them takes.
-/

namespace Wiring

structure WordStream where
  word : Nat → UInt64
  /-- A sample of the standard normal distribution from the words at a position, and the position after them. -/
  normalAt : Nat → Float × Nat
  taken : Nat := 0

namespace WordStream

/-- The words of an array, over and over. Each normal sample is the centre of the distribution and takes one word. -/
def cyclic (words : Array UInt64) : WordStream where
  word := fun position => words.getD (position % words.size) 0
  normalAt := fun position => (0.0, position + 1)

def next (stream : WordStream) : UInt64 × WordStream :=
  (stream.word stream.taken, { stream with taken := stream.taken + 1 })

/-- The upper fifty-three bits of a word as a fraction of one. -/
def fraction (word : UInt64) : Float :=
  (word >>> 11).toFloat * (1.0 / 9007199254740992.0)

/-- A double in the half-open unit interval. -/
def unit (stream : WordStream) : Float × WordStream :=
  let (word, stream) := stream.next
  (fraction word, stream)

def wordRange : Nat := Nat.pow 2 64

/-- The number of leading zeros of a positive number of at most sixty-four bits. -/
def leadingZeros (n : Nat) : Nat :=
  63 - Nat.log2 n

/-- The largest lower half of a product that a draw below `bound` accepts. -/
def acceptedUpTo (bound : Nat) : Nat :=
  bound * Nat.pow 2 (leadingZeros bound) - 1

/-- A number below the bound. The fuel bounds the words that may be rejected. -/
def below? (bound : Nat) : Nat → WordStream → Option (Nat × WordStream)
  | 0, _ => none
  | fuel + 1, stream =>
      let (word, stream) := stream.next
      let product := word.toNat * bound
      if product % wordRange ≤ acceptedUpTo bound then some (product / wordRange, stream)
      else below? bound fuel stream

/-- A sample of the standard normal distribution. -/
def normal (stream : WordStream) : Float × WordStream :=
  let (sample, taken) := stream.normalAt stream.taken
  (sample, { stream with taken })

end WordStream

end Wiring
