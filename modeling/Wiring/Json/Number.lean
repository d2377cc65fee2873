import Wiring.Json.Value

/-!
Contract: the value of a number in JSON text.

The digits of a number are gathered into sixty-four bits. Once the next digit would not fit, the remaining
digits before the point only raise the exponent and the remaining digits after it are dropped. A number
without point and exponent stays an integer where one of sixty-four bits can hold it. Every other number
is the gathered integer times or over a power of ten, in double arithmetic; a result beyond the doubles is
refused.
-/

namespace Wiring.Json.Number

/-- The parts of a number as they are written. -/
structure Lexeme where
  negative : Bool
  whole : List Nat
  /-- Digits after the point, if there is one. -/
  fraction : Option (List Nat)
  /-- Sign and digits of the exponent, if there is one. -/
  exponent : Option (Bool × List Nat)

/-- A significand of sixty-four bits and a power of ten. -/
structure Gathered where
  significand : Nat
  power : Int
deriving DecidableEq, Repr

def fits (significand digit : Nat) : Bool :=
  significand * 10 + digit < wordBound

/-- Digits before the point. -/
def gatherWhole : List Nat → Gathered → Gathered
  | [], gathered => gathered
  | digit :: rest, gathered =>
      if gathered.power = 0 ∧ fits gathered.significand digit then
        gatherWhole rest ⟨gathered.significand * 10 + digit, 0⟩
      else gatherWhole rest ⟨gathered.significand, gathered.power + 1⟩

/-- Digits after the point. -/
def gatherFraction : List Nat → Gathered → Gathered
  | [], gathered => gathered
  | digit :: rest, gathered =>
      if fits gathered.significand digit then
        gatherFraction rest ⟨gathered.significand * 10 + digit, gathered.power - 1⟩
      else gathered

/-- A power of ten as a double. -/
def tenTo (exponent : Nat) : Float :=
  Float.ofScientific 1 false exponent

/-- Scales by a power of ten, in steps of `10 ^ 308` where the power has no double of its own. The fuel
bounds the steps: a double is zero after three divisions. -/
def scale : Nat → Float → Int → Option Float
  | 0, _, _ => none
  | fuel + 1, value, power =>
      if power.natAbs ≤ 308 then
        if 0 ≤ power then
          let scaled := value * tenTo power.natAbs
          if scaled.isInf then none else some scaled
        else some (value / tenTo power.natAbs)
      else if value == 0.0 then some value
      else if 0 ≤ power then none
      else scale fuel (value / tenTo 308) (power + 308)

/-- The exponents that are added up have thirty-two bits. A written exponent beyond them is zero or out
of range whatever the significand; a sum beyond them stays at the bound. -/
def exponentBound : Int := Int.pow 2 31

def clampExponent (power : Int) : Int :=
  max (-exponentBound) (min (exponentBound - 1) power)

/-- The value of a number, or nothing if it lies beyond the doubles. -/
def ofLexeme? (lexeme : Lexeme) : Option Number :=
  let whole := gatherWhole lexeme.whole ⟨0, 0⟩
  let signed (magnitude : Float) : Number := .floating (if lexeme.negative then -magnitude else magnitude)
  match lexeme.fraction, lexeme.exponent with
  | none, none =>
      if whole.power ≠ 0 then (scale 8 whole.significand.toUInt64.toFloat whole.power).map signed
      else if lexeme.negative then
        if 0 < whole.significand ∧ whole.significand ≤ Nat.pow 2 63 then some (.integer (-whole.significand))
        else some (signed whole.significand.toUInt64.toFloat)
      else some (.integer whole.significand)
  | fraction, exponent =>
      let gathered := gatherFraction (fraction.getD []) whole
      match exponent with
      | none => (scale 8 gathered.significand.toUInt64.toFloat gathered.power).map signed
      | some (negativeExponent, digits) =>
          let written : Nat := digits.foldl (fun value digit => value * 10 + digit) 0
          if exponentBound ≤ written then
            if gathered.significand = 0 ∨ negativeExponent then some (signed 0.0) else none
          else
            let power := if negativeExponent then gathered.power - written else gathered.power + written
            (scale 16 gathered.significand.toUInt64.toFloat (clampExponent power)).map signed

end Wiring.Json.Number
