/-!
Contract: the shortest decimal that names a binary number.

A binary number owns the reals that round to it: an interval that reaches half way to its neighbours, its
ends included exactly when the significand is even. Among the decimals of that interval with the fewest
digits, `Binary.shortest` takes the nearest; when two are equally near, the tie rule decides.
-/

namespace Wiring.Decimal

/-- The number `significand * 2 ^ exponent`, with `0 < significand`. The neighbour below is half as far
away as the neighbour above exactly when `closeBelow` is set. -/
structure Binary where
  significand : Nat
  exponent : Int
  closeBelow : Bool

/-- The decimal `coefficient * 10 ^ exponent`. -/
structure Digits where
  coefficient : Nat
  exponent : Int
deriving DecidableEq, Repr

inductive TieRule where
  | toEven
  | awayFromZero

/-- How a grid of decimals lies over the binary number: both sides are integers over one denominator. -/
structure Grid where
  /-- One step of the grid. -/
  step : Nat
  /-- A quarter of the last place of the binary number. -/
  quarter : Nat

namespace Binary

/-- The grid of the decimals with the given exponent of ten. -/
def grid (number : Binary) (power : Int) : Grid where
  step := 4 * Nat.pow 10 power.toNat * Nat.pow 2 (-number.exponent).toNat
  quarter := Nat.pow 2 number.exponent.toNat * Nat.pow 10 (-power).toNat

/-- Whether the multiple `count` of the grid's step rounds to the binary number. -/
def owns (number : Binary) (grid : Grid) (count : Nat) : Bool :=
  let candidate := count * grid.step
  let lower := (4 * number.significand - if number.closeBelow then 1 else 2) * grid.quarter
  let upper := (4 * number.significand + 2) * grid.quarter
  if number.significand % 2 = 0 then lower ≤ candidate && candidate ≤ upper
  else lower < candidate && candidate < upper

/-- The better of the two grid points around the number, if either of them rounds to it. -/
def nearest? (number : Binary) (tie : TieRule) (grid : Grid) : Option Nat :=
  let exact := 4 * number.significand * grid.quarter
  let below := exact / grid.step
  match number.owns grid below, number.owns grid (below + 1) with
  | true, true =>
      let toBelow := exact - below * grid.step
      let toAbove := (below + 1) * grid.step - exact
      if toBelow < toAbove then some below
      else if toAbove < toBelow then some (below + 1)
      else match tie with
        | .toEven => some (if below % 2 = 0 then below else below + 1)
        | .awayFromZero => some (below + 1)
  | true, false => some below
  | false, true => some (below + 1)
  | false, false => none

/-- Exponent of ten of the leading digit. A binary number of at most sixty-four bits and a binary exponent
of at least `-1100` is far above `10 ^ -400`, so its scaled integer part has digits to count. -/
def leadingPower (number : Binary) : Int :=
  let scaled := number.significand * Nat.pow 2 number.exponent.toNat * Nat.pow 10 400 /
    Nat.pow 2 (-number.exponent).toNat
  ((Nat.toDigits 10 scaled).length : Int) - 401

end Binary

/-- Drops the trailing zeros of the coefficient; the fuel bounds their number. -/
def Digits.trim : Nat → Digits → Digits
  | 0, digits => digits
  | fuel + 1, digits =>
      if digits.coefficient ≠ 0 ∧ digits.coefficient % 10 = 0 then
        Digits.trim fuel ⟨digits.coefficient / 10, digits.exponent + 1⟩
      else digits

/-- Seventeen digits name every number of at most fifty-three bits, so the search ends there. -/
def Binary.shortest (number : Binary) (tie : TieRule) : Digits :=
  let leading := number.leadingPower
  let found := (List.range 17).findSome? fun (count : Nat) =>
    let power := leading - count
    (number.nearest? tie (number.grid power)).map fun coefficient => Digits.mk coefficient power
  (found.getD ⟨number.significand, number.exponent⟩).trim 20

end Wiring.Decimal
