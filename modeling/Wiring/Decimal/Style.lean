import Wiring.Decimal.Shortest

/-!
Contract: how a floating-point number is written. A `Style` holds the decisions of one format: which
decimal exponents are written out by position, whether a whole number keeps its `.0`, and how an exponent is
marked. The digits themselves are always the shortest ones that read back.
-/

namespace Wiring.Decimal

/-- What the bits of a floating-point number stand for. -/
inductive Reading where
  | notANumber
  | infinite (negative : Bool)
  | zero (negative : Bool)
  | finite (negative : Bool) (magnitude : Binary)

/-- Splits the bits of a format with the given width of exponent and fraction. The least exponent belongs
to numbers without a leading one. -/
def Reading.ofBits (exponentBits fractionBits : Nat) (bits : Nat) : Reading :=
  let fraction := bits % Nat.pow 2 fractionBits
  let biased := bits / Nat.pow 2 fractionBits % Nat.pow 2 exponentBits
  let negative := bits / Nat.pow 2 (fractionBits + exponentBits) % 2 = 1
  let least : Int := 2 - Int.pow 2 (exponentBits - 1) - fractionBits
  if biased = Nat.pow 2 exponentBits - 1 then
    if fraction = 0 then .infinite negative else .notANumber
  else if biased = 0 then
    if fraction = 0 then .zero negative else .finite negative ⟨fraction, least, false⟩
  else
    .finite negative ⟨Nat.pow 2 fractionBits + fraction, least + (biased - 1), fraction = 0 && biased ≠ 1⟩

def Reading.ofFloat (x : Float) : Reading :=
  .ofBits 11 52 x.toBits.toNat

def Reading.ofFloat32 (x : Float32) : Reading :=
  .ofBits 8 23 x.toBits.toNat

/-- The decisions of one written form of numbers. -/
structure Style where
  tie : TieRule
  /-- Decimal exponents of the leading digit that are written by position; `none` is no bound. -/
  leastPositional : Option Int
  mostPositional : Option Int
  /-- Whether a number written by position always shows a point. -/
  alwaysPoint : Bool
  /-- Whether an exponent that is not negative has a plus sign. -/
  signedExponent : Bool

/-- Messages about bounds: an exponent outside `-4` to `15`, always recognisable as a fraction. -/
def Style.detailed : Style :=
  ⟨.awayFromZero, some (-4), some 15, true, false⟩

/-- Plain sentences: never an exponent. -/
def Style.plain : Style :=
  ⟨.awayFromZero, none, none, false, false⟩

/-- JSON text: an exponent outside `-5` to `15`, with its sign. -/
def Style.json : Style :=
  ⟨.toEven, some (-5), some 15, true, true⟩

def zeros (count : Nat) : List Char :=
  List.replicate count '0'

def positional (style : Style) (digits : List Char) (exponent : Int) : List Char :=
  let point := (digits.length : Int) + exponent
  if 0 ≤ exponent then
    digits ++ zeros exponent.toNat ++ (if style.alwaysPoint then ".0".toList else [])
  else if 0 < point then
    digits.take point.toNat ++ '.' :: digits.drop point.toNat
  else
    "0.".toList ++ zeros (-point).toNat ++ digits

def scientific (style : Style) (digits : List Char) (leading : Int) : List Char :=
  let mantissa := match digits with
    | [] => []
    | [digit] => [digit]
    | digit :: rest => digit :: '.' :: rest
  let sign := if leading < 0 then "-" else if style.signedExponent then "+" else ""
  mantissa ++ 'e' :: sign.toList ++ Nat.toDigits 10 leading.natAbs

/-- The written form of positive digits. -/
def Style.writeDigits (style : Style) (value : Digits) : List Char :=
  let digits := Nat.toDigits 10 value.coefficient
  let leading := (digits.length : Int) + value.exponent - 1
  let isSmall := style.leastPositional.any fun least => leading < least
  let isLarge := style.mostPositional.any fun most => most < leading
  if isSmall || isLarge then scientific style digits leading
  else positional style digits value.exponent

def Style.write (style : Style) : Reading → String
  | .notANumber => "NaN"
  | .infinite negative => if negative then "-inf" else "inf"
  | .zero negative => (if negative then "-" else "") ++ (if style.alwaysPoint then "0.0" else "0")
  | .finite negative magnitude =>
      (if negative then "-" else "") ++ String.ofList (style.writeDigits (magnitude.shortest style.tie))

example : Style.detailed.write (.ofFloat 0.1) = "0.1" ∧ Style.detailed.write (.ofFloat 1e16) = "1e16" ∧
    Style.detailed.write (.ofFloat 3.0) = "3.0" := by decide +kernel

example : Style.plain.write (.ofFloat 1e21) = "1000000000000000000000" ∧
    Style.plain.write (.ofFloat (-1e-7)) = "-0.0000001" := by decide +kernel

example : Style.json.write (.ofFloat 1e16) = "1e+16" ∧ Style.json.write (.ofFloat 1e-5) = "0.00001" ∧
    Style.json.write (.ofFloat 1e-6) = "1e-6" := by decide +kernel

end Wiring.Decimal
