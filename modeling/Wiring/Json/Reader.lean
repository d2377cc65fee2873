import Wiring.Json.Number

/-!
Contract: JSON text to documents.

The grammar is the standard one: no leading zeros, no control characters inside strings, blanks are the four
standard ones, and nothing but blanks may follow the document. Reading uses one unit of fuel per nested
value and per element, so the length of the text is always enough.
-/

namespace Wiring.Json

/-- A parser over the remaining characters. -/
abbrev Scan (α : Type) := List Char → Option (α × List Char)

def skipBlanks : List Char → List Char
  | c :: rest => if c = ' ' ∨ c = '\n' ∨ c = '\t' ∨ c = '\r' then skipBlanks rest else c :: rest
  | [] => []

/-- Decimal digit of a character. -/
def digit? (c : Char) : Option Nat :=
  if '0' ≤ c ∧ c ≤ '9' then some (c.toNat - '0'.toNat) else none

def takeDigits : List Char → List Nat × List Char
  | [] => ([], [])
  | c :: rest =>
      match digit? c with
      | some d => let (digits, after) := takeDigits rest; (d :: digits, after)
      | none => ([], c :: rest)

/-! ### Numbers -/

/-- Digits before the point: a zero stands alone. -/
def scanWhole : Scan (List Nat) := fun cs =>
  match takeDigits cs with
  | ([], _) => none
  | (0 :: _ :: _, _) => none
  | (digits, rest) => some (digits, rest)

def scanFraction : Scan (Option (List Nat))
  | '.' :: cs =>
      match takeDigits cs with
      | ([], _) => none
      | (digits, rest) => some (some digits, rest)
  | cs => some (none, cs)

def scanExponent : Scan (Option (Bool × List Nat))
  | c :: cs =>
      if c = 'e' ∨ c = 'E' then
        let (negative, cs) := match cs with
          | '-' :: rest => (true, rest)
          | '+' :: rest => (false, rest)
          | rest => (false, rest)
        match takeDigits cs with
        | ([], _) => none
        | (digits, rest) => some (some (negative, digits), rest)
      else some (none, c :: cs)
  | [] => some (none, [])

def scanNumber : Scan Json := fun cs => do
  let (negative, cs) := match cs with
    | '-' :: rest => (true, rest)
    | rest => (false, rest)
  let (whole, cs) ← scanWhole cs
  let (fraction, cs) ← scanFraction cs
  let (exponent, cs) ← scanExponent cs
  let json := match Number.ofLexeme? ⟨negative, whole, fraction, exponent⟩ with
    | some value => .number value
    | none => .unreadable
  return (json, cs)

/-! ### Strings -/

def hexDigit? (c : Char) : Option Nat :=
  if '0' ≤ c ∧ c ≤ '9' then some (c.toNat - '0'.toNat)
  else if 'a' ≤ c ∧ c ≤ 'f' then some (c.toNat - 'a'.toNat + 10)
  else if 'A' ≤ c ∧ c ≤ 'F' then some (c.toNat - 'A'.toNat + 10)
  else none

def scanHex4 : Scan Nat
  | a :: b :: c :: d :: rest => do
      let a ← hexDigit? a
      let b ← hexDigit? b
      let c ← hexDigit? c
      let d ← hexDigit? d
      return (((a * 16 + b) * 16 + c) * 16 + d, rest)
  | _ => none

/-- One element of a string: a character, or a sixteen-bit unit that was written as an escape. -/
inductive Piece where
  | char (c : Char)
  | unit (code : Nat)

def scanEscape : Scan Piece
  | '"' :: rest => some (.char '"', rest)
  | '\\' :: rest => some (.char '\\', rest)
  | '/' :: rest => some (.char '/', rest)
  | 'b' :: rest => some (.char '\x08', rest)
  | 'f' :: rest => some (.char '\x0c', rest)
  | 'n' :: rest => some (.char '\n', rest)
  | 'r' :: rest => some (.char '\r', rest)
  | 't' :: rest => some (.char '\t', rest)
  | 'u' :: rest => (scanHex4 rest).map fun (code, rest) => (.unit code, rest)
  | _ => none

/-- The pieces up to the closing quote; the opening one has been read. -/
def scanPieces : Nat → Scan (List Piece)
  | 0, _ => none
  | _ + 1, [] => none
  | _ + 1, '"' :: rest => some ([], rest)
  | fuel + 1, '\\' :: rest => do
      let (piece, rest) ← scanEscape rest
      let (pieces, rest) ← scanPieces fuel rest
      return (piece :: pieces, rest)
  | fuel + 1, c :: rest => do
      if c.toNat < 0x20 then none
      let (pieces, rest) ← scanPieces fuel rest
      return (.char c :: pieces, rest)

def isHighSurrogate (code : Nat) : Bool := 0xD800 ≤ code && code < 0xDC00

def isLowSurrogate (code : Nat) : Bool := 0xDC00 ≤ code && code < 0xE000

/-- Joins surrogate pairs; a half without its other half has no value. -/
def joinPieces? : List Piece → Option (List Char)
  | [] => some []
  | .char c :: rest => (joinPieces? rest).map (c :: ·)
  | .unit high :: .unit low :: rest =>
      if isHighSurrogate high then
        if isLowSurrogate low then
          (joinPieces? rest).map (Char.ofNat (0x10000 + (high - 0xD800) * 0x400 + (low - 0xDC00)) :: ·)
        else none
      else if isLowSurrogate high then none
      else (joinPieces? (.unit low :: rest)).map (Char.ofNat high :: ·)
  | .unit code :: rest =>
      if isHighSurrogate code || isLowSurrogate code then none
      else (joinPieces? rest).map (Char.ofNat code :: ·)

/-- A string after its opening quote; the inner `none` is a string without a value. -/
def scanString : Scan (Option String) := fun cs => do
  let (pieces, rest) ← scanPieces (cs.length + 1) cs
  return ((joinPieces? pieces).map String.ofList, rest)

/-! ### Documents -/

def stripWord? : List Char → List Char → Option (List Char)
  | [], cs => some cs
  | w :: word, c :: cs => if w = c then stripWord? word cs else none
  | _ :: _, [] => none

mutual

def scanValue : Nat → Scan Json
  | 0, _ => none
  | fuel + 1, cs =>
      match skipBlanks cs with
      | [] => none
      | 'n' :: rest => (stripWord? "ull".toList rest).map (.null, ·)
      | 't' :: rest => (stripWord? "rue".toList rest).map (.bool true, ·)
      | 'f' :: rest => (stripWord? "alse".toList rest).map (.bool false, ·)
      | '"' :: rest => do
          let (text, rest) ← scanString rest
          return (match text with | some text => .string text | none => .unreadable, rest)
      | '[' :: rest =>
          match skipBlanks rest with
          | ']' :: rest => some (.array [], rest)
          | _ => (scanItems fuel rest).map fun (items, rest) => (.array items, rest)
      | '\x7b' :: rest =>
          match skipBlanks rest with
          | '\x7d' :: rest => some (.object [], rest)
          | _ => do
              let (entries, rest) ← scanEntries fuel rest
              return (match entries.mapM fun (key, value) => key.map (·, value) with
                | some entries => .object entries
                | none => .unreadable, rest)
      | cs => scanNumber cs

def scanItems : Nat → Scan (List Json)
  | 0, _ => none
  | fuel + 1, cs => do
      let (item, rest) ← scanValue fuel cs
      match skipBlanks rest with
      | ',' :: rest => do
          let (items, rest) ← scanItems fuel rest
          return (item :: items, rest)
      | ']' :: rest => return ([item], rest)
      | _ => none

def scanEntries : Nat → Scan (List (Option String × Json))
  | 0, _ => none
  | fuel + 1, cs => do
      match skipBlanks cs with
      | '"' :: rest => do
          let (key, rest) ← scanString rest
          match skipBlanks rest with
          | ':' :: rest => do
              let (value, rest) ← scanValue fuel rest
              match skipBlanks rest with
              | ',' :: rest => do
                  let (entries, rest) ← scanEntries fuel rest
                  return ((key, value) :: entries, rest)
              | '\x7d' :: rest => return ([(key, value)], rest)
              | _ => none
          | _ => none
      | _ => none

end

/-- The document that a text holds. -/
def parse? (text : String) : Option Json :=
  let cs := text.toList
  match scanValue (2 * cs.length + 2) cs with
  | some (json, rest) => if (skipBlanks rest).isEmpty then some json else none
  | none => none

end Wiring.Json
