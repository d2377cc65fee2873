import Mathlib.Algebra.Group.Nat.Defs
import Wiring.Space.FlatKey

/-!
Contract: what flat keys say.

Owns: that the path of a key is the path of its stem with one more piece, if the piece holds no slash;
`bracket`, the piece that numbers the part of a tuple, and that it is read back as its number; and
`IsNumbered`, the pieces that are read as numbers at all.

Does not own: trees of paths.
-/

namespace Wiring.FlatKey

/-! ### Pieces and paths -/

theorem pieces_ne_nil (cs : List Char) : pieces cs ≠ [] := by
  cases cs with
  | nil => simp [pieces]
  | cons c rest =>
      rw [pieces]
      split
      · simp
      · split <;> simp

theorem pieces_of_notMem {cs : List Char} (free : '/' ∉ cs) : pieces cs = [cs] := by
  induction cs with
  | nil => rfl
  | cons c rest inductionHypothesis =>
      rw [List.mem_cons, not_or] at free
      rw [pieces, if_neg (Ne.symm free.1), inductionHypothesis free.2]

/-- A slash begins a new piece. -/
theorem pieces_append_slash (stem : List Char) {piece : List Char} (free : '/' ∉ piece) :
    pieces (stem ++ '/' :: piece) = pieces stem ++ [piece] := by
  induction stem with
  | nil => simp [pieces, pieces_of_notMem free]
  | cons c rest inductionHypothesis =>
      rw [List.cons_append, pieces, pieces, inductionHypothesis]
      split
      · rfl
      · cases known : pieces rest with
        | nil => exact absurd known (pieces_ne_nil rest)
        | cons first others => rfl

theorem notMem_of_mem_pieces {cs piece : List Char} (member : piece ∈ pieces cs) : '/' ∉ piece := by
  induction cs generalizing piece with
  | nil =>
      obtain rfl := List.mem_singleton.mp member
      exact List.not_mem_nil
  | cons c rest inductionHypothesis =>
      rw [pieces] at member
      split at member
      · rcases List.mem_cons.mp member with rfl | later
        · exact List.not_mem_nil
        · exact inductionHypothesis later
      · next other =>
          cases known : pieces rest with
          | nil => exact absurd known (pieces_ne_nil rest)
          | cons first others =>
              rw [known] at member inductionHypothesis
              rcases List.mem_cons.mp member with rfl | later
              · rw [List.mem_cons, not_or]
                exact ⟨Ne.symm other, inductionHypothesis List.mem_cons_self⟩
              · exact inductionHypothesis (List.mem_cons_of_mem first later)

theorem path_empty : path "" = [] := rfl

theorem path_entry (stem : String) {piece : String} (free : '/' ∉ piece.toList) :
    path (entry stem piece) = path stem ++ [piece] := by
  have letters : (entry stem piece).toList = stem.toList ++ '/' :: piece.toList := by
    simp [entry, String.toList_append]
  rw [path, letters, pieces_append_slash _ free, List.tail_append_of_ne_nil (pieces_ne_nil _), List.map_append]
  simp [path, String.ofList_toList]

theorem notMem_of_mem_path {key piece : String} (member : piece ∈ path key) : '/' ∉ piece.toList := by
  rcases List.mem_map.mp member with ⟨cs, listed, rfl⟩
  rw [String.toList_ofList]
  exact notMem_of_mem_pieces (List.mem_of_mem_tail listed)

/-! ### Numerals -/

/-- Digits in decimal whose number fits into sixty-four bits. -/
structure Numeral (digits : List Char) : Prop where
  filled : digits ≠ []
  digital : ∀ c ∈ digits, c.isDigit = true
  bounded : Nat.ofDigitChars 10 digits 0 < 2 ^ 64

/-- What is left without a plus sign in front. -/
def unsigned : List Char → List Char
  | '+' :: rest => rest
  | cs => cs

theorem unsigned_of_numeral {digits : List Char} (numeral : Numeral digits) : unsigned digits = digits := by
  unfold unsigned
  split
  · exact absurd (numeral.digital '+' List.mem_cons_self) (by decide)
  · rfl

theorem unsigned_cases (cs : List Char) : cs = unsigned cs ∨ cs = '+' :: unsigned cs := by
  unfold unsigned
  split
  · exact .inr rfl
  · exact .inl rfl

theorem readIndex?_eq_some {cs : List Char} {value : Nat} :
    readIndex? cs = some value ↔ Numeral (unsigned cs) ∧ Nat.ofDigitChars 10 (unsigned cs) 0 = value := by
  have folded (digits : List Char) : digits.foldl (fun total c => total * 10 + (c.toNat - '0'.toNat)) 0 =
      Nat.ofDigitChars 10 digits 0 := by
    rw [Nat.ofDigitChars_eq_foldl]
    simp only [Nat.mul_comm]
  have read : readIndex? cs =
      if (unsigned cs).isEmpty || !(unsigned cs).all Char.isDigit then none
      else if Nat.ofDigitChars 10 (unsigned cs) 0 < 2 ^ 64 then some (Nat.ofDigitChars 10 (unsigned cs) 0)
      else none := by
    rw [← folded]
    rfl
  rw [read]
  constructor
  · intro answered
    split at answered
    · cases answered
    next checked =>
      split at answered
      next bounded =>
        simp only [Bool.or_eq_true, Bool.not_eq_true', not_or, Bool.not_eq_true, Bool.not_eq_false,
          List.isEmpty_eq_false_iff, List.all_eq_true] at checked
        exact ⟨⟨checked.1, checked.2, bounded⟩, Option.some.inj answered⟩
      · cases answered
  · rintro ⟨numeral, rfl⟩
    rw [if_neg, if_pos numeral.bounded]
    simpa using ⟨numeral.filled, numeral.digital⟩

theorem numeral_toDigits {index : Nat} (bounded : index < 2 ^ 64) : Numeral (Nat.toDigits 10 index) where
  filled := Nat.toDigits_ne_nil
  digital _ member := Nat.isDigit_of_mem_toDigits (by decide) (by decide) member
  bounded := by rwa [Nat.ofDigitChars_toDigits (by decide) (by decide)]

/-! ### Numbers in brackets -/

/-- The piece that stands for the part of a tuple at an index. -/
def bracket (index : Nat) : String :=
  "[" ++ toString index ++ "]"

/-- A piece of the form `[n]`, where `n` is a number of sixty-four bits in decimal, possibly after a plus
sign. -/
def IsNumbered (piece : String) : Prop :=
  ∃ digits, Numeral digits ∧
    (piece.toList = '[' :: (digits ++ [']']) ∨ piece.toList = '[' :: '+' :: (digits ++ [']']))

theorem part_eq_entry (stem : String) (index : Nat) : part stem index = entry stem (bracket index) := by
  apply String.toList_inj.mp
  simp [part, entry, bracket, String.toList_append]

theorem toList_bracket (index : Nat) : (bracket index).toList = '[' :: (Nat.toDigits 10 index ++ [']']) := by
  simp [bracket, String.toList_append, Nat.toString_eq_repr, Nat.toList_repr]

theorem bracketed?_of_toList {piece : String} {cs : List Char} (letters : piece.toList = '[' :: (cs ++ [']'])) :
    bracketed? piece = readIndex? cs := by
  simp [bracketed?, letters]

theorem exists_of_bracketed? {piece : String} {value : Nat} (read : bracketed? piece = some value) :
    ∃ cs, piece.toList = '[' :: (cs ++ [']']) ∧ readIndex? cs = some value := by
  unfold bracketed? at read
  split at read
  next rest opened =>
    split at read
    next digits closed =>
      refine ⟨digits.reverse, ?_, read⟩
      rw [opened, ← List.reverse_reverse rest, closed, List.reverse_cons]
    · cases read
  · cases read

/-- Exactly the pieces of this form are read as numbers. -/
theorem isSome_bracketed?_iff {piece : String} : (bracketed? piece).isSome ↔ IsNumbered piece := by
  rw [Option.isSome_iff_exists]
  constructor
  · rintro ⟨value, read⟩
    rcases exists_of_bracketed? read with ⟨cs, letters, answered⟩
    refine ⟨unsigned cs, (readIndex?_eq_some.mp answered).1, ?_⟩
    rcases unsigned_cases cs with same | signed
    · exact .inl (by rw [← same, letters])
    · exact .inr (letters.trans (congrArg (fun cs => '[' :: (cs ++ [']'])) signed))
  · rintro ⟨digits, numeral, letters | letters⟩
    · rw [bracketed?_of_toList letters]
      refine ⟨_, readIndex?_eq_some.mpr ⟨?_, rfl⟩⟩
      rwa [unsigned_of_numeral numeral]
    · have letters : piece.toList = '[' :: (('+' :: digits) ++ [']']) := letters
      rw [bracketed?_of_toList letters]
      exact ⟨_, readIndex?_eq_some.mpr ⟨numeral, rfl⟩⟩

theorem bracketed?_bracket {index : Nat} (bounded : index < 2 ^ 64) : bracketed? (bracket index) = some index := by
  have numeral := numeral_toDigits bounded
  rw [bracketed?_of_toList (toList_bracket index), readIndex?_eq_some, unsigned_of_numeral numeral]
  exact ⟨numeral, Nat.ofDigitChars_toDigits (by decide) (by decide)⟩

theorem slash_notMem_bracket (index : Nat) : '/' ∉ (bracket index).toList := by
  rw [toList_bracket]
  intro member
  rcases List.mem_cons.mp member with same | member
  · exact absurd same (by decide)
  · rcases List.mem_append.mp member with digit | last
    · exact absurd (Nat.isDigit_of_mem_toDigits (by decide) (by decide) digit) (by decide)
    · exact absurd (List.mem_singleton.mp last) (by decide)

end Wiring.FlatKey
