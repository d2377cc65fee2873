import Mathlib.Data.List.Basic
import Wiring.Proofs.Text.Pattern
import Wiring.Side

/-!
Contract: the side that a name tells.

Owns: `StandsAt`, by which the word of a side stands at a position of a name, apart from its neighbours; that a name
tells the side of the first word that stands so; and that it is the side found by a search for `pattern`, which reads
the delimiters or looks at the edges around the word.

A search takes a delimiter together with the word behind it, so a match can start one place before its word.
`firstApart?` is the scan without this: at every place it looks at the two neighbours and takes nothing but the word.

Does not own: the classes of characters; which sockets are made from a name.
-/

namespace Wiring.Side

/-- What the words of the two sides begin with. -/
def stem : Side → List Char
  | .input => ['i', 'n']
  | .output => ['o', 'u', 't']

def word (side : Side) : List Char :=
  side.stem ++ ['p', 'u', 't']

/-- A word stands apart from a neighbour that is absent, no word character, a digit or an underscore. -/
def IsApart (neighbour : Option Char) : Prop :=
  ∀ c ∈ neighbour, CharClass.isWord c = false ∨ CharClass.isDigit c = true ∨ c = '_'

instance (neighbour : Option Char) : Decidable (IsApart neighbour) :=
  match neighbour with
  | none => .isTrue fun _ none => nomatch none
  | some c => decidable_of_iff (CharClass.isWord c = false ∨ CharClass.isDigit c = true ∨ c = '_')
      ⟨fun apart _ same => Option.some.inj same ▸ apart, fun apart => apart c rfl⟩

/-- The word of a side stands apart at a position of the characters, behind `before`. -/
def StandsAt (before : Option Char) (cs : List Char) (side : Side) (position : Nat) : Prop :=
  ∃ front back, cs = front ++ side.word ++ back ∧ front.length = position ∧
    IsApart (front.getLast?.or before) ∧ IsApart back.head?

theorem isApart_iff (neighbour : Option Char) :
    IsApart neighbour ↔ neighbour.any isDelimiter = true ∨ neighbour.any CharClass.isWord = false := by
  cases neighbour with
  | none => exact iff_of_true (fun _ none => nomatch none) (.inr rfl)
  | some c => simp [IsApart, isDelimiter, or_comm]

theorem endsBefore_iff {last : Char} (wordLike : CharClass.isWord last = true) (rest : List Char) :
    endsBefore last rest = true ↔ IsApart rest.head? := by
  rw [isApart_iff, endsBefore, isEdge, Option.any_some, wordLike, Bool.or_eq_true]
  simp

theorem isWord_t : CharClass.isWord 't' = true := by decide +kernel

theorem word?_word (side : Side) (rest : List Char) :
    word? (side.word ++ rest) = if endsBefore 't' rest then some side else none := by
  cases side <;> rfl

theorem word?_of_absent {cs : List Char} (absent : ∀ side rest, cs ≠ word side ++ rest) : word? cs = none := by
  unfold word?
  split
  · next rest => exact absurd rfl (absent .input rest)
  · next rest => exact absurd rfl (absent .output rest)
  · rfl

theorem word?_eq_some_iff {cs : List Char} {side : Side} :
    word? cs = some side ↔ ∃ back, cs = side.word ++ back ∧ IsApart back.head? := by
  constructor
  · intro found
    by_cases present : ∃ other rest, cs = word other ++ rest
    · rcases present with ⟨other, rest, rfl⟩
      rw [word?_word, Option.ite_none_right_eq_some, endsBefore_iff isWord_t] at found
      obtain rfl := Option.some.inj found.2
      exact ⟨rest, rfl, found.1⟩
    · push Not at present
      cases (word?_of_absent present).symm.trans found
  · rintro ⟨back, rfl, apart⟩
    rw [word?_word, if_pos ((endsBefore_iff isWord_t back).mpr apart)]

/-- A word starts with a word character that is no delimiter. -/
theorem head_of_word? {c : Char} {rest : List Char} {side : Side} (found : word? (c :: rest) = some side) :
    isDelimiter c = false ∧ CharClass.isWord c = true := by
  rcases word?_eq_some_iff.mp found with ⟨back, same, -⟩
  cases side <;> cases same <;> decide +kernel

/-- The word at the start of the characters, if it stands apart. -/
def apartAt? (before : Option Char) (cs : List Char) : Option Side :=
  if IsApart before then word? cs else none

/-- The first word that stands apart. -/
def firstApart? (before : Option Char) : List Char → Option Side
  | [] => none
  | c :: rest => (apartAt? before (c :: rest)).or (firstApart? (some c) rest)

theorem matchAt?_nil (before : Option Char) : matchAt? before [] = none :=
  ite_self none

theorem matchAt?_cons (before : Option Char) (c : Char) (rest : List Char) :
    matchAt? before (c :: rest) =
      (if isDelimiter c then word? rest else none).or (if isEdge before (some c) then word? (c :: rest) else none) :=
  rfl

/-- A word behind a delimiter is matched one place before it, and all others where they stand. -/
theorem or_matchAt? (before : Option Char) (c : Char) (rest : List Char) :
    (if before.any isDelimiter then word? (c :: rest) else none).or (matchAt? before (c :: rest)) =
      (apartAt? before (c :: rest)).or (if isDelimiter c then word? rest else none) := by
  rw [matchAt?_cons, apartAt?]
  cases found : word? (c :: rest) with
  | none => simp
  | some side =>
      -- No delimiter starts a word, so what remains is when the place before the word leaves it apart.
      rcases head_of_word? found with ⟨plain, wordLike⟩
      have unmatched : (if isDelimiter c then word? rest else none) = none := if_neg (by rw [plain]; decide)
      rw [unmatched, Option.none_or, Option.or_none]
      simp only [isApart_iff, isEdge, Option.any_some, wordLike]
      cases before.any isDelimiter <;> cases before.any CharClass.isWord <;> rfl

theorem firstApart?_eq (before : Option Char) (cs : List Char) :
    firstApart? before cs =
      (if before.any isDelimiter then word? cs else none).or (firstMatch? before cs) := by
  -- The word behind a delimiter is matched from the delimiter on, so it is missing where the characters start with it.
  induction cs generalizing before with
  | nil => rw [firstMatch?, matchAt?_nil, Option.or_none]; exact (ite_self none).symm
  | cons c rest inductionHypothesis =>
      rw [firstApart?, inductionHypothesis, Option.any_some, firstMatch?, ← Option.or_assoc, ← Option.or_assoc,
        or_matchAt?]

theorem firstMatch?_eq (cs : List Char) : firstMatch? none cs = firstApart? none cs := by
  rw [firstApart?_eq]
  rfl

theorem standsAt_zero {before : Option Char} {cs : List Char} {side : Side} :
    StandsAt before cs side 0 ↔ apartAt? before cs = some side := by
  rw [apartAt?, Option.ite_none_right_eq_some, word?_eq_some_iff]
  constructor
  · rintro ⟨front, back, same, empty, apart, apartToo⟩
    obtain rfl := List.eq_nil_of_length_eq_zero empty
    exact ⟨apart, back, same, apartToo⟩
  · rintro ⟨apart, back, same, apartToo⟩
    exact ⟨[], back, same, rfl, apart, apartToo⟩

theorem standsAt_succ {before : Option Char} {c : Char} {rest : List Char} {side : Side} {position : Nat} :
    StandsAt before (c :: rest) side (position + 1) ↔ StandsAt (some c) rest side position := by
  constructor
  · rintro ⟨front, back, same, length, apart, apartToo⟩
    cases front with
    | nil => cases length
    | cons first front =>
        obtain ⟨rfl, rfl⟩ := List.cons.inj same
        refine ⟨front, back, rfl, Nat.succ.inj length, ?_, apartToo⟩
        rw [List.getLast?_cons] at apart
        simpa [Option.or_some] using apart
  · rintro ⟨front, back, rfl, rfl, apart, apartToo⟩
    refine ⟨c :: front, back, rfl, rfl, ?_, apartToo⟩
    rw [List.getLast?_cons]
    simpa [Option.or_some] using apart

theorem not_standsAt_nil {before : Option Char} {side : Side} {position : Nat} : ¬StandsAt before [] side position := by
  rintro ⟨front, back, same, -⟩
  cases side <;> simp [word] at same

theorem firstApart?_eq_none_iff {before : Option Char} {cs : List Char} :
    firstApart? before cs = none ↔ ∀ side position, ¬StandsAt before cs side position := by
  induction cs generalizing before with
  | nil => exact iff_of_true rfl fun _ _ => not_standsAt_nil
  | cons c rest inductionHypothesis =>
      rw [firstApart?, Option.or_eq_none_iff, inductionHypothesis]
      constructor
      · rintro ⟨here, later⟩ side (_ | position) stands
        · cases here.symm.trans (standsAt_zero.mp stands)
        · exact later side position (standsAt_succ.mp stands)
      · intro nowhere
        refine ⟨Option.eq_none_iff_forall_ne_some.mpr fun side here => ?_, fun side position stands => ?_⟩
        · exact nowhere side 0 (standsAt_zero.mpr here)
        · exact nowhere side (position + 1) (standsAt_succ.mpr stands)

theorem firstApart?_eq_some_iff {before : Option Char} {cs : List Char} {side : Side} :
    firstApart? before cs = some side ↔ ∃ position, StandsAt before cs side position ∧
      ∀ other earlier, earlier < position → ¬StandsAt before cs other earlier := by
  induction cs generalizing before with
  | nil => exact iff_of_false (fun none => nomatch none) fun ⟨_, stands, _⟩ => not_standsAt_nil stands
  | cons c rest inductionHypothesis =>
      rw [firstApart?, Option.or_eq_some_iff, inductionHypothesis]
      constructor
      · rintro (here | ⟨absent, position, stands, first⟩)
        · exact ⟨0, standsAt_zero.mpr here, fun _ _ below => absurd below (Nat.not_lt_zero _)⟩
        · refine ⟨position + 1, standsAt_succ.mpr stands, ?_⟩
          rintro other (_ | earlier) below standsToo
          · cases absent.symm.trans (standsAt_zero.mp standsToo)
          · exact first other earlier (Nat.lt_of_succ_lt_succ below) (standsAt_succ.mp standsToo)
      · rintro ⟨_ | position, stands, first⟩
        · exact .inl (standsAt_zero.mp stands)
        · refine .inr ⟨Option.eq_none_iff_forall_ne_some.mpr fun other here => ?_, position, standsAt_succ.mp stands,
            fun other earlier below standsToo => ?_⟩
          · exact first other 0 (Nat.succ_pos position) (standsAt_zero.mpr here)
          · exact first other (earlier + 1) (Nat.succ_lt_succ below) (standsAt_succ.mpr standsToo)

/-! ### The pattern -/

open Pattern

/-- A digit, an underscore or the edge of a run of word characters. -/
def bound : Pattern :=
  .either (.one isDelimiter) .edge

/-- The word, of which the stem is kept, and its end. -/
def ending : Pattern :=
  .both (.group 2 (.either (literal (stem .input)) (literal (stem .output))))
    (.both (literal ['p', 'u', 't']) (.group 3 bound))

/-- The word between digits, underscores or edges. -/
def pattern : Pattern :=
  .both (.group 1 bound) ending

/-- The side whose stem is kept. -/
def kept (way : Way) : Option Side :=
  (way.group? 2).map fun text => if text = stem .input then .input else .output

theorem ways_ending (before : Option Char) (side : Side) (rest : List Char) :
    ending.ways ⟨before, side.word ++ rest⟩ = (bound.ways ⟨some 't', rest⟩).map fun way =>
      ⟨side.word ++ way.read, (2, side.stem) :: (3, way.read) :: way.groups, way.behind⟩ := by
  cases side <;> simp [ending, literal, ways, word, stem, Way.append, Way.keep, Function.comp_def]

theorem ways_ending_eq_nil {before : Option Char} {cs : List Char} (absent : ∀ side rest, cs ≠ word side ++ rest) :
    ending.ways ⟨before, cs⟩ = [] := by
  refine List.eq_nil_iff_forall_not_mem.mpr fun way possible => ?_
  -- A way reads a stem and then the rest of the word, and what it reads stands at the place.
  rcases List.mem_flatMap.mp possible with ⟨_, stemWay, possible⟩
  rcases List.mem_map.mp possible with ⟨_, possible, -⟩
  rcases List.mem_flatMap.mp possible with ⟨tail, tailWay, -⟩
  rcases List.mem_map.mp stemWay with ⟨front, frontWay, rfl⟩
  have tailStands := after_of_mem_ways tailWay
  rw [read_of_mem_literal tailWay] at tailStands
  have stands {side : Side} (frontWay : front ∈ (literal side.stem).ways ⟨before, cs⟩) :
      cs = side.word ++ tail.behind.after := by
    have frontStands := after_of_mem_ways frontWay
    rw [read_of_mem_literal frontWay] at frontStands
    rw [word, List.append_assoc, ← tailStands]
    exact frontStands
  rcases List.mem_append.mp frontWay with frontWay | frontWay
  · exact absent _ _ (stands frontWay)
  · exact absent _ _ (stands frontWay)

theorem ways_bound_eq_nil_iff (last : Char) (rest : List Char) :
    bound.ways ⟨some last, rest⟩ = [] ↔ endsBefore last rest = false := by
  cases rest <;> simp [bound, ways, endsBefore, isEdge]

theorem head?_ending (before : Option Char) (cs : List Char) :
    (ending.ways ⟨before, cs⟩).head?.map kept = (word? cs).map some := by
  by_cases present : ∃ side rest, cs = word side ++ rest
  · rcases present with ⟨side, rest, rfl⟩
    have chosen (way : Way) (text : List Char) (groups : List (Nat × List Char)) :
        kept ⟨text, (2, side.stem) :: groups, way.behind⟩ = some side := by
      cases side <;> rfl
    rw [ways_ending, word?_word]
    cases ways : bound.ways ⟨some 't', rest⟩ with
    | nil => rw [(ways_bound_eq_nil_iff 't' rest).mp ways]; rfl
    | cons way others =>
        have ends : endsBefore 't' rest = true := by
          by_contra goesOn
          rw [(ways_bound_eq_nil_iff 't' rest).mpr (Bool.eq_false_iff.mpr goesOn)] at ways
          cases ways
        rw [if_pos ends, List.map_cons, List.head?_cons, Option.map_some, chosen way]
        rfl
  · push Not at present
    rw [ways_ending_eq_nil present, word?_of_absent present]
    rfl

section

variable {guard : Pattern} {place : Place}

theorem head?_guarded_of_nil (unread : guard.ways place = []) :
    ((Pattern.both (.group 1 guard) ending).ways place).head?.map kept = none := by
  rw [ways, ways, unread]
  rfl

/-- What is read before the word does not count for the side. -/
theorem head?_guarded_of_singleton {read : List Char} {behind : Place}
    (only : guard.ways place = [⟨read, [], behind⟩]) :
    ((Pattern.both (.group 1 guard) ending).ways place).head?.map kept = (word? behind.after).map some := by
  rw [ways, ways, only, List.map_singleton, List.flatMap_singleton, List.head?_map, Option.map_map,
    ← head?_ending behind.before]
  rfl

end

theorem head?_afterDelimiter (before : Option Char) (c : Char) (rest : List Char) :
    ((Pattern.both (.group 1 (.one isDelimiter)) ending).ways ⟨before, c :: rest⟩).head?.map kept =
      (if isDelimiter c then word? rest else none).map some := by
  split
  · next delimiter =>
      have only : (Pattern.one isDelimiter).ways ⟨before, c :: rest⟩ = [⟨[c], [], ⟨some c, rest⟩⟩] := if_pos delimiter
      exact head?_guarded_of_singleton only
  · next plain => exact head?_guarded_of_nil (if_neg plain)

theorem head?_onEdge (before : Option Char) (cs : List Char) :
    ((Pattern.both (.group 1 .edge) ending).ways ⟨before, cs⟩).head?.map kept =
      (if isEdge before cs.head? then word? cs else none).map some := by
  split
  · next edge =>
      have only : Pattern.edge.ways ⟨before, cs⟩ = [⟨[], [], ⟨before, cs⟩⟩] := if_pos edge
      exact head?_guarded_of_singleton only
  · next inside => exact head?_guarded_of_nil (if_neg inside)

/-- The preferred way at a place names the side that matches there. -/
theorem head?_pattern (before : Option Char) (cs : List Char) :
    (pattern.ways ⟨before, cs⟩).head?.map kept = (matchAt? before cs).map some := by
  have parts : pattern.ways ⟨before, cs⟩ =
      (Pattern.both (.group 1 (.one isDelimiter)) ending).ways ⟨before, cs⟩ ++
        (Pattern.both (.group 1 .edge) ending).ways ⟨before, cs⟩ := by
    show List.flatMap _ (List.map _ (_ ++ _)) = _
    rw [List.map_append, List.flatMap_append]
    rfl
  rw [parts, List.head?_append, Option.map_or, head?_onEdge]
  cases cs with
  | nil => rw [matchAt?_nil]; exact congrArg (Option.map some) (ite_self none)
  | cons c rest => rw [head?_afterDelimiter, ← Option.map_or, matchAt?_cons, List.head?_cons]

theorem search_pattern (before : Option Char) (cs : List Char) :
    (pattern.search before cs).map kept = (firstMatch? before cs).map some := by
  induction cs generalizing before with
  | nil => exact head?_pattern before []
  | cons c rest inductionHypothesis =>
      rw [search, firstMatch?, Option.map_or, Option.map_or, head?_pattern, inductionHypothesis]

theorem infer?_eq_search (name : String) : infer? name = (pattern.search none name.toList).bind kept := by
  have found := search_pattern none name.toList
  cases search : pattern.search none name.toList with
  | none =>
      rw [search] at found
      exact Option.map_eq_none_iff.mp found.symm
  | some way =>
      rw [search] at found
      rcases Option.map_eq_some_iff.mp found.symm with ⟨side, here, same⟩
      exact here.trans same

/-- A name tells the side of the first word in it that stands apart, and none if no word does. That is the side found
by a search for the pattern. -/
theorem infer?_leftmost (name : String) :
    (∀ side, infer? name = some side ↔ ∃ position, StandsAt none name.toList side position ∧
      ∀ other earlier, earlier < position → ¬StandsAt none name.toList other earlier) ∧
    (infer? name = none ↔ ∀ side position, ¬StandsAt none name.toList side position) ∧
    infer? name = (pattern.search none name.toList).bind kept := by
  have scanned : infer? name = firstApart? none name.toList := firstMatch?_eq name.toList
  refine ⟨fun side => ?_, ?_, infer?_eq_search name⟩
  · rw [scanned, firstApart?_eq_some_iff]
  · rw [scanned, firstApart?_eq_none_iff]

/-- The first word is none that stands apart, and the two behind it share a delimiter. -/
example : infer? "sinput_output_input" = some .output := by
  decide +kernel

end Wiring.Side
