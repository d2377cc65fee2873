import Wiring.Proofs.Keyed
import Wiring.Proofs.Space.Parts
import Wiring.Proofs.Steps
import Wiring.Space.Codec

/-!
Contract: spaces that are the same as themselves.

Owns: that a double which is a number equals itself; `Numeric`, the spaces whose bounds are numbers, and `Distinct`,
those in whose dicts no key stands twice, which together are the same as themselves; and that a specification only
describes spaces of the second kind.

Does not own: which spaces are the same as other ones.
-/

namespace Wiring

/-- Only what is no number differs from itself. -/
theorem beq_self_of_isNaN_eq_false {value : Float} (number : value.isNaN = false) : (value == value) = true := by
  -- Comparison is that of the unpacked numbers, by sign, exponent and mantissa.
  change value.toModel.unpack.isNaN = false at number
  change (value.toModel.unpack.compare value.toModel.unpack == some .eq) = true
  cases unpacked : value.toModel.unpack with
  | notANumber =>
      rw [unpacked] at number
      cases number
  | infinity sign => cases sign <;> rfl
  | zero sign => cases sign <;> rfl
  | finite sign mantissa exponent positive =>
      have equal : (compare exponent exponent).then (compare mantissa mantissa) = .eq := by
        rw [Std.compare_self, Std.compare_self]
        rfl
      cases sign with
      | positive =>
          change (some ((compare exponent exponent).then (compare mantissa mantissa)) == some .eq) = true
          rw [equal]
          rfl
      | negative =>
          change (some ((compare exponent exponent).then (compare mantissa mantissa)).swap == some .eq) = true
          rw [equal]
          rfl

namespace Box

/-- The bounds are numbers, where there are any. -/
structure Numeric (leaf : Box) : Prop where
  low : ∀ bound ∈ leaf.low, bound.isNaN = false
  high : ∀ bound ∈ leaf.high, bound.isNaN = false

theorem sameBound_self {bound : Option Float} (number : ∀ value ∈ bound, value.isNaN = false) :
    sameBound bound bound = true := by
  cases bound with
  | none => rfl
  | some value => exact beq_self_of_isNaN_eq_false (number value rfl)

theorem same_self {leaf : Box} (numeric : leaf.Numeric) : leaf.same leaf = true := by
  simp [same, sameBound_self numeric.low, sameBound_self numeric.high]

end Box

namespace Space

/-- The bounds of every box are numbers. -/
def Numeric (space : Space) : Prop :=
  ∀ leaf, Within (.box leaf) space → leaf.Numeric

/-- No key stands twice in a dict. -/
def Distinct (space : Space) : Prop :=
  ∀ entries, Within (.dict entries) space → Keyed.DistinctKeys entries

theorem Numeric.part {inner outer : Space} (numeric : outer.Numeric) (isPart : Part inner outer) : inner.Numeric :=
  fun leaf within => numeric leaf (within.tail isPart)

theorem Distinct.part {inner outer : Space} (distinct : outer.Distinct) (isPart : Part inner outer) :
    inner.Distinct :=
  fun entries within => distinct entries (within.tail isPart)

/-! ### A space and itself -/

theorem sameEntries_eq_true {entries others : List (String × Space)}
    (each : ∀ entry ∈ entries, ∃ other, Keyed.get? others entry.1 = some other ∧ entry.2.same other = true) :
    sameEntries entries others = true := by
  induction entries with
  | nil => rfl
  | cons first rest inductionHypothesis =>
      rw [List.forall_mem_cons] at each
      rcases each with ⟨⟨other, found, equal⟩, each⟩
      change others.lookup first.1 = some other at found
      simp [sameEntries, found, equal, inductionHypothesis each]

theorem sameParts_self {parts : List Space} (each : ∀ part ∈ parts, part.same part = true) :
    sameParts parts parts = true := by
  induction parts with
  | nil => rfl
  | cons first rest inductionHypothesis =>
      rw [List.forall_mem_cons] at each
      simp [sameParts, each.1, inductionHypothesis each.2]

/-- A repeated key is found at its first place only, and a bound that is no number is found nowhere. -/
theorem same_self {space : Space} (distinct : space.Distinct) (numeric : space.Numeric) :
    space.same space = true := by
  induction space using induct with
  | step space inductionHypothesis =>
      have below (inner : Space) (isPart : Part inner space) : inner.same inner = true :=
        inductionHypothesis inner isPart (distinct.part isPart) (numeric.part isPart)
      cases space with
      | box leaf => exact Box.same_self (numeric leaf .refl)
      | dict entries =>
          have found : sameEntries entries entries = true := sameEntries_eq_true fun entry listed =>
            ⟨entry.2, Keyed.get?_of_mem (distinct entries .refl) listed,
              below entry.2 (.entry entry.1 entry.2 entries listed)⟩
          simp [same, found]
      | tuple parts => exact sameParts_self fun part listed => below part (.part part parts listed)

theorem numeric_box {leaf : Box} (numeric : leaf.Numeric) : Numeric (.box leaf) := by
  intro other within
  cases within_box.mp within
  exact numeric

theorem numeric_dict {entries : List (String × Space)} (each : ∀ entry ∈ entries, entry.2.Numeric) :
    Numeric (.dict entries) := by
  intro leaf within
  rcases within_dict.mp within with same | ⟨entry, listed, deeper⟩
  · cases same
  · exact each entry listed leaf deeper

/-! ### Described spaces -/

theorem distinct_box (leaf : Box) : Distinct (.box leaf) := by
  intro entries within
  cases within_box.mp within

theorem distinct_dictOf {pairs : List (String × Space)} (each : ∀ pair ∈ pairs, pair.2.Distinct) :
    (dictOf pairs).Distinct := by
  intro entries within
  rcases within_dict.mp within with same | ⟨entry, listed, deeper⟩
  · exact Space.dict.inj same ▸ Keyed.distinctKeys_ofList pairs
  · exact each entry (Keyed.mem_ofList listed) entries deeper

theorem distinct_tuple {parts : List Space} (each : ∀ part ∈ parts, part.Distinct) : (tuple parts).Distinct := by
  intro entries within
  rcases within_tuple.mp within with same | ⟨part, listed, deeper⟩
  · cases same
  · exact each part listed entries deeper

theorem distinct_ofJson {fuel : Nat} {nested : Bool} {json : Json} {space : Space}
    (read : ofJson? fuel nested json = some space) : space.Distinct := by
  induction fuel generalizing nested json space with
  | zero => cases read
  | succ fuel inductionHypothesis =>
      rw [ofJson?] at read
      rcases Option.bind_eq_some_iff.mp read with ⟨⟨kind, rest⟩, -, read⟩
      by_cases isBox : kind = 0
      · simp only [if_pos isBox] at read
        rcases Option.bind_eq_some_iff.mp read with ⟨leaf, -, same⟩
        exact Option.some.inj same ▸ distinct_box leaf
      · simp only [if_neg isBox] at read
        rcases Option.bind_eq_some_iff.mp read with ⟨fields, -, read⟩
        split at read
        next spaces =>
          by_cases isDict : kind = 1
          · simp only [if_pos isDict, Option.bind_eq_bind, Option.bind_some] at read
            split at read
            next entries =>
              rcases Option.bind_eq_some_iff.mp read with ⟨pairs, each, same⟩
              refine Option.some.inj same ▸ distinct_dictOf fun pair listed => ?_
              rcases forall₂_of_mem_right (option_mapM_eq_some.mp each) listed with ⟨entry, -, entryRead⟩
              rcases Option.map_eq_some_iff.mp entryRead with ⟨inner, innerRead, rfl⟩
              exact inductionHypothesis innerRead
            next => cases read
          · simp only [if_neg isDict, Option.bind_eq_bind, Option.bind_some] at read
            split at read
            next items =>
              rcases Option.map_eq_some_iff.mp read with ⟨parts, each, rfl⟩
              refine distinct_tuple fun part listed => ?_
              rcases forall₂_of_mem_right (option_mapM_eq_some.mp each) listed with ⟨item, -, itemRead⟩
              exact inductionHypothesis itemRead
            next => cases read
        next => cases read

/-- In a described space no key stands twice in a dict. -/
theorem distinct_ofSpec {spec : Json} {space : Space} (described : ofSpec spec = .ok space) : space.Distinct := by
  unfold ofSpec at described
  split at described
  · exact Except.ok.inj described ▸ distinct_box _
  · exact Except.ok.inj described ▸ distinct_box _
  · exact Except.ok.inj described ▸ distinct_box _
  · cases described
  · split at described
    next read => exact Except.ok.inj described ▸ distinct_ofJson read
    next => cases described

end Space

end Wiring
