import Mathlib.Logic.Basic
import Mathlib.Logic.Relation
import Wiring.Proofs.Space.Keys

/-!
Contract: spaces by their parts.

Owns: `Part`, by which a space stands directly in another one, with the induction over it; `WellFormed`, what
spaces have that are made of collections; `Recoverable`, the condition on keys and empty containers under which
a space can be told from its flat form; and `Settled`, the same by the form of the space.

Does not own: that recoverable spaces are recovered.
-/

namespace Wiring

open Relation (ReflTransGen TransGen)

namespace Space

/-! ### Parts -/

/-- The first space stands directly in the second one. -/
inductive Part : Space → Space → Prop where
  | entry (key : String) (inner : Space) (entries : List (String × Space)) (listed : (key, inner) ∈ entries) :
      Part inner (.dict entries)
  | part (inner : Space) (parts : List Space) (listed : inner ∈ parts) : Part inner (.tuple parts)

/-- The first space is the second one or stands somewhere in it. -/
abbrev Within : Space → Space → Prop :=
  ReflTransGen Part

/-- The first space stands somewhere in the second one. -/
abbrev Nested : Space → Space → Prop :=
  TransGen Part

/-- The keys of a dict differ from each other, and the parts of a tuple can be counted with sixty-four bits. -/
structure WellFormed (space : Space) : Prop where
  distinct : ∀ entries, Within (.dict entries) space → Keyed.DistinctKeys entries
  counted : ∀ parts, Within (.tuple parts) space → parts.length ≤ 2 ^ 64

/-- No key has a slash, nothing inside is empty, and no dict could be taken for a tuple. -/
structure Recoverable (space : Space) : Prop where
  separators : ∀ entries, Within (.dict entries) space → ∀ key ∈ Keyed.keys entries, '/' ∉ key.toList
  filled : ∀ inner, Nested inner space → inner ≠ .dict [] ∧ inner ≠ .tuple []
  top : space ≠ .tuple []
  named : ∀ entries, Within (.dict entries) space → entries ≠ [] →
    ¬ ∀ key ∈ Keyed.keys entries, FlatKey.IsNumbered key

theorem Part.sizeOf_lt {inner outer : Space} (isPart : Part inner outer) : sizeOf inner < sizeOf outer := by
  cases isPart with
  | entry key inner entries listed =>
      have smaller := List.sizeOf_lt_of_mem listed
      simp only [Prod.mk.sizeOf_spec, dict.sizeOf_spec] at smaller ⊢
      omega
  | part inner parts listed =>
      have smaller := List.sizeOf_lt_of_mem listed
      simp only [tuple.sizeOf_spec]
      omega

/-- What a space has whenever its parts have it holds of every space. -/
theorem induct {holds : Space → Prop} (step : ∀ space, (∀ inner, Part inner space → holds inner) → holds space)
    (space : Space) : holds space :=
  step space fun inner _ => induct step inner
termination_by sizeOf space
decreasing_by exact Part.sizeOf_lt ‹_›

theorem WellFormed.part {inner outer : Space} (wellFormed : outer.WellFormed) (isPart : Part inner outer) :
    inner.WellFormed where
  distinct entries within := wellFormed.distinct entries (within.tail isPart)
  counted parts within := wellFormed.counted parts (within.tail isPart)

theorem within_box {inner : Space} {leaf : Box} : Within inner (.box leaf) ↔ inner = .box leaf := by
  constructor
  · intro within
    rcases ReflTransGen.cases_tail within with same | ⟨_, _, isPart⟩
    · exact same.symm
    · cases isPart
  · rintro rfl
    exact .refl

theorem within_dict {inner : Space} {entries : List (String × Space)} :
    Within inner (.dict entries) ↔ inner = .dict entries ∨ ∃ entry ∈ entries, Within inner entry.2 := by
  constructor
  · intro within
    rcases ReflTransGen.cases_tail within with same | ⟨_, deeper, isPart⟩
    · exact .inl same.symm
    · cases isPart with
      | entry key middle _ listed => exact .inr ⟨_, listed, deeper⟩
  · rintro (rfl | ⟨entry, listed, deeper⟩)
    · exact .refl
    · exact deeper.tail (.entry entry.1 entry.2 entries listed)

theorem within_tuple {inner : Space} {parts : List Space} :
    Within inner (.tuple parts) ↔ inner = .tuple parts ∨ ∃ part ∈ parts, Within inner part := by
  constructor
  · intro within
    rcases ReflTransGen.cases_tail within with same | ⟨_, deeper, isPart⟩
    · exact .inl same.symm
    · cases isPart with
      | part middle _ listed => exact .inr ⟨_, listed, deeper⟩
  · rintro (rfl | ⟨part, listed, deeper⟩)
    · exact .refl
    · exact deeper.tail (.part part parts listed)

namespace WellFormed

theorem box (leaf : Box) : WellFormed (.box leaf) where
  distinct entries within := by cases within_box.mp within
  counted parts within := by cases within_box.mp within

theorem dict {entries : List (String × Space)} (distinct : Keyed.DistinctKeys entries)
    (each : ∀ entry ∈ entries, WellFormed entry.2) : WellFormed (.dict entries) where
  distinct others within := by
    rcases within_dict.mp within with same | ⟨entry, listed, deeper⟩
    · exact Space.dict.inj same ▸ distinct
    · exact (each entry listed).distinct others deeper
  counted parts within := by
    rcases within_dict.mp within with same | ⟨entry, listed, deeper⟩
    · cases same
    · exact (each entry listed).counted parts deeper

theorem tuple {parts : List Space} (counted : parts.length ≤ 2 ^ 64) (each : ∀ part ∈ parts, WellFormed part) :
    WellFormed (.tuple parts) where
  distinct entries within := by
    rcases within_tuple.mp within with same | ⟨part, listed, deeper⟩
    · cases same
    · exact (each part listed).distinct entries deeper
  counted others within := by
    rcases within_tuple.mp within with same | ⟨part, listed, deeper⟩
    · exact Space.tuple.inj same ▸ counted
    · exact (each part listed).counted others deeper

end WellFormed

/-! ### Recoverable spaces by their form -/

/-- A space that is recoverable and no empty container, seen from the top. -/
inductive Settled : Space → Prop where
  | box (leaf : Box) : Settled (.box leaf)
  | dict (entries : List (String × Space)) (filled : entries ≠ [])
      (separators : ∀ entry ∈ entries, '/' ∉ entry.1.toList)
      (named : ∃ entry ∈ entries, FlatKey.bracketed? entry.1 = none)
      (settled : ∀ entry ∈ entries, Settled entry.2) : Settled (.dict entries)
  | tuple (parts : List Space) (filled : parts ≠ []) (settled : ∀ part ∈ parts, Settled part) :
      Settled (.tuple parts)

theorem exists_unnumbered_iff {entries : List (String × Space)} :
    (∃ entry ∈ entries, FlatKey.bracketed? entry.1 = none) ↔
      ¬ ∀ key ∈ Keyed.keys entries, FlatKey.IsNumbered key := by
  simp only [Keyed.keys, List.mem_map, ← FlatKey.isSome_bracketed?_iff, not_forall, Option.not_isSome_iff_eq_none]
  constructor
  · rintro ⟨entry, listed, unread⟩
    exact ⟨entry.1, ⟨entry, listed, rfl⟩, unread⟩
  · rintro ⟨_, ⟨entry, listed, rfl⟩, unread⟩
    exact ⟨entry, listed, unread⟩

theorem Settled.part {inner outer : Space} (settled : outer.Settled) (isPart : Part inner outer) : inner.Settled := by
  cases isPart with
  | entry key inner entries listed =>
      cases settled with
      | dict _ _ _ _ below => exact below _ listed
  | part inner parts listed =>
      cases settled with
      | tuple _ _ below => exact below _ listed

theorem Settled.within {inner outer : Space} (settled : outer.Settled) (within : Within inner outer) :
    inner.Settled := by
  induction within with
  | refl => exact settled
  | tail _ isPart inductionHypothesis => exact inductionHypothesis (settled.part isPart)

/-- Without empty containers the conditions are those of the form. -/
theorem settled_of_filled {space : Space}
    (separators : ∀ entries, Within (.dict entries) space → ∀ key ∈ Keyed.keys entries, '/' ∉ key.toList)
    (filled : ∀ inner, Within inner space → inner ≠ .dict [] ∧ inner ≠ .tuple [])
    (named : ∀ entries, Within (.dict entries) space → entries ≠ [] →
      ¬ ∀ key ∈ Keyed.keys entries, FlatKey.IsNumbered key) : space.Settled := by
  induction space using induct with
  | step space inductionHypothesis =>
      have below (inner : Space) (isPart : Part inner space) : inner.Settled :=
        inductionHypothesis inner isPart (fun entries within => separators entries (within.tail isPart))
          (fun other within => filled other (within.tail isPart))
          (fun entries within => named entries (within.tail isPart))
      cases space with
      | box leaf => exact .box leaf
      | dict entries =>
          have nonempty : entries ≠ [] := by
            rintro rfl
            exact (filled _ .refl).1 rfl
          refine .dict entries nonempty (fun entry listed => ?_) (exists_unnumbered_iff.mpr (named entries .refl nonempty))
            fun entry listed => below _ (.entry entry.1 entry.2 entries listed)
          exact separators entries .refl entry.1 (List.mem_map.mpr ⟨entry, listed, rfl⟩)
      | tuple parts =>
          refine .tuple parts ?_ fun part listed => below _ (.part part parts listed)
          rintro rfl
          exact (filled _ .refl).2 rfl

theorem Recoverable.of_settled {space : Space} (settled : space.Settled) : space.Recoverable where
  separators entries within key listed := by
    rcases List.mem_map.mp listed with ⟨entry, member, rfl⟩
    cases settled.within within with
    | dict _ _ separators => exact separators entry member
  filled inner nested := by
    have inside := settled.within nested.to_reflTransGen
    constructor
    · rintro rfl
      cases inside with
      | dict _ filled => exact filled rfl
    · rintro rfl
      cases inside with
      | tuple _ filled => exact filled rfl
  top := by
    rintro rfl
    cases settled with
    | tuple _ filled => exact filled rfl
  named entries within _ := by
    cases settled.within within with
    | dict _ _ _ named => exact exists_unnumbered_iff.mp named

theorem recoverable_iff {space : Space} : space.Recoverable ↔ space = .dict [] ∨ space.Settled := by
  constructor
  · intro recoverable
    by_cases empty : space = .dict []
    · exact .inl empty
    · refine .inr (settled_of_filled recoverable.separators (fun inner within => ?_) recoverable.named)
      rcases Relation.reflTransGen_iff_eq_or_transGen.mp within with same | nested
      · exact same ▸ ⟨empty, recoverable.top⟩
      · exact recoverable.filled inner nested
  · rintro (rfl | settled)
    · have alone {inner : Space} (within : Within inner (.dict [])) : inner = .dict [] := by
        rcases within_dict.mp within with same | ⟨_, listed, -⟩
        · exact same
        · cases listed
      refine ⟨fun entries within key listed => ?_, fun inner nested => ?_, nofun, fun entries within nonempty => ?_⟩
      · obtain rfl := Space.dict.inj (alone within)
        cases listed
      · rcases Relation.TransGen.tail'_iff.mp nested with ⟨_, _, isPart⟩
        cases isPart with
        | entry key inner entries listed => cases listed
      · exact absurd (Space.dict.inj (alone within)) nonempty
    · exact .of_settled settled

end Space

end Wiring
