import Mathlib.Data.List.Nodup
import Wiring.Proofs.Keyed
import Wiring.Proofs.Space.Parts

/-!
Contract: the leaves of spaces that come back from their flat form.

Owns: `entriesOf`, dicts and tuples alike as lists of entries; `Fit`, the spaces that are settled and made of
well-formed collections, with the induction over their entries; and that the flat keys of their leaves differ
and begin with the keys on the way.

Does not own: trees.
-/

namespace Wiring.Space

open FlatKey (bracket bracketed? path)

/-! ### Containers by their entries -/

/-- The parts of a tuple as entries. -/
def numbered (index : Nat) : List Space → List (String × Space)
  | [] => []
  | space :: rest => (bracket index, space) :: numbered (index + 1) rest

/-- The entries of a container; a box has none. -/
def entriesOf : Space → List (String × Space)
  | .box _ => []
  | .dict entries => entries
  | .tuple parts => numbered 0 parts

theorem partLeaves_eq (stem : String) (index : Nat) (parts : List Space) :
    partLeaves stem index parts = entryLeaves stem (numbered index parts) := by
  induction parts generalizing index with
  | nil => rfl
  | cons space rest inductionHypothesis =>
      rw [partLeaves, numbered, entryLeaves, inductionHypothesis, FlatKey.part_eq_entry]

theorem leavesUnder_container {space : Space} (container : space.isContainer = true) (stem : String) :
    leavesUnder stem space = entryLeaves stem space.entriesOf := by
  cases space with
  | box leaf => cases container
  | dict entries => rfl
  | tuple parts => exact partLeaves_eq stem 0 parts

mutual

/-- What stands in front of a stem stands in front of the keys of all leaves. -/
theorem leavesUnder_append (front stem : String) : ∀ space, leavesUnder (front ++ stem) space =
    (leavesUnder stem space).map fun leaf => (front ++ leaf.1, leaf.2)
  | .box _ => rfl
  | .dict entries => entryLeaves_append front stem entries
  | .tuple parts => partLeaves_append front stem 0 parts

theorem entryLeaves_append (front stem : String) : ∀ entries, entryLeaves (front ++ stem) entries =
    (entryLeaves stem entries).map fun leaf => (front ++ leaf.1, leaf.2)
  | [] => rfl
  | (key, space) :: rest => by
      have same : FlatKey.entry (front ++ stem) key = front ++ FlatKey.entry stem key := by
        simp only [FlatKey.entry, String.append_assoc]
      rw [entryLeaves, entryLeaves, List.map_append, same, leavesUnder_append front _ space,
        entryLeaves_append front stem rest]

theorem partLeaves_append (front stem : String) (index : Nat) : ∀ parts, partLeaves (front ++ stem) index parts =
    (partLeaves stem index parts).map fun leaf => (front ++ leaf.1, leaf.2)
  | [] => rfl
  | space :: rest => by
      have same : FlatKey.part (front ++ stem) index = front ++ FlatKey.part stem index := by
        simp only [FlatKey.part, String.append_assoc]
      rw [partLeaves, partLeaves, List.map_append, same, leavesUnder_append front _ space,
        partLeaves_append front stem (index + 1) rest]

end

theorem mem_numbered {index : Nat} {parts : List Space} {entry : String × Space}
    (listed : entry ∈ numbered index parts) :
    entry.2 ∈ parts ∧ ∃ offset, offset < parts.length ∧ entry.1 = bracket (index + offset) := by
  induction parts generalizing index with
  | nil => cases listed
  | cons space rest inductionHypothesis =>
      rcases List.mem_cons.mp listed with rfl | later
      · exact ⟨List.mem_cons_self, 0, Nat.zero_lt_succ _, rfl⟩
      · rcases inductionHypothesis later with ⟨member, offset, bounded, named⟩
        refine ⟨List.mem_cons_of_mem _ member, offset + 1, Nat.succ_lt_succ bounded, ?_⟩
        rw [named, Nat.add_assoc, Nat.add_comm 1]

/-- Numbers that can be read differ. -/
theorem distinctKeys_numbered {index : Nat} {parts : List Space} (bounded : index + parts.length ≤ 2 ^ 64) :
    Keyed.DistinctKeys (numbered index parts) := by
  induction parts generalizing index with
  | nil => exact List.nodup_nil
  | cons space rest inductionHypothesis =>
      rw [List.length_cons] at bounded
      refine List.nodup_cons.mpr ⟨fun repeated => ?_, inductionHypothesis (by omega)⟩
      rcases List.mem_map.mp repeated with ⟨entry, listed, same⟩
      rcases (mem_numbered listed).2 with ⟨offset, offsetBounded, named⟩
      have same : bracket (index + 1 + offset) = bracket index := named.symm.trans same
      have read := FlatKey.bracketed?_bracket (show index < 2 ^ 64 by omega)
      rw [← same, FlatKey.bracketed?_bracket (by omega)] at read
      have equal := Option.some.inj read
      omega

/-! ### Spaces that come back -/

/-- A settled space of which the collections are well formed. -/
structure Fit (space : Space) : Prop where
  settled : space.Settled
  wellFormed : space.WellFormed

/-- Entries that tell apart. -/
structure Branching (entries : List (String × Space)) : Prop where
  filled : entries ≠ []
  separators : ∀ entry ∈ entries, '/' ∉ entry.1.toList
  distinct : Keyed.DistinctKeys entries

theorem Fit.branching {space : Space} (fit : space.Fit) (container : space.isContainer = true) :
    Branching space.entriesOf ∧ ∀ entry ∈ space.entriesOf, Fit entry.2 := by
  cases fit.settled with
  | box leaf => cases container
  | dict entries filled separators named settled =>
      refine ⟨⟨filled, separators, fit.wellFormed.distinct entries .refl⟩, fun entry listed => ?_⟩
      exact ⟨settled entry listed, fit.wellFormed.part (.entry entry.1 entry.2 entries listed)⟩
  | tuple parts filled settled =>
      have counted := fit.wellFormed.counted parts .refl
      refine ⟨⟨?_, fun entry listed => ?_, distinctKeys_numbered (by omega)⟩, fun entry listed => ?_⟩
      · cases parts with
        | nil => exact absurd rfl filled
        | cons first rest => exact List.cons_ne_nil _ _
      · rcases (mem_numbered listed).2 with ⟨offset, -, named⟩
        exact named ▸ FlatKey.slash_notMem_bracket _
      · have member := (mem_numbered listed).1
        exact ⟨settled _ member, fit.wellFormed.part (.part entry.2 parts member)⟩

/-- What boxes have, and containers whose entries have it, holds of every fit space. -/
theorem Fit.induct {holds : ∀ space : Space, space.Fit → Prop} (box : ∀ leaf fit, holds (.box leaf) fit)
    (container : ∀ space (fit : space.Fit), space.isContainer = true → Branching space.entriesOf →
      (fits : ∀ entry ∈ space.entriesOf, Fit entry.2) →
      (∀ entry, ∀ listed : entry ∈ space.entriesOf, holds entry.2 (fits entry listed)) → holds space fit)
    {space : Space} (fit : space.Fit) : holds space fit := by
  induction space using Space.induct with
  | step space inductionHypothesis =>
      cases known : space.isContainer with
      | false =>
          cases space with
          | box leaf => exact box leaf fit
          | dict entries => cases known
          | tuple parts => cases known
      | true =>
          rcases fit.branching known with ⟨branching, fits⟩
          refine container space fit known branching fits fun entry listed => ?_
          refine inductionHypothesis entry.2 ?_ (fits entry listed)
          cases space with
          | box leaf => cases known
          | dict entries => exact .entry entry.1 entry.2 entries listed
          | tuple parts => exact .part entry.2 parts (mem_numbered listed).1

/-! ### The keys of leaves -/

theorem mem_entryLeaves {stem : String} {entries : List (String × Space)} {leaf : String × Box} :
    leaf ∈ entryLeaves stem entries ↔
      ∃ entry ∈ entries, leaf ∈ leavesUnder (FlatKey.entry stem entry.1) entry.2 := by
  induction entries with
  | nil => simp [entryLeaves]
  | cons first rest inductionHypothesis =>
      rw [entryLeaves, List.mem_append, inductionHypothesis, List.exists_mem_cons_iff]

theorem keys_flatSpaces (space : Space) : Keyed.keys space.flatSpaces = Keyed.keys space.flatten := by
  rw [flatSpaces, Keyed.keys, Keyed.keys, List.map_map]
  rfl

/-- The keys of the leaves of a container are longer than its own. -/
theorem notMem_keys_flatten {space : Space} (container : space.isContainer = true) :
    "" ∉ Keyed.keys space.flatten := by
  intro known
  rcases List.mem_map.mp (Keyed.mem_keys_ofList.mp known) with ⟨leaf, listed, empty⟩
  rw [leavesUnder_container container] at listed
  rcases mem_entryLeaves.mp listed with ⟨entry, -, own⟩
  rw [← String.append_empty (s := FlatKey.entry "" entry.1), leavesUnder_append] at own
  rcases List.mem_map.mp own with ⟨below, -, rfl⟩
  have letters := congrArg String.toList empty
  simp [FlatKey.entry, String.toList_append] at letters

/-- An entry's leaves are below the entry. -/
theorem path_entryLeaves {entries : List (String × Space)} (separators : ∀ entry ∈ entries, '/' ∉ entry.1.toList)
    (below : ∀ entry ∈ entries, ∀ stem, ∀ leaf ∈ leavesUnder stem entry.2, path stem <+: path leaf.1)
    (stem : String) : ∀ leaf ∈ entryLeaves stem entries, ∃ entry ∈ entries, path stem ++ [entry.1] <+: path leaf.1 := by
  intro leaf listed
  rcases mem_entryLeaves.mp listed with ⟨entry, member, own⟩
  refine ⟨entry, member, ?_⟩
  rw [← FlatKey.path_entry stem (separators entry member)]
  exact below entry member _ leaf own

theorem Fit.path_leavesUnder {space : Space} (fit : space.Fit) :
    ∀ stem, ∀ leaf ∈ leavesUnder stem space, path stem <+: path leaf.1 := by
  induction fit using Fit.induct with
  | box leaf _ =>
      intro stem other listed
      obtain rfl := List.mem_singleton.mp listed
      exact List.prefix_rfl
  | container space _ known branching fits inductionHypothesis =>
      intro stem leaf listed
      rw [leavesUnder_container known] at listed
      rcases path_entryLeaves branching.separators inductionHypothesis stem leaf listed with ⟨entry, -, isPrefix⟩
      exact (List.prefix_append _ _).trans isPrefix

theorem nodup_entryLeaves {entries : List (String × Space)} (separators : ∀ entry ∈ entries, '/' ∉ entry.1.toList)
    (distinct : Keyed.DistinctKeys entries) (fits : ∀ entry ∈ entries, Fit entry.2)
    (each : ∀ entry ∈ entries, ∀ stem, Keyed.DistinctKeys (leavesUnder stem entry.2)) (stem : String) :
    Keyed.DistinctKeys (entryLeaves stem entries) := by
  induction entries with
  | nil => exact List.nodup_nil
  | cons first rest inductionHypothesis =>
      obtain ⟨key, space⟩ := first
      rcases List.nodup_cons.mp distinct with ⟨notRepeated, distinct⟩
      have restSeparators : ∀ entry ∈ rest, '/' ∉ entry.1.toList :=
        fun entry member => separators entry (List.mem_cons_of_mem _ member)
      have restFits : ∀ entry ∈ rest, Fit entry.2 := fun entry member => fits entry (List.mem_cons_of_mem _ member)
      unfold Keyed.DistinctKeys Keyed.keys
      rw [entryLeaves, List.map_append, List.nodup_append]
      refine ⟨each _ List.mem_cons_self _, inductionHypothesis restSeparators distinct restFits
        fun entry member => each entry (List.mem_cons_of_mem _ member), ?_⟩
      -- A key in both parts would have the path of the first entry and that of a later one.
      rintro left own _ later rfl
      rcases List.mem_map.mp own with ⟨leaf, leafListed, rfl⟩
      rcases List.mem_map.mp later with ⟨other, otherListed, same⟩
      have first := (fits _ List.mem_cons_self).path_leavesUnder _ leaf leafListed
      rw [FlatKey.path_entry stem (separators _ List.mem_cons_self)] at first
      rcases path_entryLeaves restSeparators (fun entry member => (restFits entry member).path_leavesUnder) stem other
        otherListed with ⟨entry, entryListed, second⟩
      rw [same] at second
      have equal := (List.prefix_of_prefix_length_le first second (by simp)).eq_of_length (by simp)
      have equal : key = entry.1 := by simpa using equal
      exact notRepeated (List.mem_map.mpr ⟨entry, entryListed, equal.symm⟩)

theorem Fit.distinctKeys_leavesUnder {space : Space} (fit : space.Fit) :
    ∀ stem, Keyed.DistinctKeys (leavesUnder stem space) := by
  induction fit using Fit.induct with
  | box leaf _ => exact fun stem => List.nodup_singleton _
  | container space _ known branching fits inductionHypothesis =>
      intro stem
      rw [leavesUnder_container known]
      exact nodup_entryLeaves branching.separators branching.distinct fits inductionHypothesis stem

theorem Fit.leavesUnder_ne_nil {space : Space} (fit : space.Fit) : ∀ stem, leavesUnder stem space ≠ [] := by
  induction fit using Fit.induct with
  | box leaf _ => exact fun stem => List.cons_ne_nil _ _
  | container space _ known branching fits inductionHypothesis =>
      intro stem
      rw [leavesUnder_container known]
      cases entries : space.entriesOf with
      | nil => exact absurd entries branching.filled
      | cons first rest =>
          rw [entryLeaves]
          refine List.append_ne_nil_of_left_ne_nil (inductionHypothesis first ?_ _) _
          rw [entries]
          exact List.mem_cons_self

theorem Fit.flatten_eq {space : Space} (fit : space.Fit) : space.flatten = leavesUnder "" space :=
  Keyed.ofList_of_distinctKeys (fit.distinctKeys_leavesUnder "")

end Wiring.Space
