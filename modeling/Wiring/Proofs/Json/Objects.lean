import Wiring.Json.Record
import Wiring.Proofs.Keyed
import Wiring.Proofs.Steps
import Wiring.Space.Codec

/-!
Contract: objects whose keys differ.

Owns: that putting the keys of such an object in order only moves its entries; what its fields, its tag and the rest
of it are, whatever the order of the entries; and that what stands in a document is nested less deep.

Does not own: objects with repeated keys.
-/

namespace Wiring

namespace Json

variable {entries : List (String × Json)}

/-! ### Keys in order -/

theorem insertSorted_perm {key : String} (fresh : key ∉ Keyed.keys entries) (value : Json) :
    (insertSorted key value entries).Perm ((key, value) :: entries) := by
  induction entries with
  | nil => exact .refl _
  | cons first rest inductionHypothesis =>
      obtain ⟨other, kept⟩ := first
      simp only [Keyed.keys, List.map_cons, List.mem_cons, not_or] at fresh inductionHypothesis
      rw [insertSorted, if_neg fresh.1]
      split
      · exact .refl _
      · exact ((inductionHypothesis fresh.2).cons _).trans (.swap _ _ _)

/-- Entries of different keys are all kept, with their values put in order. -/
theorem sortEntries_perm (distinct : Keyed.DistinctKeys entries) :
    (sortEntries entries).Perm (entries.map fun entry => (entry.1, entry.2.sortKeys)) := by
  induction entries with
  | nil => exact .refl _
  | cons first rest inductionHypothesis =>
      obtain ⟨key, value⟩ := first
      rcases List.nodup_cons.mp distinct with ⟨fresh, distinct⟩
      have sorted := inductionHypothesis distinct
      have unknown : key ∉ Keyed.keys (sortEntries rest) := by
        intro known
        have listed := (sorted.map Prod.fst).mem_iff.mp known
        simp only [List.map_map, Function.comp_def] at listed
        exact fresh listed
      have absent : ¬(sortEntries rest).any (fun entry => entry.1 = key) = true :=
        fun found => unknown ((Keyed.contains_iff_mem_keys _ _).mp found)
      rw [sortEntries, if_neg absent]
      exact (insertSorted_perm unknown _).trans (sorted.cons _)

theorem distinctKeys_sortEntries (distinct : Keyed.DistinctKeys entries) :
    Keyed.DistinctKeys (sortEntries entries) := by
  apply Keyed.DistinctKeys.perm _ (sortEntries_perm distinct).symm
  simpa [Keyed.DistinctKeys, Keyed.keys, Function.comp_def] using distinct

theorem get?_sortEntries (distinct : Keyed.DistinctKeys entries) (key : String) :
    Keyed.get? (sortEntries entries) key = (Keyed.get? entries key).map sortKeys := by
  rw [← Keyed.get?_perm (distinctKeys_sortEntries distinct) (sortEntries_perm distinct)]
  exact Keyed.get?_mapValues (fun _ => sortKeys) entries key

theorem sortItems_eq (items : List Json) : sortItems items = items.map sortKeys := by
  induction items with
  | nil => rfl
  | cons first rest inductionHypothesis => rw [sortItems, List.map_cons, inductionHypothesis]

/-! ### Fields and tags -/

/-- Each named field has the value under its name. -/
theorem fields_object (distinct : Keyed.DistinctKeys entries) (names : List String) :
    fields? names (.object entries) = some (names.map (Keyed.get? entries)) := by
  rw [fields?, option_mapM_eq_some, List.forall₂_map_right_iff, List.forall₂_same]
  intro name _
  rw [Keyed.filter_key distinct]
  cases Keyed.get? entries name <;> rfl

/-- An entry `type` is the tag; the other entries are left for the alternative. -/
theorem tagged_object (distinct : Keyed.DistinctKeys entries) {tag : Json}
    (held : Keyed.get? entries "type" = some tag) (nested : Bool) (names : List String) :
    tagged? nested names (.object entries) =
      (tagIndex? nested names tag).map (·, .object (entries.filter fun entry => entry.1 ≠ "type")) := by
  rw [tagged?, Keyed.filter_key distinct, held]
  rfl

/-- What is left of a tagged document whose keys have been put in order: the other fields, with their values in
order too. -/
structure Remains (fields others : List (String × Json)) : Prop where
  distinct : Keyed.DistinctKeys others
  field : ∀ name, name ≠ "type" → Keyed.get? others name = (Keyed.get? fields name).map sortKeys

theorem tagged_sortKeys {kind : String} {fields : List (String × Json)}
    (distinct : Keyed.DistinctKeys (("type", Json.string kind) :: fields)) (nested : Bool) (names : List String)
    {index : Nat} (known : names.findIdx? (· = kind) = some index) :
    ∃ others, tagged? nested names (sortKeys (.object (("type", .string kind) :: fields))) =
      some (index, .object others) ∧ Remains fields others := by
  have sorted := distinctKeys_sortEntries distinct
  have tag : Keyed.get? (sortEntries (("type", .string kind) :: fields)) "type" = some (.string kind) := by
    rw [get?_sortEntries distinct]
    simp [Keyed.get?, sortKeys]
  refine ⟨_, ?_, sorted.filter fun entry => entry.1 ≠ "type", fun name differ => ?_⟩
  · rw [sortKeys, tagged_object sorted tag, tagIndex?, known]
    rfl
  · have passes : (name == "type") = false := by simpa using differ
    rw [Keyed.get?_filter_ne differ, get?_sortEntries distinct, Keyed.get?, List.lookup_cons, passes]
    rfl

theorem Remains.fields {fields others : List (String × Json)} (remains : Remains fields others) {names : List String}
    (untagged : "type" ∉ names) :
    fields? names (.object others) = some (names.map fun name => (Keyed.get? fields name).map sortKeys) := by
  rw [fields_object remains.distinct, List.map_congr_left]
  intro name listed
  apply remains.field
  rintro rfl
  exact untagged listed

/-! ### Depth -/

theorem depth_lt_of_item {item : Json} {items : List Json} (listed : item ∈ items) :
    item.depth < (Json.array items).depth := by
  rw [depth]
  induction items with
  | nil => cases listed
  | cons first rest inductionHypothesis =>
      rw [itemsDepth]
      rcases List.mem_cons.mp listed with rfl | later
      · omega
      · have below := inductionHypothesis later
        omega

theorem depth_lt_of_entry {entry : String × Json} (listed : entry ∈ entries) :
    entry.2.depth < (Json.object entries).depth := by
  rw [depth]
  induction entries with
  | nil => cases listed
  | cons first rest inductionHypothesis =>
      rw [entriesDepth]
      rcases List.mem_cons.mp listed with rfl | later
      · omega
      · have below := inductionHypothesis later
        omega

end Json

end Wiring
