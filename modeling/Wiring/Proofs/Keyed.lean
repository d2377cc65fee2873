import Mathlib.Data.List.Forall2
import Mathlib.Data.List.Perm.Subperm
import Mathlib.Tactic.Tauto
import Wiring.Keyed

/-!
Contract: lookups in keyed collections.

Owns: which entries and keys an insertion leaves; what is found in a collection whose keys differ, also where its
entries are moved or some of them are dropped; and `mapValues`, which changes the values under their keys, with what
is found and inserted then.
-/

namespace Wiring.Keyed

variable {α : Type}

theorem insert_insert (key : String) (first second : α) (entries : Keyed α) :
    insert key second (insert key first entries) = insert key second entries := by
  induction entries with
  | nil => simp [insert]
  | cons entry rest inductionHypothesis =>
      obtain ⟨other, kept⟩ := entry
      by_cases same : other = key
      · simp [insert, same]
      · simp [insert, same, inductionHypothesis]

theorem get?_eq_none {entries : Keyed α} {key : String} (absent : key ∉ keys entries) :
    get? entries key = none := by
  rw [get?, List.lookup_eq_none_iff]
  intro entry listed
  rw [bne_iff_ne]
  rintro rfl
  exact absent (List.mem_map.mpr ⟨entry, listed, rfl⟩)

theorem mem_insert {key : String} {value : α} {entries : Keyed α} {entry : String × α}
    (listed : entry ∈ insert key value entries) : entry = (key, value) ∨ entry ∈ entries := by
  induction entries with
  | nil => exact .inl (List.mem_singleton.mp listed)
  | cons first rest inductionHypothesis =>
      rw [insert] at listed
      split at listed
      · rcases List.mem_cons.mp listed with same | later
        · exact .inl same
        · exact .inr (List.mem_cons_of_mem _ later)
      · rcases List.mem_cons.mp listed with same | later
        · exact .inr (same ▸ List.mem_cons_self)
        · exact (inductionHypothesis later).imp_right (List.mem_cons_of_mem _)

theorem mem_extend {entries : Keyed α} {more : List (String × α)} {entry : String × α}
    (listed : entry ∈ extend entries more) : entry ∈ entries ∨ entry ∈ more := by
  unfold extend at listed
  induction more generalizing entries with
  | nil => exact .inl listed
  | cons first rest inductionHypothesis =>
      rcases inductionHypothesis listed with known | later
      · rcases mem_insert known with rfl | old
        · exact .inr List.mem_cons_self
        · exact .inl old
      · exact .inr (List.mem_cons_of_mem first later)

theorem mem_ofList {pairs : List (String × α)} {entry : String × α} (listed : entry ∈ ofList pairs) :
    entry ∈ pairs :=
  (mem_extend listed).resolve_left List.not_mem_nil

theorem mem_keys_insert {key asked : String} {value : α} {entries : Keyed α} :
    asked ∈ keys (insert key value entries) ↔ asked = key ∨ asked ∈ keys entries := by
  rw [keys_insert]
  split
  next known => exact ⟨.inr, fun listed => listed.elim (fun same => same ▸ known) id⟩
  next => rw [List.mem_append, List.mem_singleton, or_comm]

theorem mem_keys_extend {key : String} {entries : Keyed α} {more : List (String × α)} :
    key ∈ keys (extend entries more) ↔ key ∈ keys entries ∨ key ∈ more.map Prod.fst := by
  unfold extend
  induction more generalizing entries with
  | nil => simp
  | cons first rest inductionHypothesis =>
      rw [List.foldl_cons, inductionHypothesis, mem_keys_insert, List.map_cons, List.mem_cons]
      tauto

theorem mem_keys_ofList {key : String} {pairs : List (String × α)} :
    key ∈ keys (ofList pairs) ↔ key ∈ pairs.map Prod.fst := by
  rw [ofList, mem_keys_extend]
  exact or_iff_right List.not_mem_nil

/-- What is gathered from the values: an insertion adds what is gathered from the new one, and may replace some. -/
theorem flatMap_insert_subperm {β : Type} (gather : α → List β) (key : String) (value : α) (entries : Keyed α) :
    ((insert key value entries).flatMap fun entry => gather entry.2).Subperm
      ((entries.flatMap fun entry => gather entry.2) ++ gather value) := by
  induction entries with
  | nil =>
      rw [insert, List.flatMap_singleton]
      exact .refl _
  | cons first rest inductionHypothesis =>
      rw [insert]
      split
      · rw [List.flatMap_cons, List.flatMap_cons, List.append_assoc]
        exact (List.perm_append_comm.subperm).trans (List.sublist_append_right _ _).subperm
      · rw [List.flatMap_cons, List.flatMap_cons, List.append_assoc]
        exact (List.subperm_append_left _).mpr inductionHypothesis

theorem insert_ne_nil (key : String) (value : α) (entries : Keyed α) :
    insert key value entries ≠ [] := by
  cases entries with
  | nil => exact List.cons_ne_nil _ _
  | cons first rest =>
      rw [insert]
      split <;> exact List.cons_ne_nil _ _

theorem mem_of_get? {key : String} {value : α} {entries : Keyed α} (held : get? entries key = some value) :
    (key, value) ∈ entries := by
  rcases List.lookup_eq_some_iff.mp held with ⟨front, back, same, -⟩
  rw [same]
  exact List.mem_append_right _ List.mem_cons_self

theorem get?_of_mem {entries : Keyed α} (distinct : DistinctKeys entries) {name : String} {value : α}
    (member : (name, value) ∈ entries) : get? entries name = some value := by
  induction entries with
  | nil => cases member
  | cons first rest inductionHypothesis =>
      rcases List.nodup_cons.mp distinct with ⟨notRepeated, distinct⟩
      rcases List.mem_cons.mp member with rfl | later
      · simp [get?]
      · have differ : (name == first.1) = false := by
          rw [beq_eq_false_iff_ne]
          rintro rfl
          exact notRepeated (List.mem_map.mpr ⟨_, later, rfl⟩)
        rw [get?, List.lookup_cons, differ]
        exact inductionHypothesis distinct later

theorem exists_get? {entries : Keyed α} {key : String} (known : key ∈ keys entries) :
    ∃ value, get? entries key = some value := by
  rcases List.mem_map.mp known with ⟨entry, listed, rfl⟩
  cases found : get? entries entry.1 with
  | some value => exact ⟨value, rfl⟩
  | none => exact absurd (List.lookup_eq_none_iff.mp found entry listed) (by simp)

/-! ### Moved and dropped entries -/

section Moved

variable {entries others : Keyed α}

theorem DistinctKeys.perm (distinct : DistinctKeys entries) (same : entries.Perm others) : DistinctKeys others :=
  (same.map Prod.fst).nodup_iff.mp distinct

/-- The order of the entries does not matter to a lookup. -/
theorem get?_perm (distinct : DistinctKeys entries) (same : entries.Perm others) (key : String) :
    get? others key = get? entries key := by
  cases held : get? entries key with
  | some value => exact get?_of_mem (distinct.perm same) (same.mem_iff.mp (mem_of_get? held))
  | none =>
      apply get?_eq_none
      intro known
      rcases exists_get? ((same.map Prod.fst).mem_iff.mpr known) with ⟨value, found⟩
      rw [held] at found
      cases found

/-- Where keys differ, a key has at most the entry that a lookup finds. -/
theorem filter_key (distinct : DistinctKeys entries) (key : String) :
    (entries.filter fun entry => entry.1 = key) = ((get? entries key).map (key, ·)).toList := by
  induction entries with
  | nil => rfl
  | cons first rest inductionHypothesis =>
      obtain ⟨other, value⟩ := first
      rcases List.nodup_cons.mp distinct with ⟨fresh, distinct⟩
      by_cases same : other = key
      · subst same
        have others : (rest.filter fun entry => entry.1 = other) = [] := by
          rw [inductionHypothesis distinct, get?_eq_none fresh]
          rfl
        rw [List.filter_cons_of_pos (by simp), others]
        simp [get?]
      · have differ : (key == other) = false := by simpa using Ne.symm same
        simp [same, inductionHypothesis distinct, get?, List.lookup_cons, differ]

theorem keys_eq_of_forall₂ {β : Type} {read : Keyed β}
    (paired : List.Forall₂ (fun entry other => entry.1 = other.1) entries read) : keys entries = keys read := by
  unfold keys
  induction paired with
  | nil => rfl
  | cons here _ inductionHypothesis => rw [List.map_cons, List.map_cons, here, inductionHypothesis]

theorem DistinctKeys.filter (distinct : DistinctKeys entries) (accepts : String × α → Bool) :
    DistinctKeys (entries.filter accepts) :=
  distinct.sublist (List.filter_sublist.map Prod.fst)

theorem get?_filter_ne {dropped key : String} (differ : key ≠ dropped) (entries : Keyed α) :
    get? (entries.filter fun entry => entry.1 ≠ dropped) key = get? entries key := by
  induction entries with
  | nil => rfl
  | cons first rest inductionHypothesis =>
      obtain ⟨other, value⟩ := first
      by_cases same : other = dropped
      · have passes : (key == other) = false := by simpa [same] using differ
        rw [List.filter_cons_of_neg (by simp [same]), inductionHypothesis, get?, get?, List.lookup_cons, passes]
      · rw [List.filter_cons_of_pos (by simp [same]), get?, get?, List.lookup_cons, List.lookup_cons]
        split
        · rfl
        · exact inductionHypothesis

end Moved

/-! ### Changed values -/

section Changed

variable {β : Type} (change : String → α → β)

/-- The collection with every value changed, which may depend on its key. -/
def mapValues (entries : Keyed α) : Keyed β :=
  entries.map fun entry => (entry.1, change entry.1 entry.2)

theorem get?_mapValues (entries : Keyed α) (key : String) :
    get? (mapValues change entries) key = (get? entries key).map (change key) := by
  induction entries with
  | nil => rfl
  | cons first rest inductionHypothesis =>
      unfold mapValues get? at inductionHypothesis ⊢
      rw [List.map_cons, List.lookup_cons, List.lookup_cons]
      cases same : key == first.1 with
      | true => rw [beq_iff_eq.mp same, Option.map_some]
      | false => exact inductionHypothesis

theorem contains_mapValues (entries : Keyed α) (key : String) :
    contains (mapValues change entries) key = contains entries key := by
  unfold contains mapValues
  rw [List.any_map]
  rfl

theorem mapValues_insert (key : String) (value : α) (entries : Keyed α) :
    mapValues change (insert key value entries) = insert key (change key value) (mapValues change entries) := by
  induction entries with
  | nil => rfl
  | cons first rest inductionHypothesis =>
      unfold mapValues at inductionHypothesis ⊢
      rw [List.map_cons, insert, insert]
      split
      · rfl
      · rw [List.map_cons, inductionHypothesis]

theorem mapValues_ofList (pairs : List (String × α)) :
    mapValues change (ofList pairs) = ofList (mapValues change pairs) := by
  have extended (entries : Keyed α) :
      mapValues change (extend entries pairs) = extend (mapValues change entries) (mapValues change pairs) := by
    unfold extend
    induction pairs generalizing entries with
    | nil => rfl
    | cons first rest inductionHypothesis =>
        rw [List.foldl_cons, inductionHypothesis, mapValues_insert]
        rfl
  exact extended []

end Changed

end Wiring.Keyed
