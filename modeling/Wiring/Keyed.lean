/-!
Contract: ordered collections of named entries.

Entries keep the position at which their key was first inserted; inserting a key again replaces its value
where it stands. `DistinctKeys` holds of every collection made by `insert` and `ofList`.
-/

namespace Wiring

abbrev Keyed (α : Type u) := List (String × α)

namespace Keyed

def keys (entries : Keyed α) : List String :=
  entries.map Prod.fst

def values (entries : Keyed α) : List α :=
  entries.map Prod.snd

def get? (entries : Keyed α) (key : String) : Option α :=
  entries.lookup key

def contains (entries : Keyed α) (key : String) : Bool :=
  entries.any fun entry => entry.1 = key

def insert (key : String) (value : α) : Keyed α → Keyed α
  | [] => [(key, value)]
  | (other, kept) :: rest =>
      if other = key then (key, value) :: rest else (other, kept) :: insert key value rest

/-- Inserts the pairs one after the other. -/
def extend (entries : Keyed α) (more : List (String × α)) : Keyed α :=
  more.foldl (fun gathered entry => insert entry.1 entry.2 gathered) entries

def ofList (pairs : List (String × α)) : Keyed α :=
  extend [] pairs

def DistinctKeys (entries : Keyed α) : Prop :=
  (keys entries).Nodup

/-! ### What an insertion changes -/

theorem contains_iff_mem_keys (entries : Keyed α) (key : String) :
    contains entries key = true ↔ key ∈ keys entries := by
  induction entries with
  | nil => simp [contains, keys]
  | cons entry rest inductionHypothesis =>
      simp only [contains, keys, List.any_cons, List.map_cons, List.mem_cons, Bool.or_eq_true,
        decide_eq_true_eq] at inductionHypothesis ⊢
      rw [inductionHypothesis]
      exact or_congr_left eq_comm

theorem get?_insert_self (key : String) (value : α) (entries : Keyed α) :
    get? (insert key value entries) key = some value := by
  induction entries with
  | nil => simp [insert, get?]
  | cons entry rest inductionHypothesis =>
      obtain ⟨other, kept⟩ := entry
      by_cases same : other = key
      · simp [insert, get?, same]
      · simp only [insert, same, if_false]
        have differ : (key == other) = false := by simpa using fun equal => same equal.symm
        simpa [get?, List.lookup_cons, differ] using inductionHypothesis

theorem get?_insert_of_ne {key asked : String} (differ : asked ≠ key) (value : α) (entries : Keyed α) :
    get? (insert key value entries) asked = get? entries asked := by
  have unequal : (asked == key) = false := by simpa using differ
  induction entries with
  | nil => simp [insert, get?, List.lookup_cons, unequal]
  | cons entry rest inductionHypothesis =>
      obtain ⟨other, kept⟩ := entry
      by_cases same : other = key
      · simp [insert, get?, List.lookup_cons, same, unequal]
      · simp only [insert, same, if_false, get?, List.lookup_cons] at inductionHypothesis ⊢
        rw [inductionHypothesis]

theorem keys_insert (key : String) (value : α) (entries : Keyed α) :
    keys (insert key value entries) =
      if key ∈ keys entries then keys entries else keys entries ++ [key] := by
  induction entries with
  | nil => simp [insert, keys]
  | cons entry rest inductionHypothesis =>
      obtain ⟨other, kept⟩ := entry
      by_cases same : other = key
      · simp [insert, keys, same]
      · have differ : key ≠ other := fun equal => same equal.symm
        simp only [keys] at inductionHypothesis
        simp only [insert, same, if_false, keys, List.map_cons, List.mem_cons, differ, false_or]
        rw [inductionHypothesis]
        by_cases member : key ∈ List.map Prod.fst rest <;> simp [member]

/-- A new key comes last. -/
theorem insert_of_notMem {key : String} {entries : Keyed α} (fresh : key ∉ keys entries) (value : α) :
    insert key value entries = entries ++ [(key, value)] := by
  induction entries with
  | nil => rfl
  | cons entry rest inductionHypothesis =>
      obtain ⟨other, kept⟩ := entry
      simp only [keys, List.map_cons, List.mem_cons, not_or] at fresh inductionHypothesis
      rw [insert, if_neg (Ne.symm fresh.1), inductionHypothesis fresh.2, List.cons_append]

theorem distinctKeys_insert {entries : Keyed α} (distinct : DistinctKeys entries) (key : String)
    (value : α) : DistinctKeys (insert key value entries) := by
  unfold DistinctKeys at distinct ⊢
  rw [keys_insert]
  split
  · exact distinct
  · next absent =>
      rw [List.nodup_append]
      refine ⟨distinct, by simp, ?_⟩
      intro known knownMember fresh freshMember equal
      rw [List.mem_singleton] at freshMember
      exact absent (freshMember ▸ equal ▸ knownMember)

theorem distinctKeys_extend {entries : Keyed α} (distinct : DistinctKeys entries)
    (more : List (String × α)) : DistinctKeys (extend entries more) := by
  unfold extend
  induction more generalizing entries with
  | nil => exact distinct
  | cons entry rest inductionHypothesis =>
      exact inductionHypothesis (distinctKeys_insert distinct entry.1 entry.2)

theorem distinctKeys_nil : DistinctKeys ([] : Keyed α) :=
  List.nodup_nil

theorem distinctKeys_ofList (pairs : List (String × α)) : DistinctKeys (ofList pairs) :=
  distinctKeys_extend distinctKeys_nil pairs

theorem extend_of_distinctKeys {entries : Keyed α} {more : List (String × α)}
    (distinct : DistinctKeys (entries ++ more)) : extend entries more = entries ++ more := by
  induction more generalizing entries with
  | nil => exact (List.append_nil entries).symm
  | cons entry rest inductionHypothesis =>
      have fresh : entry.1 ∉ keys entries := by
        intro known
        simp only [DistinctKeys, keys, List.map_append, List.map_cons] at distinct known
        exact (List.nodup_append.mp distinct).2.2 entry.1 known entry.1 List.mem_cons_self rfl
      have inserted := insert_of_notMem fresh entry.2
      rw [List.append_cons] at distinct ⊢
      exact (congrArg (extend · rest) inserted).trans (inductionHypothesis distinct)

/-- Pairs with different keys are kept as they are. -/
theorem ofList_of_distinctKeys {pairs : List (String × α)} (distinct : DistinctKeys pairs) : ofList pairs = pairs :=
  extend_of_distinctKeys distinct

end Keyed

end Wiring
