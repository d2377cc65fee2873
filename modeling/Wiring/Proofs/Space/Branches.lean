import Mathlib.Data.List.Perm.Subperm
import Wiring.Proofs.Keyed
import Wiring.Proofs.Space.Keys
import Wiring.Proofs.Steps

/-!
Contract: what a branch of a tree becomes.

Owns: how slots are filled, and that all slots are filled exactly by numbers that count up to their own number;
`Counted`, what this asks of the pieces of a branch; that a space is made from a branch exactly if its pieces
are counted and a space is made from each child; and the dict or the tuple that it then is.

Does not own: trees of any depth.
-/

namespace Wiring.FlatKey

open Wiring.FlatKey.Tree (indices? fillSlots toEntries toSpace)

/-! ### Slots -/

/-- Puts numbered spaces into their slots, one after the other. -/
def writeAll (writes : List (Nat × Space)) (slots : List (Option Space)) : List (Option Space) :=
  writes.foldl (fun slots write => slots.set write.1 (some write.2)) slots

theorem length_writeAll (writes : List (Nat × Space)) (slots : List (Option Space)) :
    (writeAll writes slots).length = slots.length := by
  induction writes generalizing slots with
  | nil => rfl
  | cons first rest inductionHypothesis => exact (inductionHypothesis _).trans List.length_set

theorem getElem?_writeAll_of_notMem {writes : List (Nat × Space)} {index : Nat}
    (untouched : index ∉ writes.map Prod.fst) (slots : List (Option Space)) :
    (writeAll writes slots)[index]? = slots[index]? := by
  induction writes generalizing slots with
  | nil => rfl
  | cons first rest inductionHypothesis =>
      rw [List.map_cons, List.mem_cons, not_or] at untouched
      exact (inductionHypothesis untouched.2 _).trans (List.getElem?_set_ne (Ne.symm untouched.1))

theorem getElem?_writeAll_of_mem {writes : List (Nat × Space)} (distinct : (writes.map Prod.fst).Nodup)
    {index : Nat} {space : Space} (written : (index, space) ∈ writes) {slots : List (Option Space)}
    (bounded : index < slots.length) : (writeAll writes slots)[index]? = some (some space) := by
  induction writes generalizing slots with
  | nil => cases written
  | cons first rest inductionHypothesis =>
      rw [List.map_cons, List.nodup_cons] at distinct
      rcases List.mem_cons.mp written with rfl | later
      · exact (getElem?_writeAll_of_notMem distinct.1 _).trans (List.getElem?_set_self bounded)
      · exact inductionHypothesis distinct.2 later (by rwa [List.length_set])

/-- As many numbers as slots reach all of them only if no number comes twice. -/
theorem perm_range_iff {numbers : List Nat} :
    numbers.Perm (List.range numbers.length) ↔
      (∀ number ∈ numbers, number < numbers.length) ∧ List.range numbers.length ⊆ numbers := by
  constructor
  · intro counts
    exact ⟨fun number listed => List.mem_range.mp (counts.mem_iff.mp listed), counts.symm.subset⟩
  · rintro ⟨-, reached⟩
    have fewer := List.nodup_range.subperm reached
    exact (fewer.perm_of_length_le (Nat.le_of_eq List.length_range.symm)).symm

/-- Writing to empty slots, as many as there are writes, fills all of them exactly if the numbers count up. -/
theorem writeAll_full_iff {writes : List (Nat × Space)} (bounded : ∀ write ∈ writes, write.1 < writes.length) :
    (∃ parts, writeAll writes (List.replicate writes.length none) = List.map some parts) ↔
      (writes.map Prod.fst).Perm (List.range writes.length) := by
  have lengths : (writes.map Prod.fst).length = writes.length := List.length_map _
  rw [← lengths, perm_range_iff, lengths]
  constructor
  · rintro ⟨parts, full⟩
    refine ⟨fun number listed => ?_, fun index below => ?_⟩
    · rcases List.mem_map.mp listed with ⟨write, writeListed, rfl⟩
      exact bounded write writeListed
    · by_contra untouched
      have still := getElem?_writeAll_of_notMem untouched (List.replicate writes.length none)
      rw [List.getElem?_replicate_of_lt (List.mem_range.mp below), full, List.getElem?_map] at still
      rcases Option.map_eq_some_iff.mp still with ⟨_, -, empty⟩
      cases empty
  · rintro ⟨-, reached⟩
    have counts : (writes.map Prod.fst).Perm (List.range (writes.map Prod.fst).length) := by
      rw [perm_range_iff, lengths]
      exact ⟨fun number listed => by
        rcases List.mem_map.mp listed with ⟨write, writeListed, rfl⟩
        exact bounded write writeListed, reached⟩
    have distinct : (writes.map Prod.fst).Nodup := counts.nodup_iff.mpr List.nodup_range
    refine ⟨(writeAll writes (List.replicate writes.length none)).map fun slot => slot.getD default, ?_⟩
    rw [List.map_map]
    refine (List.map_id _).symm.trans (List.map_congr_left fun slot listed => ?_)
    rcases List.getElem?_of_mem listed with ⟨index, held⟩
    have below : index < writes.length := by
      have := (List.getElem?_eq_some_iff.mp held).1
      rwa [length_writeAll, List.length_replicate] at this
    rcases List.mem_map.mp (reached (List.mem_range.mpr below)) with ⟨write, written, rfl⟩
    rw [getElem?_writeAll_of_mem distinct written (by rwa [List.length_replicate])] at held
    obtain rfl := Option.some.inj held
    rfl

theorem mapM_id_eq_some {slots : List (Option Space)} {parts : List Space} :
    slots.mapM id = some parts ↔ slots = parts.map some := by
  induction slots generalizing parts with
  | nil => cases parts <;> simp
  | cons first rest inductionHypothesis =>
      rw [List.mapM_cons]
      cases first with
      | none => cases parts <;> simp
      | some part =>
          cases parts with
          | nil => simp [Option.bind_eq_some_iff]
          | cons other others => simp [Option.bind_eq_some_iff, inductionHypothesis, and_comm]

/-! ### Children with numbers -/

theorem indices?_eq_some {children : List (String × Tree)} {numbers : List Nat} :
    indices? children = some numbers ↔
      List.Forall₂ (fun child number => bracketed? child.1 = some number) children numbers :=
  option_mapM_eq_some

theorem length_of_indices? {children : List (String × Tree)} {numbers : List Nat}
    (read : indices? children = some numbers) : numbers.length = children.length :=
  (indices?_eq_some.mp read).length_eq.symm

theorem indices?_eq_none_iff {children : List (String × Tree)} :
    Tree.indices? children = none ↔ ∃ child ∈ children, bracketed? child.1 = none := by
  unfold Tree.indices?
  induction children with
  | nil => simp
  | cons first rest inductionHypothesis =>
      rw [List.mapM_cons]
      cases known : bracketed? first.1 with
      | none => simp [known]
      | some index =>
          cases others : rest.mapM fun child => bracketed? child.1 with
          | none => simpa [known, others] using inductionHypothesis
          | some indices => simpa [known, others] using inductionHypothesis

/-- Slots are filled exactly with the spaces of the children, as long as these can be made and there are slots
with their numbers. -/
theorem fillSlots_eq_ok {children : List (String × Tree)} {numbers : List Nat} (read : indices? children = some numbers)
    {slots filled : List (Option Space)} :
    fillSlots children slots = .ok filled ↔
      ∃ spaces, List.Forall₂ (fun child space => toSpace child.2 = .ok space) children spaces ∧
        (∀ number ∈ numbers, number < slots.length) ∧ filled = writeAll (numbers.zip spaces) slots := by
  rw [indices?_eq_some] at read
  induction read generalizing slots with
  | nil =>
      rw [fillSlots]
      constructor
      · intro done
        obtain rfl := Except.ok.inj done
        exact ⟨[], .nil, by simp, rfl⟩
      · rintro ⟨spaces, made, -, rfl⟩
        cases made
        rfl
  | @cons child number rest others here _ inductionHypothesis =>
      rw [fillSlots, here, Option.getD_some]
      by_cases bounded : number < slots.length
      · rw [if_pos bounded]
        constructor
        · intro done
          rcases except_bind_eq_ok.mp done with ⟨space, made, done⟩
          rcases inductionHypothesis.mp done with ⟨spaces, othersMade, below, rfl⟩
          rw [List.length_set] at below
          exact ⟨space :: spaces, .cons made othersMade, List.forall_mem_cons.mpr ⟨bounded, below⟩, rfl⟩
        · rintro ⟨_, made, below, rfl⟩
          cases made with
          | @cons _ space _ spaces made othersMade =>
              refine except_bind_eq_ok.mpr ⟨space, made, inductionHypothesis.mpr ⟨spaces, othersMade, ?_, rfl⟩⟩
              rw [List.length_set]
              exact (List.forall_mem_cons.mp below).2
      · rw [if_neg bounded]
        constructor
        · intro done
          cases done
        · rintro ⟨_, -, below, -⟩
          exact absurd (below number List.mem_cons_self) bounded

/-! ### Children without numbers -/

theorem toEntries_eq_ok {children : List (String × Tree)} {entries : List (String × Space)} :
    toEntries children = .ok entries ↔
      List.Forall₂ (fun child entry => child.1 = entry.1 ∧ toSpace child.2 = .ok entry.2) children entries := by
  induction children generalizing entries with
  | nil =>
      rw [toEntries, List.forall₂_nil_left_iff]
      exact ⟨fun done => (Except.ok.inj done).symm, fun same => same ▸ rfl⟩
  | cons first rest inductionHypothesis =>
      rw [toEntries]
      constructor
      · intro done
        rcases except_bind_eq_ok.mp done with ⟨space, made, done⟩
        rcases except_bind_eq_ok.mp done with ⟨others, rest, done⟩
        obtain rfl := Except.ok.inj done
        exact .cons ⟨rfl, made⟩ (inductionHypothesis.mp rest)
      · intro paired
        cases paired with
        | @cons _ entry _ others here there =>
            refine except_bind_eq_ok.mpr ⟨entry.2, here.2, ?_⟩
            refine except_bind_eq_ok.mpr ⟨others, inductionHypothesis.mpr there, ?_⟩
            rw [here.1]

/-! ### Branches -/

/-- If all of the pieces are numbers in brackets, these numbers count up from zero in some order. -/
def Counted (pieces : List String) : Prop :=
  (∀ piece ∈ pieces, IsNumbered piece) → (pieces.filterMap bracketed?).Perm (List.range pieces.length)

theorem filterMap_keys {children : List (String × Tree)} {numbers : List Nat}
    (read : indices? children = some numbers) :
    (Keyed.keys children).filterMap bracketed? = numbers := by
  rw [indices?_eq_some] at read
  unfold Keyed.keys
  induction read with
  | nil => rfl
  | cons here _ inductionHypothesis => rw [List.map_cons, List.filterMap_cons_some here, inductionHypothesis]

theorem numbered_iff {children : List (String × Tree)} :
    (∀ piece ∈ Keyed.keys children, IsNumbered piece) ↔ indices? children ≠ none := by
  rw [Ne, indices?_eq_none_iff]
  simp only [Keyed.keys, List.forall_mem_map, ← isSome_bracketed?_iff, not_exists, not_and, ← ne_eq,
    Option.isSome_iff_ne_none]

/-- What a branch may become: a tuple with the children where their numbers say, or else a dict of them. -/
inductive Becomes (children : List (String × Tree)) : Space → Prop where
  | tuple (numbers : List Nat) (parts : List Space) (filled : children ≠ [])
      (counts : numbers.Perm (List.range children.length)) (length : parts.length = children.length)
      (placed : List.Forall₂ (fun child number => bracketed? child.1 = some number ∧
        ∃ part, parts[number]? = some part ∧ toSpace child.2 = .ok part) children numbers) :
      Becomes children (.tuple parts)
  | dict (entries : List (String × Space)) (unnumbered : children = [] ∨ indices? children = none)
      (paired : List.Forall₂ (fun child entry => child.1 = entry.1 ∧ toSpace child.2 = .ok entry.2)
        children entries) : Becomes children (.dict entries)

/-- Numbers with spaces for all of them, as many as there are children. -/
structure Writes (children : List (String × Tree)) (numbers : List Nat) (spaces : List Space) : Prop where
  read : indices? children = some numbers
  made : List.Forall₂ (fun child space => toSpace child.2 = .ok space) children spaces
  bounded : ∀ number ∈ numbers, number < children.length

namespace Writes

variable {children : List (String × Tree)} {numbers : List Nat} {spaces : List Space}

theorem numbers_eq (writes : Writes children numbers spaces) : (numbers.zip spaces).map Prod.fst = numbers :=
  List.map_fst_zip (Nat.le_of_eq ((length_of_indices? writes.read).trans writes.made.length_eq))

theorem length_eq (writes : Writes children numbers spaces) : (numbers.zip spaces).length = children.length := by
  rw [← length_of_indices? writes.read, ← List.length_map Prod.fst, writes.numbers_eq]

theorem full_iff (writes : Writes children numbers spaces) :
    (∃ parts, writeAll (numbers.zip spaces) (List.replicate children.length none) = List.map some parts) ↔
      numbers.Perm (List.range children.length) := by
  have bounded : ∀ write ∈ numbers.zip spaces, write.1 < (numbers.zip spaces).length := by
    intro write listed
    rw [writes.length_eq]
    exact writes.bounded _ (List.of_mem_zip listed).1
  have full := writeAll_full_iff bounded
  rwa [writes.numbers_eq, writes.length_eq] at full

theorem becomes (writes : Writes children numbers spaces) (filled : children ≠ []) {parts : List Space}
    (full : writeAll (numbers.zip spaces) (List.replicate children.length none) = List.map some parts) :
    Becomes children (.tuple parts) := by
  have counts := writes.full_iff.mp ⟨parts, full⟩
  refine .tuple numbers parts filled counts ?_ ?_
  · rw [← List.length_map some, ← full, length_writeAll, List.length_replicate]
  · refine .mp (fun _ _ => And.intro) (indices?_eq_some.mp writes.read) ?_
    refine forall₂_through_zip writes.made (length_of_indices? writes.read) fun write listed => ?_
    have distinct : ((numbers.zip spaces).map Prod.fst).Nodup := by
      rw [writes.numbers_eq]
      exact counts.nodup_iff.mpr List.nodup_range
    have bounded : write.1 < (List.replicate children.length (none : Option Space)).length := by
      rw [List.length_replicate]
      exact writes.bounded _ (List.of_mem_zip listed).1
    have placed := getElem?_writeAll_of_mem distinct listed bounded
    rw [full, List.getElem?_map] at placed
    rcases Option.map_eq_some_iff.mp placed with ⟨part, held, same⟩
    rw [held, Option.some.inj same]

end Writes

theorem becomes_of_toSpace {children : List (String × Tree)} {space : Space}
    (made : toSpace (.branch children) = .ok space) : Becomes children space := by
  rw [toSpace] at made
  split at made
  next index rest read =>
    rcases except_bind_eq_ok.mp made with ⟨slots, done, made⟩
    rcases (fillSlots_eq_ok read).mp done with ⟨spaces, spacesMade, bounded, rfl⟩
    rw [List.length_replicate] at bounded
    have filled : children ≠ [] := by
      rintro rfl
      cases read
    split at made
    next parts whole =>
      obtain rfl := Except.ok.inj made
      exact Writes.becomes ⟨read, spacesMade, bounded⟩ filled (mapM_id_eq_some.mp whole)
    next => cases made
  next other =>
    rcases except_bind_eq_ok.mp made with ⟨entries, done, made⟩
    obtain rfl := Except.ok.inj made
    refine .dict entries ?_ (toEntries_eq_ok.mp done)
    cases read : indices? children with
    | none => exact .inr rfl
    | some numbers =>
        cases numbers with
        | cons first rest => exact absurd read (other first rest)
        | nil => exact .inl (List.length_eq_zero_iff.mp (length_of_indices? read).symm)

theorem Becomes.counted {children : List (String × Tree)} {space : Space} (becomes : Becomes children space) :
    Counted (Keyed.keys children) := by
  intro numbered
  rw [Keyed.keys, List.length_map]
  cases becomes with
  | tuple numbers parts _ counts _ placed =>
      have read : indices? children = some numbers := indices?_eq_some.mpr (placed.imp fun _ _ => And.left)
      rw [← Keyed.keys, filterMap_keys read]
      exact counts
  | dict entries unnumbered =>
      rcases unnumbered with rfl | unread
      · exact .refl _
      · exact absurd unread (numbered_iff.mp numbered)

theorem Becomes.made {children : List (String × Tree)} {space : Space} (becomes : Becomes children space) :
    ∀ child ∈ children, ∃ space, toSpace child.2 = .ok space := by
  intro child listed
  cases becomes with
  | tuple numbers parts _ _ _ placed =>
      rcases forall₂_of_mem_left placed listed with ⟨_, -, -, part, -, made⟩
      exact ⟨part, made⟩
  | dict entries _ paired =>
      rcases forall₂_of_mem_left paired listed with ⟨entry, -, -, made⟩
      exact ⟨entry.2, made⟩

/-- Every part of the tuple is made from the child with its number. -/
theorem Becomes.child_of_part {children : List (String × Tree)} {parts : List Space}
    (becomes : Becomes children (.tuple parts)) {index : Nat} {part : Space} (held : parts[index]? = some part) :
    ∃ child ∈ children, bracketed? child.1 = some index ∧ toSpace child.2 = .ok part := by
  cases becomes with
  | tuple numbers _ _ counts length placed =>
      have below := (List.getElem?_eq_some_iff.mp held).1
      rw [length, ← List.mem_range, ← counts.mem_iff] at below
      rcases forall₂_of_mem_right placed below with ⟨child, listed, numbered, other, otherHeld, made⟩
      obtain rfl := Option.some.inj (held.symm.trans otherHeld)
      exact ⟨child, listed, numbered, made⟩

/-- A space is made from a branch exactly if its pieces are counted and one is made from each child. -/
theorem toSpace_branch_ok_iff {children : List (String × Tree)} :
    (∃ space, toSpace (.branch children) = .ok space) ↔
      Counted (Keyed.keys children) ∧ ∀ child ∈ children, ∃ space, toSpace child.2 = .ok space := by
  constructor
  · rintro ⟨space, made⟩
    have becomes := becomes_of_toSpace made
    exact ⟨becomes.counted, becomes.made⟩
  · rintro ⟨counted, each⟩
    rcases exists_forall₂ each with ⟨spaces, made⟩
    cases read : indices? children with
    | none =>
        have paired : toEntries children = .ok ((Keyed.keys children).zip spaces) := by
          rw [toEntries_eq_ok]
          clear each counted read
          induction made with
          | nil => exact .nil
          | cons here _ inductionHypothesis => exact .cons ⟨rfl, here⟩ inductionHypothesis
        exact ⟨.dict _, by rw [toSpace, read]; exact except_bind_eq_ok.mpr ⟨_, paired, rfl⟩⟩
    | some numbers =>
        cases numbers with
        | nil =>
            obtain rfl := List.length_eq_zero_iff.mp (length_of_indices? read).symm
            exact ⟨.dict [], by rw [toSpace]; rfl⟩
        | cons first rest =>
            have counts := counted (numbered_iff.mpr (by rw [read]; exact Option.some_ne_none _))
            rw [filterMap_keys read, Keyed.keys, List.length_map] at counts
            have writes : Writes children (first :: rest) spaces :=
              ⟨read, made, fun number listed => List.mem_range.mp (counts.mem_iff.mp listed)⟩
            rcases writes.full_iff.mpr counts with ⟨parts, full⟩
            have filled := (fillSlots_eq_ok read).mpr ⟨spaces, made, by simpa using writes.bounded, full.symm⟩
            refine ⟨.tuple parts, ?_⟩
            rw [toSpace, read]
            refine except_bind_eq_ok.mpr ⟨_, filled, ?_⟩
            rw [mapM_id_eq_some.mpr rfl]

end Wiring.FlatKey
