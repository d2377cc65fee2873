import Wiring.Proofs.Space.Walks

/-!
Contract: that the order of leaves does not matter for the space that is made from them.

Owns: `Rearranged`, by which spaces differ at most in the order of the entries of dicts; and that tidy trees with
the same leaves become spaces that are rearranged into each other.

Does not own: the trees that keyed spaces are gathered into.
-/

namespace Wiring

namespace FlatKey

open Wiring.FlatKey.Tree (childAt childLeaves indices? leaves toSpace under)

variable {children others : List (String × Tree)}

/-! ### Children with the same leaves -/

/-- A leaf of a branch as seen from the child of a piece, if it is below that child. -/
def below (piece : String) (leaf : List String × Space) : Option (List String × Space) :=
  match leaf.1 with
  | [] => none
  | first :: rest => if first = piece then some (rest, leaf.2) else none

theorem below_under_self (piece : String) (leaf : List String × Space) : below piece (under piece leaf) = some leaf :=
  if_pos rfl

theorem below_under_of_ne {piece other : String} (differ : other ≠ piece) (leaf : List String × Space) :
    below piece (under other leaf) = none :=
  if_neg differ

theorem leaves_childAt (distinct : Keyed.DistinctKeys children) (piece : String) :
    leaves (childAt children piece) = (childLeaves children).filterMap (below piece) := by
  induction children with
  | nil => exact Tree.leaves_childAt_of_notMem List.not_mem_nil
  | cons first rest inductionHypothesis =>
      obtain ⟨other, child⟩ := first
      rcases List.nodup_cons.mp distinct with ⟨fresh, distinct⟩
      rw [childLeaves, List.filterMap_append, List.filterMap_map, ← inductionHypothesis distinct]
      by_cases same : other = piece
      · subst same
        have all : below other ∘ under other = some := funext fun leaf => below_under_self other leaf
        rw [Tree.childAt_cons_self, all, List.filterMap_some, Tree.leaves_childAt_of_notMem fresh, List.append_nil]
      · have none : below piece ∘ under other = fun _ => none := funext fun leaf => below_under_of_ne same leaf
        rw [Tree.childAt_cons_of_ne same, none, List.filterMap_none, List.nil_append]

namespace Tree.TidyRoot

theorem mem_keys (root : TidyRoot children) {piece : String} :
    piece ∈ Keyed.keys children ↔ ∃ rest space, (piece :: rest, space) ∈ childLeaves children := by
  constructor
  · intro known
    rcases List.mem_map.mp known with ⟨child, listed, rfl⟩
    rcases (root.tidy child listed).exists_leaf with ⟨leaf, leafListed⟩
    exact ⟨leaf.1, leaf.2, mem_childLeaves.mpr ⟨child, listed, leaf, leafListed, rfl⟩⟩
  · rintro ⟨rest, space, listed⟩
    rcases mem_childLeaves.mp listed with ⟨child, childListed, leaf, -, same⟩
    obtain rfl : child.1 = piece := (List.cons.inj (congrArg Prod.fst same)).1
    exact List.mem_map_of_mem childListed

theorem keys_perm (root : TidyRoot children) (otherRoot : TidyRoot others)
    (same : (childLeaves children).Perm (childLeaves others)) :
    (Keyed.keys children).Perm (Keyed.keys others) := by
  refine (List.perm_ext_iff_of_nodup root.distinct otherRoot.distinct).mpr fun piece => ?_
  simp only [root.mem_keys, otherRoot.mem_keys, same.mem_iff]

/-- Children of one piece have the same leaves. -/
theorem child_perm (root : TidyRoot children) (otherRoot : TidyRoot others)
    (same : (childLeaves children).Perm (childLeaves others)) {child other : String × Tree}
    (listed : child ∈ children) (otherListed : other ∈ others) (samePiece : child.1 = other.1) :
    (leaves child.2).Perm (leaves other.2) := by
  rw [← root.childAt_of_mem listed, ← otherRoot.childAt_of_mem otherListed, samePiece,
    leaves_childAt root.distinct, leaves_childAt otherRoot.distinct]
  exact same.filterMap _

end Tree.TidyRoot

/-- There are pieces, and all of them are numbers in brackets. -/
def Indexed (pieces : List String) : Prop :=
  pieces ≠ [] ∧ ∀ piece ∈ pieces, IsNumbered piece

theorem Indexed.of_perm {pieces moved : List String} (indexed : Indexed pieces) (same : pieces.Perm moved) :
    Indexed moved :=
  ⟨fun empty => indexed.1 (List.perm_nil.mp (empty ▸ same)),
    fun piece listed => indexed.2 piece (same.mem_iff.mpr listed)⟩

/-- Pieces decide between a tuple and a dict. -/
theorem Becomes.indexed_iff {space : Space} (becomes : Becomes children space) :
    Indexed (Keyed.keys children) ↔ ∃ parts, space = .tuple parts := by
  rw [Indexed, numbered_iff, Keyed.keys, Ne, List.map_eq_nil_iff]
  cases becomes with
  | tuple numbers parts filled _ _ placed =>
      have read : indices? children = some numbers := indices?_eq_some.mpr (placed.imp fun _ _ => And.left)
      simp [filled, read]
  | dict entries unnumbered => rcases unnumbered with empty | unread <;> simp [*]

theorem Becomes.exists_entries {space : Space} (becomes : Becomes children space)
    (plain : ¬Indexed (Keyed.keys children)) :
    ∃ entries, space = .dict entries ∧
      List.Forall₂ (fun child entry => child.1 = entry.1 ∧ toSpace child.2 = .ok entry.2) children entries := by
  rw [becomes.indexed_iff] at plain
  cases becomes with
  | tuple _ parts => exact absurd ⟨parts, rfl⟩ plain
  | dict entries _ paired => exact ⟨entries, rfl, paired⟩

end FlatKey

namespace Space

open FlatKey (Becomes Tree becomes_of_toSpace)
open FlatKey.Tree (childLeaves leaves toSpace)

/-! ### Rearranged spaces -/

/-- The spaces are the same up to the order of the entries of dicts, at any depth. -/
inductive Rearranged : Space → Space → Prop where
  | refl (space : Space) : Rearranged space space
  | dict (entries others : List (String × Space)) (keys : (Keyed.keys entries).Perm (Keyed.keys others))
      (each : ∀ key inner other, (key, inner) ∈ entries → (key, other) ∈ others → Rearranged inner other) :
      Rearranged (.dict entries) (.dict others)
  | tuple (parts others : List Space) (length : parts.length = others.length)
      (each : ∀ (index : Nat) (inner other : Space), parts[index]? = some inner → others[index]? = some other →
        Rearranged inner other) : Rearranged (.tuple parts) (.tuple others)

theorem rearranged_of_branch {children others : List (String × Tree)} (root : Tree.TidyRoot children)
    (otherRoot : Tree.TidyRoot others) (same : (childLeaves children).Perm (childLeaves others))
    {space otherSpace : Space} (made : toSpace (.branch children) = .ok space)
    (otherMade : toSpace (.branch others) = .ok otherSpace)
    (each : ∀ child ∈ children, ∀ other, Tree.Tidy other → (leaves child.2).Perm (leaves other) →
      ∀ inner otherInner, toSpace child.2 = .ok inner → toSpace other = .ok otherInner → Rearranged inner otherInner) :
    Rearranged space otherSpace := by
  have becomes := becomes_of_toSpace made
  have otherBecomes := becomes_of_toSpace otherMade
  have keys := root.keys_perm otherRoot same
  have paired {child other : String × Tree} (listed : child ∈ children) (otherListed : other ∈ others)
      (samePiece : child.1 = other.1) {inner otherInner : Space} (innerMade : toSpace child.2 = .ok inner)
      (otherInnerMade : toSpace other.2 = .ok otherInner) : Rearranged inner otherInner :=
    each child listed other.2 (otherRoot.tidy other otherListed)
      (root.child_perm otherRoot same listed otherListed samePiece) inner otherInner innerMade otherInnerMade
  by_cases indexed : FlatKey.Indexed (Keyed.keys children)
  · rcases becomes.indexed_iff.mp indexed with ⟨parts, rfl⟩
    rcases otherBecomes.indexed_iff.mp (indexed.of_perm keys) with ⟨otherParts, rfl⟩
    cases otherBecomes with
    | tuple _ _ _ _ otherLength placed =>
        have length : parts.length = children.length := by
          cases becomes with
          | tuple _ _ _ _ length _ => exact length
        have counts : children.length = others.length := by simpa [Keyed.keys] using keys.length_eq
        refine .tuple _ _ (by rw [length, otherLength, counts]) fun index inner other held otherHeld => ?_
        rcases becomes.child_of_part held with ⟨child, listed, numbered, innerMade⟩
        rcases List.mem_map.mp (keys.mem_iff.mp (List.mem_map_of_mem listed)) with ⟨otherChild, otherListed, samePiece⟩
        rcases forall₂_of_mem_left placed otherListed with ⟨number, -, read, part, partHeld, partMade⟩
        obtain rfl : number = index := Option.some.inj (read.symm.trans (samePiece ▸ numbered))
        obtain rfl := Option.some.inj (partHeld.symm.trans otherHeld)
        exact paired listed otherListed samePiece.symm innerMade partMade
  · rcases becomes.exists_entries indexed with ⟨entries, rfl, entriesPaired⟩
    rcases otherBecomes.exists_entries fun other => indexed (other.of_perm keys.symm) with ⟨others, rfl, othersPaired⟩
    rw [keys_eq entriesPaired, keys_eq othersPaired] at keys
    refine .dict _ _ keys fun key inner other listed otherListed => ?_
    rcases forall₂_of_mem_right entriesPaired listed with ⟨child, childListed, piece, innerMade⟩
    rcases forall₂_of_mem_right othersPaired otherListed with ⟨otherChild, otherChildListed, otherPiece, otherMade⟩
    exact paired childListed otherChildListed (piece.trans otherPiece.symm) innerMade otherMade

/-- Trees with the same leaves become the same space, up to the order of entries. -/
theorem rearranged_of_tidy {tree other : Tree} (tidy : Tree.Tidy tree) (otherTidy : Tree.Tidy other)
    (same : (leaves tree).Perm (leaves other)) {space otherSpace : Space} (made : toSpace tree = .ok space)
    (otherMade : toSpace other = .ok otherSpace) : Rearranged space otherSpace := by
  induction tidy generalizing other space otherSpace with
  | leaf held =>
      cases otherTidy with
      | leaf otherHeld =>
          rw [leaves, leaves, List.perm_singleton] at same
          obtain rfl : held = otherHeld := congrArg Prod.snd (List.singleton_inj.mp same)
          rw [made] at otherMade
          obtain rfl := Except.ok.inj otherMade
          exact .refl _
      | branch others _ _ _ =>
          rw [leaves, leaves, List.perm_comm, List.perm_singleton] at same
          rcases Tree.mem_childLeaves.mp (same ▸ List.mem_singleton_self _) with ⟨child, -, leaf, -, away⟩
          cases congrArg Prod.fst away
  | branch children filled distinct tidy inductionHypothesis =>
      cases otherTidy with
      | leaf otherHeld =>
          rw [leaves, leaves, List.perm_singleton] at same
          rcases Tree.mem_childLeaves.mp (same ▸ List.mem_singleton_self _) with ⟨child, -, leaf, -, away⟩
          cases congrArg Prod.fst away
      | branch others otherFilled otherDistinct otherEach =>
          rw [leaves, leaves] at same
          exact rearranged_of_branch ⟨distinct, tidy⟩ ⟨otherDistinct, otherEach⟩ same made otherMade
            fun child listed other otherTidy same inner otherInner => inductionHypothesis child listed otherTidy same

theorem rearranged_of_root {children others : List (String × Tree)} (root : Tree.TidyRoot children)
    (otherRoot : Tree.TidyRoot others) (same : (childLeaves children).Perm (childLeaves others))
    {space otherSpace : Space} (made : toSpace (.branch children) = .ok space)
    (otherMade : toSpace (.branch others) = .ok otherSpace) : Rearranged space otherSpace :=
  rearranged_of_branch root otherRoot same made otherMade
    fun child listed _ otherTidy same _ _ => rearranged_of_tidy (root.tidy child listed) otherTidy same

end Space

end Wiring
