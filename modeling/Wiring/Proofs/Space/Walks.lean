import Mathlib.Data.List.Nodup
import Mathlib.Data.List.Perm.Basic
import Wiring.Proofs.Space.Branches
import Wiring.Proofs.Space.Gathering
import Wiring.Proofs.Space.Parts

/-!
Contract: where the leaves of a tree stand in the space that is made from it.

Owns: `follow`, which walks down a space by keys and positions; `Reached`, by which walks lead to all leaves,
each to its own one, and nothing is found off these walks; that the leaves of a tidy tree are reached in the
space made from it; and that this space is well-formed if its leaves are.

Does not own: which trees a space is made from.
-/

namespace Wiring.Space

open FlatKey (Apart Becomes Tree apart_cons apart_of_ne becomes_of_toSpace bracketed? not_apart_nil)
open FlatKey.Tree (childLeaves childLeaves_eq leaves toSpace under)

/-! ### Walks -/

/-- One step down a space: to the entry of a key in a dict, or to a position in a tuple. -/
inductive Step where
  | entry (key : String)
  | part (index : Nat)
deriving DecidableEq

/-- The pieces of a path that stand for a step: the key itself, or the position in brackets. -/
inductive Step.NamedBy : Step → String → Prop where
  | entry (key : String) : NamedBy (.entry key) key
  | part (index : Nat) (piece : String) (read : bracketed? piece = some index) : NamedBy (.part index) piece

def child? : Space → Step → Option Space
  | .dict entries, .entry key => Keyed.get? entries key
  | .tuple parts, .part index => parts[index]?
  | _, _ => none

/-- What stands at the end of a walk. -/
def follow : Space → List Step → Option Space
  | space, [] => some space
  | space, step :: rest => (space.child? step).bind (follow · rest)

theorem follow_cons {space inner : Space} {step : Step} (found : space.child? step = some inner) (rest : List Step) :
    space.follow (step :: rest) = inner.follow rest := by
  rw [follow, found, Option.bind_some]

/-- Walks to leaves with given paths: each leads to its leaf in the steps that its path names, none goes on from
the end of another one, and whatever is found below the top is on one of them. -/
structure Reached (leaves : List (List String × Space)) (space : Space) (walks : List (List Step)) : Prop where
  found : List.Forall₂ (fun leaf walk => List.Forall₂ Step.NamedBy walk leaf.1 ∧ space.follow walk = some leaf.2)
    leaves walks
  apart : walks.Pairwise Apart
  covered : ∀ walk inner, walk ≠ [] → space.follow walk = some inner → ∃ known ∈ walks, ¬Apart known walk

theorem Reached.of_perm {listed others : List (List String × Space)} {space : Space} {walks : List (List Step)}
    (reached : Reached listed space walks) (same : others.Perm listed) : ∃ walks, Reached others space walks := by
  rcases List.perm_comp_forall₂ same reached.found with ⟨moved, found, order⟩
  refine ⟨moved, found, (order.pairwise_iff fun apart => apart.symm).mpr reached.apart, ?_⟩
  intro walk inner leading held
  rcases reached.covered walk inner leading held with ⟨known, knownListed, meets⟩
  exact ⟨known, order.mem_iff.mpr knownListed, meets⟩

/-- With any leaf at all, the top too is on a walk. -/
theorem Reached.meets {listed : List (List String × Space)} {space : Space} {walks : List (List Step)}
    (reached : Reached listed space walks) (filled : ∃ leaf, leaf ∈ listed) {walk : List Step} {inner : Space}
    (held : space.follow walk = some inner) : ∃ known ∈ walks, ¬Apart known walk := by
  by_cases top : walk = []
  · subst top
    rcases filled with ⟨leaf, listed⟩
    rcases forall₂_of_mem_left reached.found listed with ⟨known, knownListed, -⟩
    exact ⟨known, knownListed, fun apart => not_apart_nil known apart.symm⟩
  · exact reached.covered walk inner top held

/-! ### Branches -/

/-- A step leads to what is made from a child. -/
structure Leads (space : Space) (child : String × Tree) (step : Step) : Prop where
  named : step.NamedBy child.1
  found : ∃ inner, space.child? step = some inner ∧ toSpace child.2 = .ok inner

theorem keys_eq {children : List (String × Tree)} {entries : List (String × Space)}
    (paired : List.Forall₂ (fun child entry => child.1 = entry.1 ∧ toSpace child.2 = .ok entry.2) children entries) :
    Keyed.keys children = Keyed.keys entries :=
  Keyed.keys_eq_of_forall₂ (paired.imp fun _ _ => And.left)

/-- Different steps lead to the children of a branch, and no other step leads anywhere. -/
theorem exists_steps {children : List (String × Tree)} {space : Space} (becomes : Becomes children space)
    (distinct : Keyed.DistinctKeys children) :
    ∃ steps, List.Forall₂ (Leads space) children steps ∧ steps.Nodup ∧
      ∀ step inner, space.child? step = some inner → step ∈ steps := by
  cases becomes with
  | tuple numbers parts _ counts length placed =>
      refine ⟨numbers.map .part, ?_, ?_, ?_⟩
      · rw [List.forall₂_map_right_iff]
        exact placed.imp fun _ number placed => ⟨.part number _ placed.1, placed.2⟩
      · exact List.Nodup.map (fun _ _ => Step.part.inj) (counts.nodup_iff.mpr List.nodup_range)
      · intro step inner held
        cases step with
        | entry key => cases held
        | part index =>
            have below := (List.getElem?_eq_some_iff.mp held).1
            rw [length, ← List.mem_range, ← counts.mem_iff] at below
            exact List.mem_map_of_mem below
  | dict entries _ paired =>
      have keys := keys_eq paired
      have entriesDistinct : Keyed.DistinctKeys entries := by rwa [Keyed.DistinctKeys, ← keys]
      refine ⟨(Keyed.keys children).map .entry, ?_, List.Nodup.map (fun _ _ => Step.entry.inj) distinct, ?_⟩
      · rw [Keyed.keys, List.map_map, List.forall₂_map_right_iff, List.forall₂_same]
        intro child listed
        rcases forall₂_of_mem_left paired listed with ⟨entry, entryListed, same, made⟩
        refine ⟨.entry _, entry.2, ?_, made⟩
        show Keyed.get? entries child.1 = some entry.2
        rw [same]
        exact Keyed.get?_of_mem entriesDistinct entryListed
      · intro step inner held
        cases step with
        | part index => cases held
        | entry key =>
            rw [keys]
            exact List.mem_map_of_mem (List.mem_map_of_mem (Keyed.mem_of_get? held))

/-- Walks through the children: the steps to these, followed by the walks in what is made from them. -/
theorem exists_walks {space : Space} {children : List (String × Tree)} {steps : List Step}
    (leads : List.Forall₂ (Leads space) children steps) (distinct : steps.Nodup)
    (filled : ∀ child ∈ children, ∃ leaf, leaf ∈ leaves child.2)
    (each : ∀ child ∈ children, ∀ inner, toSpace child.2 = .ok inner → ∃ walks, Reached (leaves child.2) inner walks) :
    ∃ walks : List (List Step),
      List.Forall₂ (fun leaf walk => List.Forall₂ Step.NamedBy walk leaf.1 ∧ space.follow walk = some leaf.2)
        (childLeaves children) walks ∧
      walks.Pairwise Apart ∧ (∀ walk ∈ walks, ∃ step ∈ steps, ∃ rest, walk = step :: rest) ∧
      ∀ step ∈ steps, ∀ rest inner, space.follow (step :: rest) = some inner →
        ∃ known ∈ walks, ¬Apart known (step :: rest) := by
  induction leads with
  | nil => exact ⟨[], .nil, .nil, by simp, by simp⟩
  | @cons child step others otherSteps here _ inductionHypothesis =>
      rcases List.nodup_cons.mp distinct with ⟨fresh, distinct⟩
      rcases List.forall_mem_cons.mp filled with ⟨filledHere, filled⟩
      rcases List.forall_mem_cons.mp each with ⟨reachedHere, each⟩
      rcases inductionHypothesis distinct filled each with ⟨walks, found, apart, begin, covered⟩
      rcases here.found with ⟨space, childFound, made⟩
      rcases reachedHere space made with ⟨below, reached⟩
      refine ⟨below.map (step :: ·) ++ walks, ?_, ?_, ?_, ?_⟩
      · rw [childLeaves]
        refine List.rel_append ?_ found
        rw [List.forall₂_map_left_iff, List.forall₂_map_right_iff]
        refine reached.found.imp fun leaf walk leads => ⟨.cons here.named leads.1, ?_⟩
        rw [follow_cons childFound]
        exact leads.2
      · refine List.pairwise_append.mpr ⟨?_, apart, ?_⟩
        · exact List.pairwise_map.mpr (reached.apart.imp apart_cons.mpr)
        · intro walk walkListed other otherListed
          rcases List.mem_map.mp walkListed with ⟨rest, -, rfl⟩
          rcases begin other otherListed with ⟨otherStep, stepListed, otherRest, rfl⟩
          refine apart_of_ne ?_ _ _
          rintro rfl
          exact fresh stepListed
      · intro walk walkListed
        rcases List.mem_append.mp walkListed with first | later
        · rcases List.mem_map.mp first with ⟨rest, -, rfl⟩
          exact ⟨step, List.mem_cons_self, rest, rfl⟩
        · rcases begin walk later with ⟨otherStep, stepListed, rest, rfl⟩
          exact ⟨otherStep, List.mem_cons_of_mem _ stepListed, rest, rfl⟩
      · intro taken takenListed rest inner held
        rcases List.mem_cons.mp takenListed with rfl | later
        · rw [follow_cons childFound] at held
          rcases reached.meets filledHere held with ⟨known, knownListed, meets⟩
          refine ⟨taken :: known, List.mem_append_left _ (List.mem_map_of_mem knownListed), ?_⟩
          rwa [apart_cons]
        · rcases covered taken later rest inner held with ⟨known, knownListed, meets⟩
          exact ⟨known, List.mem_append_right _ knownListed, meets⟩

/-! ### Trees -/

theorem reached_of_branch {children : List (String × Tree)} {space : Space} (root : Tree.TidyRoot children)
    (made : toSpace (.branch children) = .ok space)
    (each : ∀ child ∈ children, ∀ inner, toSpace child.2 = .ok inner → ∃ walks, Reached (leaves child.2) inner walks) :
    ∃ walks, Reached (childLeaves children) space walks := by
  rcases exists_steps (becomes_of_toSpace made) root.distinct with ⟨steps, leads, distinct, known⟩
  have filled : ∀ child ∈ children, ∃ leaf, leaf ∈ leaves child.2 := fun child listed =>
    (root.tidy child listed).exists_leaf
  rcases exists_walks leads distinct filled each with ⟨walks, found, apart, -, covered⟩
  refine ⟨walks, found, apart, fun walk inner leading held => ?_⟩
  cases walk with
  | nil => exact absurd rfl leading
  | cons step rest =>
      rcases Option.bind_eq_some_iff.mp held with ⟨space, stepFound, -⟩
      exact covered step (known step space stepFound) rest inner held

theorem reached_of_tidy {tree : Tree} (tidy : Tree.Tidy tree) {space : Space} (made : toSpace tree = .ok space) :
    ∃ walks, Reached (leaves tree) space walks := by
  induction tidy generalizing space with
  | leaf held =>
      rw [toSpace] at made
      obtain rfl := Except.ok.inj made
      refine ⟨[[]], ?_, List.pairwise_singleton _ _, fun walk inner _ _ => ?_⟩
      · rw [leaves]
        exact .cons ⟨.nil, rfl⟩ .nil
      · exact ⟨[], List.mem_singleton_self _, not_apart_nil walk⟩
  | branch children filled distinct tidy inductionHypothesis =>
      rw [leaves]
      exact reached_of_branch ⟨distinct, tidy⟩ made fun child listed _ => inductionHypothesis child listed

/-- All leaves of a gathered tree are found in the space that is made from it, and nothing else. -/
theorem reached_of_root {children : List (String × Tree)} (root : Tree.TidyRoot children) {space : Space}
    (made : toSpace (.branch children) = .ok space) : ∃ walks, Reached (childLeaves children) space walks :=
  reached_of_branch root made fun child listed _ => reached_of_tidy (root.tidy child listed)

/-! ### Well-formedness -/

theorem lt_of_bracketed? {piece : String} {index : Nat} (read : bracketed? piece = some index) : index < 2 ^ 64 := by
  rcases FlatKey.exists_of_bracketed? read with ⟨cs, -, answered⟩
  rcases FlatKey.readIndex?_eq_some.mp answered with ⟨numeral, rfl⟩
  exact numeral.bounded

theorem wellFormed_of_branch {children : List (String × Tree)} {space : Space} (distinct : Keyed.DistinctKeys children)
    (made : toSpace (.branch children) = .ok space) (below : ∀ leaf ∈ childLeaves children, leaf.2.WellFormed)
    (each : ∀ child ∈ children, ∀ inner, toSpace child.2 = .ok inner → (∀ leaf ∈ leaves child.2, leaf.2.WellFormed) →
      inner.WellFormed) : space.WellFormed := by
  have wellFormed {child : String × Tree} (listed : child ∈ children) {inner : Space}
      (innerMade : toSpace child.2 = .ok inner) : inner.WellFormed :=
    each child listed inner innerMade fun leaf leafListed =>
      below (under child.1 leaf) (Tree.mem_childLeaves.mpr ⟨child, listed, leaf, leafListed, rfl⟩)
  have becomes := becomes_of_toSpace made
  cases becomes with
  | tuple numbers parts filled counts length placed =>
      refine .tuple ?_ fun part listed => ?_
      · -- The last position has a number of its own, which was read.
        have last : parts.length - 1 ∈ numbers := by
          rw [counts.mem_iff, List.mem_range, length]
          exact Nat.sub_one_lt_of_lt (List.length_pos_of_ne_nil filled)
        rcases forall₂_of_mem_right placed last with ⟨child, -, read, -⟩
        exact Nat.le_of_pred_lt (lt_of_bracketed? read)
      · rcases List.getElem?_of_mem listed with ⟨index, held⟩
        rcases (becomes_of_toSpace made).child_of_part held with ⟨child, childListed, -, partMade⟩
        exact wellFormed childListed partMade
  | dict entries _ paired =>
      refine .dict ?_ fun entry listed => ?_
      · rwa [Keyed.DistinctKeys, ← keys_eq paired]
      · rcases forall₂_of_mem_right paired listed with ⟨child, childListed, -, entryMade⟩
        exact wellFormed childListed entryMade

theorem wellFormed_of_tidy {tree : Tree} (tidy : Tree.Tidy tree) {space : Space} (made : toSpace tree = .ok space)
    (below : ∀ leaf ∈ leaves tree, leaf.2.WellFormed) : space.WellFormed := by
  induction tidy generalizing space with
  | leaf held =>
      rw [toSpace] at made
      rw [← Except.ok.inj made]
      exact below ([], held) (by rw [leaves]; exact List.mem_singleton_self _)
  | branch children filled distinct tidy inductionHypothesis =>
      rw [leaves] at below
      exact wellFormed_of_branch distinct made below fun child listed _ => inductionHypothesis child listed

/-- Well-formed leaves make a well-formed space. -/
theorem wellFormed_of_root {children : List (String × Tree)} (root : Tree.TidyRoot children) {space : Space}
    (made : toSpace (.branch children) = .ok space) (below : ∀ leaf ∈ childLeaves children, leaf.2.WellFormed) :
    space.WellFormed :=
  wellFormed_of_branch root.distinct made below fun child listed _ => wellFormed_of_tidy (root.tidy child listed)

end Wiring.Space
