import Wiring.Proofs.Space.Recovery
import Wiring.Proofs.Space.Unflattening

/-!
Contract: spaces put in the places of boxes.

Owns: `substitute`, by which a space is put in the place of every box by the key of that box; that this is what
comes of the flat form if the spaces are put in there and the original space can come back from it; and that
changed boxes are a case of it.

Does not own: where the spaces come from.
-/

namespace Wiring

open FlatKey (Tree path)

/-! ### Trees with other leaves -/

namespace FlatKey.Tree

variable (replacement : String → Space)

mutual

/-- The tree with the replacement for its key at every leaf; the root has the key `stem`. -/
def relabel (stem : String) : Tree → Tree
  | .leaf _ => .leaf (replacement stem)
  | .branch children => .branch (relabelChildren stem children)

def relabelChildren (stem : String) : List (String × Tree) → List (String × Tree)
  | [] => []
  | (piece, child) :: rest => (piece, relabel (entry stem piece) child) :: relabelChildren stem rest

end

theorem relabelChildren_eq (stem : String) (children : List (String × Tree)) :
    relabelChildren replacement stem children =
      Keyed.mapValues (fun piece => relabel replacement (entry stem piece)) children := by
  induction children with
  | nil => rfl
  | cons first rest inductionHypothesis =>
      rw [relabelChildren, inductionHypothesis]
      rfl

theorem relabel_childOr (stem piece : String) (children : List (String × Tree)) :
    (Keyed.get? (relabelChildren replacement stem children) piece).getD (.branch []) =
      relabel replacement (entry stem piece) ((Keyed.get? children piece).getD (.branch [])) := by
  rw [relabelChildren_eq, Keyed.get?_mapValues]
  cases Keyed.get? children piece with
  | none =>
      rw [Option.map_none, Option.getD_none, relabel]
      rfl
  | some child => rfl

/-- Where a space goes in a tree, and whether it does, has nothing to do with the leaves. -/
theorem insert_relabel (key : String) (space : Space) (pieces : List String) (stem : String) (tree : Tree) :
    insert key (replacement (pieces.foldl entry stem)) pieces (relabel replacement stem tree) =
      (insert key space pieces tree).map (relabel replacement stem) := by
  induction pieces generalizing stem tree with
  | nil => cases tree <;> rfl
  | cons piece rest inductionHypothesis =>
      cases tree with
      | leaf known => cases rest <;> rfl
      | branch children =>
          cases rest with
          | nil =>
              rw [relabel, insert, insert, relabelChildren_eq, Keyed.contains_mapValues]
              split
              · rfl
              · show _ = Except.ok (relabel replacement stem _)
                rw [relabel, relabelChildren_eq, Keyed.mapValues, Keyed.mapValues, List.map_append]
                rfl
          | cons next more =>
              rw [relabel, insert, insert, relabel_childOr, List.foldl_cons, inductionHypothesis]
              cases insert key space (next :: more) ((Keyed.get? children piece).getD (.branch [])) with
              | error fault => rfl
              | ok child =>
                  show Except.ok (Tree.branch _) = Except.ok (relabel replacement stem (.branch _))
                  rw [relabel, relabelChildren_eq, relabelChildren_eq, Keyed.mapValues_insert]

/-- A key that is spelled by its path, as all keys are that begin with a slash. -/
def Spelled (key : String) : Prop :=
  (path key).foldl entry "" = key

theorem gather_relabel {flat : Keyed Space} (spelled : ∀ entry ∈ flat, Spelled entry.1) (tree : Tree) :
    gatherInto (Keyed.mapValues (fun key _ => replacement key) flat) (relabel replacement "" tree) =
      (gatherInto flat tree).map (relabel replacement "") := by
  induction flat generalizing tree with
  | nil => rfl
  | cons first rest inductionHypothesis =>
      have step := insert_relabel replacement first.1 first.2 (path first.1) "" tree
      rw [spelled first List.mem_cons_self] at step
      show gatherInto ((first.1, replacement first.1) :: Keyed.mapValues (fun key _ => replacement key) rest) _ = _
      rw [gatherInto_cons, gatherInto_cons, step]
      cases insert first.1 first.2 (path first.1) tree with
      | error fault => rfl
      | ok grown => exact inductionHypothesis (fun entry listed => spelled entry (List.mem_cons_of_mem _ listed)) grown

end FlatKey.Tree

namespace Space

/-! ### Substitutions -/

section

variable (replacement : String → Space)

mutual

/-- The space with the replacement for its key in the place of every box; the space itself has the key `stem`. -/
def substitute (stem : String) : Space → Space
  | .box _ => replacement stem
  | .dict entries => .dict (substituteEntries stem entries)
  | .tuple parts => .tuple (substituteParts stem 0 parts)

def substituteEntries (stem : String) : List (String × Space) → List (String × Space)
  | [] => []
  | (key, space) :: rest => (key, substitute (FlatKey.entry stem key) space) :: substituteEntries stem rest

def substituteParts (stem : String) (index : Nat) : List Space → List Space
  | [] => []
  | space :: rest => substitute (FlatKey.part stem index) space :: substituteParts stem (index + 1) rest

end

theorem substituteEntries_eq (stem : String) (entries : List (String × Space)) :
    substituteEntries replacement stem entries =
      Keyed.mapValues (fun key => substitute replacement (FlatKey.entry stem key)) entries := by
  induction entries with
  | nil => rfl
  | cons first rest inductionHypothesis =>
      rw [substituteEntries, inductionHypothesis]
      rfl

theorem numbered_substituteParts (stem : String) (index : Nat) (parts : List Space) :
    numbered index (substituteParts replacement stem index parts) =
      substituteEntries replacement stem (numbered index parts) := by
  induction parts generalizing index with
  | nil => rfl
  | cons first rest inductionHypothesis =>
      rw [substituteParts, numbered, numbered, substituteEntries, inductionHypothesis, FlatKey.part_eq_entry]

theorem length_substituteParts (stem : String) (index : Nat) (parts : List Space) :
    (substituteParts replacement stem index parts).length = parts.length := by
  induction parts generalizing index with
  | nil => rfl
  | cons first rest inductionHypothesis =>
      rw [substituteParts, List.length_cons, inductionHypothesis, List.length_cons]

/-- The tree of a settled space with other leaves has the space with these leaves in the places of its boxes. -/
theorem Settled.toSpace_relabel {space : Space} (settled : space.Settled) (wellFormed : space.WellFormed)
    (stem : String) :
    Tree.toSpace (Tree.relabel replacement stem (toTree space)) = .ok (substitute replacement stem space) := by
  -- Below a container, each child becomes the substituted entry.
  have yields {entries : List (String × Space)} (stem : String)
      (each : ∀ entry ∈ entries, Tree.toSpace (Tree.relabel replacement (FlatKey.entry stem entry.1) (toTree entry.2)) =
        .ok (substitute replacement (FlatKey.entry stem entry.1) entry.2)) :
      Yields (Tree.relabelChildren replacement stem (entryTrees entries))
        (substituteEntries replacement stem entries) := by
    rw [entryTrees_eq_map, Tree.relabelChildren_eq, substituteEntries_eq, Keyed.mapValues, Keyed.mapValues,
      List.map_map, Yields, List.forall₂_map_left_iff, List.forall₂_map_right_iff, List.forall₂_same]
    exact fun entry listed => ⟨rfl, each entry listed⟩
  induction settled generalizing stem with
  | box leaf => rw [toTree, Tree.relabel, Tree.toSpace, substitute]
  | dict entries filled separators named _ inductionHypothesis =>
      rw [toTree, Tree.relabel, substitute]
      refine (yields stem fun entry listed => ?_).dict ?_
      · exact inductionHypothesis entry listed (wellFormed.part (.entry entry.1 entry.2 entries listed)) _
      · rcases named with ⟨entry, listed, unread⟩
        rw [substituteEntries_eq]
        exact ⟨_, List.mem_map.mpr ⟨entry, listed, rfl⟩, unread⟩
  | tuple parts filled _ inductionHypothesis =>
      rw [toTree, partTrees_eq, Tree.relabel, substitute]
      have children : Yields (Tree.relabelChildren replacement stem (entryTrees (numbered 0 parts)))
          (substituteEntries replacement stem (numbered 0 parts)) := by
        refine yields stem fun entry listed => ?_
        have member := (mem_numbered listed).1
        exact inductionHypothesis entry.2 member (wellFormed.part (.part entry.2 parts member)) _
      rw [← numbered_substituteParts] at children
      have length := length_substituteParts replacement stem 0 parts
      refine children.tuple (length ▸ wellFormed.counted parts .refl) fun empty => filled ?_
      rw [← List.length_eq_zero_iff, ← length, empty, List.length_nil]

end

/-! ### Flat forms with other leaves -/

theorem Fit.spelled {space : Space} (fit : space.Fit) :
    ∀ stem, Tree.Spelled stem → ∀ leaf ∈ leavesUnder stem space, Tree.Spelled leaf.1 := by
  induction fit using Fit.induct with
  | box leaf _ =>
      intro stem spelled other listed
      rw [List.mem_singleton.mp listed]
      exact spelled
  | container space _ known branching _ inductionHypothesis =>
      intro stem spelled leaf listed
      rw [leavesUnder_container known] at listed
      rcases mem_entryLeaves.mp listed with ⟨entry, member, own⟩
      refine inductionHypothesis entry member _ ?_ leaf own
      have spelled : (path stem).foldl FlatKey.entry "" = stem := spelled
      rw [Tree.Spelled, FlatKey.path_entry stem (branching.separators entry member), List.foldl_append, spelled]
      rfl

/-- A space that comes back from its flat form is the empty dict or fit. -/
theorem fit_of_unflatten {space : Space} (back : unflatten space.flatSpaces = .ok space) :
    space = .dict [] ∨ space.Fit := by
  rcases recoverable_iff.mp (recoverable_of_unflatten back) with empty | settled
  · exact .inl empty
  · refine .inr ⟨settled, ?_⟩
    cases container : space.isContainer with
    | false =>
        cases space with
        | box leaf => exact .box leaf
        | dict entries => cases container
        | tuple parts => cases container
    | true =>
        have absent := notMem_keys_flatten container
        rw [← keys_flatSpaces] at absent
        refine wellFormed_of_unflatten absent back fun entry listed => ?_
        rcases List.mem_map.mp listed with ⟨leaf, -, rfl⟩
        exact .box leaf.2

/-- Every box of such a space is found by its key. -/
theorem get?_flatten_of_unflatten {space : Space} (back : unflatten space.flatSpaces = .ok space)
    {leaf : String × Box} (listed : leaf ∈ leavesUnder "" space) : Keyed.get? space.flatten leaf.1 = some leaf.2 := by
  rcases fit_of_unflatten back with rfl | fit
  · cases listed
  · rw [fit.flatten_eq]
    exact Keyed.get?_of_mem (fit.distinctKeys_leavesUnder "") listed

theorem Fit.unflatten_substitute {space : Space} (fit : space.Fit) (container : space.isContainer = true)
    (replacement : String → Space) :
    unflatten ((Keyed.keys space.flatten).map fun key => (key, replacement key)) =
      .ok (space.substitute replacement "") := by
  have replaced : ((Keyed.keys space.flatten).map fun key => (key, replacement key)) =
      Keyed.mapValues (fun key _ => replacement key) space.flatSpaces := by
    rw [← keys_flatSpaces, Keyed.keys, List.map_map]
    rfl
  have spelled : ∀ entry ∈ space.flatSpaces, Tree.Spelled entry.1 := by
    intro entry listed
    rcases List.mem_map.mp listed with ⟨leaf, leafListed, rfl⟩
    rw [fit.flatten_eq] at leafListed
    exact fit.spelled "" rfl leaf leafListed
  have absent : "" ∉ Keyed.keys ((Keyed.keys space.flatten).map fun key => (key, replacement key)) := by
    rw [Keyed.keys, List.map_map]
    show "" ∉ (Keyed.keys space.flatten).map id
    rw [List.map_id]
    exact notMem_keys_flatten container
  have gathered := Tree.gather_relabel replacement spelled (.branch [])
  rw [show Tree.gatherInto space.flatSpaces (.branch []) = _ from fit.gather container, ← replaced] at gathered
  rw [unflatten_of_notMem absent]
  show (Tree.gatherInto _ (Tree.relabel replacement "" (.branch [])) >>= Tree.toSpace) = _
  rw [gathered]
  exact fit.settled.toSpace_relabel replacement fit.wellFormed ""

/-- A space that comes back from its flat form comes back with a replacement for every box if the flat form has the
replacements under the keys of the boxes. -/
theorem unflatten_substitute (replacement : String → Space) {space : Space}
    (back : unflatten space.flatSpaces = .ok space) :
    unflatten ((Keyed.keys space.flatten).map fun key => (key, replacement key)) =
      .ok (space.substitute replacement "") := by
  rcases fit_of_unflatten back with rfl | fit
  · rfl
  · cases container : space.isContainer with
    | false =>
        cases space with
        | box leaf => rfl
        | dict entries => cases container
        | tuple parts => cases container
    | true => exact fit.unflatten_substitute container replacement

/-! ### Changed boxes -/

mutual

/-- Replacing every box by its changed form is changing the boxes. -/
theorem substitute_eq_mapBoxes (replacement : String → Space) (change : Box → Box) (stem : String) :
    ∀ space, (∀ leaf ∈ leavesUnder stem space, replacement leaf.1 = .box (change leaf.2)) →
      substitute replacement stem space = mapBoxes change space
  | .box leaf, changes => changes (stem, leaf) (List.mem_singleton_self _)
  | .dict entries, changes =>
      congrArg Space.dict (substituteEntries_eq_mapEntries replacement change stem entries changes)
  | .tuple parts, changes =>
      congrArg Space.tuple (substituteParts_eq_mapParts replacement change stem 0 parts changes)

theorem substituteEntries_eq_mapEntries (replacement : String → Space) (change : Box → Box) (stem : String) :
    ∀ entries, (∀ leaf ∈ entryLeaves stem entries, replacement leaf.1 = .box (change leaf.2)) →
      substituteEntries replacement stem entries = mapEntries change entries
  | [], _ => rfl
  | (key, space) :: rest, changes => by
      rw [entryLeaves, List.forall_mem_append] at changes
      rw [substituteEntries, mapEntries, substitute_eq_mapBoxes replacement change _ space changes.1,
        substituteEntries_eq_mapEntries replacement change stem rest changes.2]

theorem substituteParts_eq_mapParts (replacement : String → Space) (change : Box → Box) (stem : String)
    (index : Nat) : ∀ parts, (∀ leaf ∈ partLeaves stem index parts, replacement leaf.1 = .box (change leaf.2)) →
      substituteParts replacement stem index parts = mapParts change parts
  | [], _ => rfl
  | space :: rest, changes => by
      rw [partLeaves, List.forall_mem_append] at changes
      rw [substituteParts, mapParts, substitute_eq_mapBoxes replacement change _ space changes.1,
        substituteParts_eq_mapParts replacement change stem (index + 1) rest changes.2]

end

end Space

end Wiring
