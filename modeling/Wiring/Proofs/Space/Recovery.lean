import Mathlib.Data.List.Forall2
import Wiring.Proofs.Space.Trees

/-!
Contract: exactly the recoverable spaces come back from their flat form.

Owns: `Grown`, what is true of the trees that are gathered from any leaves; that every space made from such a
tree is recoverable; and the equivalence.

Does not own: what becomes of the other spaces, which come back changed or not at all.
-/

namespace Wiring.Space

open FlatKey (Fault Tree becomes_of_toSpace indices?_eq_none_iff path)

/-! ### Gathered trees -/

/-- Leaves are boxes, no piece has a slash, and every branch below has a child. -/
inductive Grown : Tree → Prop where
  | leaf (box : Box) : Grown (.leaf (.box box))
  | branch (children : List (String × Tree)) (filled : children ≠ [])
      (separators : ∀ child ∈ children, '/' ∉ child.1.toList) (grown : ∀ child ∈ children, Grown child.2) :
      Grown (.branch children)

/-- What the root of a gathered tree branches into. -/
structure Rooted (children : List (String × Tree)) : Prop where
  separators : ∀ child ∈ children, '/' ∉ child.1.toList
  grown : ∀ child ∈ children, Grown child.2

theorem Rooted.nil : Rooted [] where
  separators _ listed := by cases listed
  grown _ listed := by cases listed

theorem Rooted.insert {children : List (String × Tree)} (rooted : Rooted children) {key : String} {child : Tree}
    (free : '/' ∉ key.toList) (grown : Grown child) : Rooted (Keyed.insert key child children) where
  separators other listed := by
    rcases Keyed.mem_insert listed with rfl | old
    · exact free
    · exact rooted.separators other old
  grown other listed := by
    rcases Keyed.mem_insert listed with rfl | old
    · exact grown
    · exact rooted.grown other old

/-- A box put into a tree leaves no branch on its way empty. -/
theorem Rooted.insert_box {key : String} {leaf : Box} {pieces : List String} {tree : Tree}
    {children : List (String × Tree)} (rooted : Rooted children) (free : ∀ piece ∈ pieces, '/' ∉ piece.toList)
    (inserted : Tree.insert key (.box leaf) pieces (.branch children) = .ok tree) :
    ∃ grown, tree = .branch grown ∧ grown ≠ [] ∧ Rooted grown := by
  induction pieces generalizing children tree with
  | nil => cases inserted
  | cons head rest inductionHypothesis =>
      have headFree := free head List.mem_cons_self
      cases rest with
      | nil =>
          rw [Tree.insert] at inserted
          cases known : Keyed.contains children head with
          | true =>
              rw [known] at inserted
              cases inserted
          | false =>
              rw [known] at inserted
              obtain rfl := Except.ok.inj inserted
              have fresh : head ∉ Keyed.keys children := by
                rw [← Keyed.contains_iff_mem_keys, known]
                exact Bool.false_ne_true
              rw [← Keyed.insert_of_notMem fresh]
              exact ⟨_, rfl, Keyed.insert_ne_nil _ _ _, rooted.insert headFree (.leaf leaf)⟩
      | cons next more =>
          rw [Tree.insert] at inserted
          cases held : (Keyed.get? children head).getD (.branch []) with
          | leaf space =>
              rw [held] at inserted
              cases inserted
          | branch below =>
              rw [held] at inserted
              have belowRooted : Rooted below := by
                cases found : Keyed.get? children head with
                | none =>
                    rw [found] at held
                    obtain rfl := Tree.branch.inj held
                    exact .nil
                | some known =>
                    rw [found] at held
                    have knownGrown := rooted.grown _ (Keyed.mem_of_get? found)
                    obtain rfl : known = .branch below := held
                    cases knownGrown with
                    | branch _ _ separators grown => exact ⟨separators, grown⟩
              cases deeper : Tree.insert key (.box leaf) (next :: more) (.branch below) with
              | error fault =>
                  rw [deeper] at inserted
                  cases inserted
              | ok child =>
                  rw [deeper] at inserted
                  obtain rfl := Except.ok.inj inserted
                  rcases inductionHypothesis belowRooted
                    (fun piece member => free piece (List.mem_cons_of_mem _ member)) deeper with
                    ⟨grown, rfl, filled, grownRooted⟩
                  exact ⟨_, rfl, Keyed.insert_ne_nil _ _ _,
                    rooted.insert headFree (.branch grown filled grownRooted.separators grownRooted.grown)⟩

/-- Gathering boxes, whatever their keys. -/
theorem Rooted.gather {leaves : List (String × Box)} {children : List (String × Tree)} (rooted : Rooted children)
    {tree : Tree} (gathered : plant 0 (boxed leaves) (.branch children) = .ok tree) :
    ∃ grown, tree = .branch grown ∧ Rooted grown := by
  induction leaves generalizing children with
  | nil =>
      obtain rfl := Except.ok.inj gathered
      exact ⟨children, rfl, rooted⟩
  | cons first rest inductionHypothesis =>
      rcases except_bind_eq_ok.mp gathered with ⟨middle, inserted, gathered⟩
      rcases rooted.insert_box (fun piece member => FlatKey.notMem_of_mem_path member) inserted with
        ⟨grown, rfl, -, grownRooted⟩
      exact inductionHypothesis grownRooted gathered

/-- Whatever is made from a grown tree is settled. -/
theorem Grown.settled {tree : Tree} (grown : Grown tree) {space : Space} (made : Tree.toSpace tree = .ok space) :
    space.Settled := by
  induction grown generalizing space with
  | leaf leaf =>
      rw [Tree.toSpace] at made
      obtain rfl := Except.ok.inj made
      exact .box leaf
  | branch children filled separators _ inductionHypothesis =>
      cases becomes_of_toSpace made with
      | tuple numbers parts _ counts length placed =>
          refine .tuple parts ?_ fun part listed => ?_
          · rintro rfl
            exact filled (List.length_eq_zero_iff.mp length.symm)
          · rcases List.getElem?_of_mem listed with ⟨index, held⟩
            rcases (becomes_of_toSpace made).child_of_part held with ⟨child, member, -, partMade⟩
            exact inductionHypothesis child member partMade
      | dict entries unnumbered paired =>
          refine .dict entries ?_ (fun entry listed => ?_) ?_ fun entry listed => ?_
          · rintro rfl
            cases paired
            exact filled rfl
          · rcases forall₂_of_mem_right paired listed with ⟨child, member, same, -⟩
            exact same ▸ separators child member
          · rcases indices?_eq_none_iff.mp (unnumbered.resolve_left filled) with ⟨child, member, unread⟩
            rcases forall₂_of_mem_left paired member with ⟨entry, listed, same, -⟩
            exact ⟨entry, listed, same ▸ unread⟩
          · rcases forall₂_of_mem_right paired listed with ⟨child, member, -, entryMade⟩
            exact inductionHypothesis child member entryMade

/-! ### Flat forms -/

/-- Whatever comes back from the flat form of a space is recoverable. -/
theorem recoverable_of_unflatten {original space : Space} (back : unflatten original.flatSpaces = .ok space) :
    space.Recoverable := by
  have boxes : original.flatSpaces = boxed original.flatten := rfl
  unfold unflatten at back
  split at back
  next known held =>
    split at back
    · obtain rfl := Except.ok.inj back
      rcases List.mem_map.mp (boxes ▸ Keyed.mem_of_get? held) with ⟨leaf, -, same⟩
      obtain rfl : Space.box leaf.2 = known := congrArg Prod.snd same
      exact .of_settled (.box leaf.2)
    · cases back
  next absent =>
    rcases except_bind_eq_ok.mp back with ⟨tree, gathered, made⟩
    rw [gather_eq_plant, boxes] at gathered
    rcases Rooted.nil.gather gathered with ⟨children, rfl, rooted⟩
    by_cases empty : children = []
    · rw [empty, Tree.toSpace] at made
      obtain rfl := Except.ok.inj made
      exact recoverable_iff.mpr (.inl rfl)
    · exact .of_settled (Grown.settled (.branch children empty rooted.separators rooted.grown) made)

theorem Fit.unflatten_flatSpaces {space : Space} (fit : space.Fit) : unflatten space.flatSpaces = .ok space := by
  cases container : space.isContainer with
  | false =>
      cases space with
      | box leaf => rfl
      | dict entries => cases container
      | tuple parts => cases container
  | true =>
      have absent : "" ∉ Keyed.keys space.flatSpaces := by
        rw [keys_flatSpaces]
        exact notMem_keys_flatten container
      rw [unflatten, Keyed.get?_eq_none absent]
      show (Tree.gather space.flatSpaces >>= Tree.toSpace) = .ok space
      rw [fit.gather container]
      exact fit.settled.toSpace_toTree fit.wellFormed

/-- A space comes back from its flat form exactly if no key of a dict has a slash, no container inside is empty,
the space is no empty tuple, and no dict but an empty one has only keys that are numbers in brackets. -/
theorem unflatten_flatSpaces_iff {space : Space} (wellFormed : space.WellFormed) :
    unflatten space.flatSpaces = .ok space ↔ space.Recoverable := by
  constructor
  · exact recoverable_of_unflatten
  · intro recoverable
    rcases recoverable_iff.mp recoverable with rfl | settled
    · rfl
    · exact Fit.unflatten_flatSpaces ⟨settled, wellFormed⟩

/-- A dict with a tuple inside, one of its keys numbered and the other not. -/
def sampleNested : Space :=
  .dict [("[7]", floatBox [2]), ("b", .tuple [boolBox []])]

/-- A dict that is taken for a tuple. -/
def sampleNumbered : Space :=
  .dict [("[+0]", floatBox [])]

theorem fit_sampleNested : sampleNested.Fit where
  settled := by
    refine .dict _ (List.cons_ne_nil _ _) ?_ ⟨("b", .tuple [boolBox []]), ?_, rfl⟩ ?_
    · exact List.forall_mem_cons.mpr ⟨by decide, List.forall_mem_singleton.mpr (by decide)⟩
    · exact List.mem_cons_of_mem _ List.mem_cons_self
    · refine List.forall_mem_cons.mpr ⟨.box _, List.forall_mem_singleton.mpr ?_⟩
      exact .tuple _ (List.cons_ne_nil _ _) (List.forall_mem_singleton.mpr (.box _))
  wellFormed := by
    refine .dict (show ["[7]", "b"].Nodup by decide) (List.forall_mem_cons.mpr ⟨.box _, ?_⟩)
    exact List.forall_mem_singleton.mpr (.tuple (by decide) (List.forall_mem_singleton.mpr (.box _)))

theorem unflatten_flatSpaces_iff_samples :
    (sampleNested.WellFormed ∧ unflatten sampleNested.flatSpaces = .ok sampleNested) ∧
      (sampleNumbered.WellFormed ∧ unflatten sampleNumbered.flatSpaces ≠ .ok sampleNumbered) := by
  have wellFormed := fit_sampleNested.wellFormed
  have wellFormedToo : sampleNumbered.WellFormed :=
    .dict (show ["[+0]"].Nodup by decide) (List.forall_mem_singleton.mpr (.box _))
  refine ⟨⟨wellFormed, (unflatten_flatSpaces_iff wellFormed).mpr (.of_settled fit_sampleNested.settled)⟩,
    wellFormedToo, ?_⟩
  intro back
  refine ((unflatten_flatSpaces_iff wellFormedToo).mp back).named _ .refl (List.cons_ne_nil _ _) fun key listed => ?_
  obtain rfl := List.mem_singleton.mp listed
  exact FlatKey.isSome_bracketed?_iff.mp rfl

end Wiring.Space
