import Mathlib.Data.List.Perm.Basic
import Wiring.Proofs.Keyed
import Wiring.Proofs.Space.Keys

/-!
Contract: which keyed spaces are gathered into one tree, and what the tree then holds.

Owns: `Apart`, by which neither of two paths begins with the other; `leaves`, the spaces of a tree with their
paths; `Tidy`, by which children have different pieces and branches have leaves; that a space can be put into
a tidy tree exactly at a path apart from those of its leaves; and that keyed spaces are gathered exactly if
their paths are apart from each other, into a tidy tree with these leaves.

Does not own: the spaces that are made from trees.
-/

namespace Wiring.FlatKey

/-! ### Paths apart -/

section

variable {α : Type}

/-- Neither path begins with the other one. -/
def Apart (left right : List α) : Prop :=
  ¬left <+: right ∧ ¬right <+: left

theorem Apart.symm {left right : List α} (apart : Apart left right) : Apart right left :=
  ⟨apart.2, apart.1⟩

theorem apart_cons {first : α} {left right : List α} : Apart (first :: left) (first :: right) ↔ Apart left right := by
  simp only [Apart, List.cons_prefix_cons, true_and]

theorem apart_of_ne {first second : α} (differ : first ≠ second) (left right : List α) :
    Apart (first :: left) (second :: right) := by
  simp only [Apart, List.cons_prefix_cons, not_and]
  exact ⟨fun same => absurd same differ, fun same => absurd same.symm differ⟩

theorem not_apart_nil (path : List α) : ¬Apart [] path :=
  fun apart => apart.1 List.nil_prefix

end

namespace Tree

variable {children : List (String × Tree)}

/-! ### Leaves -/

/-- A leaf of a child, seen from the branch. -/
def under (piece : String) (leaf : List String × Space) : List String × Space :=
  (piece :: leaf.1, leaf.2)

mutual

/-- The spaces in a tree with their paths, in order. -/
def leaves : Tree → List (List String × Space)
  | .leaf space => [([], space)]
  | .branch children => childLeaves children

def childLeaves : List (String × Tree) → List (List String × Space)
  | [] => []
  | (piece, child) :: rest => (leaves child).map (under piece) ++ childLeaves rest

end

theorem childLeaves_eq (children : List (String × Tree)) :
    childLeaves children = children.flatMap fun child => (leaves child.2).map (under child.1) := by
  induction children with
  | nil => rw [childLeaves, List.flatMap_nil]
  | cons first rest inductionHypothesis => rw [childLeaves, inductionHypothesis, List.flatMap_cons]

theorem mem_childLeaves {leaf : List String × Space} :
    leaf ∈ childLeaves children ↔ ∃ child ∈ children, ∃ below ∈ leaves child.2, under child.1 below = leaf := by
  simp only [childLeaves_eq, List.mem_flatMap, List.mem_map]

/-- The child of a piece; where there is none, one without leaves. -/
def childAt (children : List (String × Tree)) (piece : String) : Tree :=
  (Keyed.get? children piece).getD (.branch [])

theorem childAt_cons_self (piece : String) (child : Tree) (rest : List (String × Tree)) :
    childAt ((piece, child) :: rest) piece = child := by
  simp [childAt, Keyed.get?]

theorem childAt_cons_of_ne {piece other : String} (differ : other ≠ piece) (child : Tree)
    (rest : List (String × Tree)) : childAt ((other, child) :: rest) piece = childAt rest piece := by
  have unequal : (piece == other) = false := by simpa using differ.symm
  simp only [childAt, Keyed.get?, List.lookup_cons, unequal]

theorem childAt_of_notMem {piece : String} (absent : piece ∉ Keyed.keys children) :
    childAt children piece = .branch [] := by
  rw [childAt, Keyed.get?_eq_none absent, Option.getD_none]

theorem leaves_childAt_of_notMem {piece : String} (absent : piece ∉ Keyed.keys children) :
    leaves (childAt children piece) = [] := by
  rw [childAt_of_notMem absent, leaves, childLeaves]

/-- A child that gets one more leaf gives the branch one more leaf. -/
theorem childLeaves_insert {piece : String} {child : Tree} {added : List String × Space}
    (grown : (leaves child).Perm (added :: leaves (childAt children piece))) :
    (childLeaves (Keyed.insert piece child children)).Perm (under piece added :: childLeaves children) := by
  induction children with
  | nil =>
      have grown : (leaves child).Perm [added] := grown
      simp only [Keyed.insert, childLeaves, List.append_nil]
      exact grown.map (under piece)
  | cons first rest inductionHypothesis =>
      obtain ⟨other, kept⟩ := first
      by_cases same : other = piece
      · subst same
        rw [childAt_cons_self] at grown
        rw [Keyed.insert, if_pos rfl, childLeaves, childLeaves, ← List.cons_append]
        exact (grown.map (under other)).append_right (childLeaves rest)
      · rw [childAt_cons_of_ne same] at grown
        rw [Keyed.insert, if_neg same, childLeaves, childLeaves]
        exact ((inductionHypothesis grown).append_left _).trans List.perm_middle

/-! ### Tidy trees -/

/-- Children have different pieces, and every branch has a child. -/
inductive Tidy : Tree → Prop where
  | leaf (space : Space) : Tidy (.leaf space)
  | branch (children : List (String × Tree)) (filled : children ≠ []) (distinct : Keyed.DistinctKeys children)
      (tidy : ∀ child ∈ children, Tidy child.2) : Tidy (.branch children)

/-- What the root of a gathered tree branches into, which may be nothing. -/
structure TidyRoot (children : List (String × Tree)) : Prop where
  distinct : Keyed.DistinctKeys children
  tidy : ∀ child ∈ children, Tidy child.2

theorem Tidy.root (tidy : Tidy (.branch children)) : TidyRoot children := by
  cases tidy with
  | branch _ _ distinct tidy => exact ⟨distinct, tidy⟩

theorem TidyRoot.nil : TidyRoot [] where
  distinct := Keyed.distinctKeys_nil
  tidy _ listed := by cases listed

theorem TidyRoot.insert (root : TidyRoot children) (piece : String) {child : Tree} (tidy : Tidy child) :
    TidyRoot (Keyed.insert piece child children) where
  distinct := Keyed.distinctKeys_insert root.distinct piece child
  tidy other listed := by
    rcases Keyed.mem_insert listed with rfl | old
    · exact tidy
    · exact root.tidy other old

theorem Tidy.exists_leaf {tree : Tree} (tidy : Tidy tree) : ∃ leaf, leaf ∈ leaves tree := by
  induction tidy with
  | leaf space => exact ⟨([], space), by rw [leaves]; exact List.mem_singleton_self _⟩
  | branch children filled _ _ inductionHypothesis =>
      rcases List.exists_mem_of_ne_nil _ filled with ⟨child, listed⟩
      rcases inductionHypothesis child listed with ⟨leaf, below⟩
      exact ⟨under child.1 leaf, by rw [leaves]; exact mem_childLeaves.mpr ⟨child, listed, leaf, below, rfl⟩⟩

/-- The leaves whose paths begin with a piece are those of its child. -/
theorem TidyRoot.mem_childLeaves_cons (root : TidyRoot children) {piece : String} {path : List String}
    {space : Space} :
    (piece :: path, space) ∈ childLeaves children ↔ (path, space) ∈ leaves (childAt children piece) := by
  rw [mem_childLeaves]
  constructor
  · rintro ⟨child, listed, below, belowListed, same⟩
    obtain ⟨rfl, rfl⟩ : child.1 = piece ∧ below = (path, space) := by
      simp only [under, Prod.mk.injEq, List.cons.injEq] at same
      exact ⟨same.1.1, Prod.ext same.1.2 same.2⟩
    rw [childAt, Keyed.get?_of_mem root.distinct listed]
    exact belowListed
  · intro listed
    unfold childAt at listed
    cases held : Keyed.get? children piece with
    | none =>
        rw [held, Option.getD_none, leaves, childLeaves] at listed
        cases listed
    | some child =>
        rw [held] at listed
        exact ⟨(piece, child), Keyed.mem_of_get? held, (path, space), listed, rfl⟩

theorem TidyRoot.childAt_of_mem (root : TidyRoot children) {child : String × Tree} (listed : child ∈ children) :
    Tree.childAt children child.1 = child.2 := by
  rw [Tree.childAt, Keyed.get?_of_mem root.distinct listed, Option.getD_some]

theorem TidyRoot.childAt (root : TidyRoot children) {piece : String} {below : List (String × Tree)}
    (held : childAt children piece = .branch below) : TidyRoot below := by
  unfold Tree.childAt at held
  cases known : Keyed.get? children piece with
  | none =>
      rw [known] at held
      obtain rfl := Tree.branch.inj held
      exact .nil
  | some child =>
      rw [known] at held
      have tidy := root.tidy _ (Keyed.mem_of_get? known)
      obtain rfl : child = .branch below := held
      exact tidy.root

/-! ### Free places -/

/-- A path where a leaf can be put: it leads somewhere, and away from all leaves. -/
def Free (children : List (String × Tree)) (path : List String) : Prop :=
  path ≠ [] ∧ ∀ leaf ∈ childLeaves children, Apart leaf.1 path

theorem free_nil {path : List String} (leading : path ≠ []) : Free [] path := by
  refine ⟨leading, fun leaf listed => ?_⟩
  rw [childLeaves] at listed
  cases listed

/-- Only the child of the first piece decides. -/
theorem TidyRoot.free_cons (root : TidyRoot children) {piece : String} {rest : List String} :
    Free children (piece :: rest) ↔ ∀ leaf ∈ leaves (Tree.childAt children piece), Apart leaf.1 rest := by
  constructor
  · rintro ⟨-, free⟩ ⟨path, space⟩ listed
    exact apart_cons.mp (free _ (root.mem_childLeaves_cons.mpr listed))
  · intro free
    refine ⟨List.cons_ne_nil _ _, fun leaf listed => ?_⟩
    rcases mem_childLeaves.mp listed with ⟨child, -, below, -, rfl⟩
    by_cases same : child.1 = piece
    · subst same
      exact apart_cons.mpr (free _ (root.mem_childLeaves_cons.mp listed))
    · exact apart_of_ne same _ _

/-- A last piece is free if no child has it. -/
theorem TidyRoot.free_singleton (root : TidyRoot children) {piece : String} :
    Free children [piece] ↔ piece ∉ Keyed.keys children := by
  rw [root.free_cons]
  constructor
  · intro free known
    rcases List.mem_map.mp known with ⟨child, listed, rfl⟩
    rcases (root.tidy child listed).exists_leaf with ⟨leaf, below⟩
    exact not_apart_nil leaf.1 (free leaf (root.childAt_of_mem listed ▸ below)).symm
  · intro absent leaf listed
    rw [leaves_childAt_of_notMem absent] at listed
    cases listed

/-! ### Insertions -/

/-- A tidy root with one more leaf. -/
structure Extends (children : List (String × Tree)) (added : List String × Space) (grown : List (String × Tree)) :
    Prop where
  root : TidyRoot grown
  leaves : (childLeaves grown).Perm (added :: childLeaves children)

theorem Extends.filled {added : List String × Space} {grown : List (String × Tree)}
    (extend : Extends children added grown) : grown ≠ [] := by
  rintro rfl
  exact List.not_perm_nil_cons _ _ extend.leaves

/-- A space goes to every free path. -/
theorem TidyRoot.insert_ok (root : TidyRoot children) (key : String) (space : Space) {path : List String}
    (free : Free children path) :
    ∃ grown, Tree.insert key space path (.branch children) = .ok (.branch grown) ∧
      Extends children (path, space) grown := by
  induction path generalizing children with
  | nil => exact absurd rfl free.1
  | cons piece rest inductionHypothesis =>
      cases rest with
      | nil =>
          have absent := root.free_singleton.mp free
          have unknown : Keyed.contains children piece = false := by
            rwa [← Bool.not_eq_true, Keyed.contains_iff_mem_keys]
          refine ⟨children ++ [(piece, .leaf space)], ?_, ?_⟩
          · rw [Tree.insert, unknown]
            rfl
          have grown : (leaves (.leaf space)).Perm (([], space) :: leaves (Tree.childAt children piece)) := by
            rw [leaves_childAt_of_notMem absent, leaves]
          have extended := childLeaves_insert grown
          rw [← Keyed.insert_of_notMem absent]
          exact ⟨root.insert piece (.leaf space), extended⟩
      | cons next more =>
          have away := root.free_cons.mp free
          cases held : Tree.childAt children piece with
          | leaf known =>
              rw [held, leaves] at away
              exact absurd (away _ (List.mem_singleton_self _)) (not_apart_nil _)
          | branch below =>
              rw [held, leaves] at away
              rcases inductionHypothesis (root.childAt held) ⟨List.cons_ne_nil _ _, away⟩ with ⟨grown, inserted, extend⟩
              have tidy : Tidy (.branch grown) := .branch grown extend.filled extend.root.distinct extend.root.tidy
              have added : (leaves (.branch grown)).Perm
                  ((next :: more, space) :: leaves (Tree.childAt children piece)) := by
                rw [held, leaves, leaves]
                exact extend.leaves
              have extended := childLeaves_insert added
              refine ⟨Keyed.insert piece (.branch grown) children, ?_, root.insert piece tidy, extended⟩
              rw [Tree.insert]
              show (Tree.insert key space (next :: more) (Tree.childAt children piece)).map _ = _
              rw [held, inserted]
              rfl

/-- A space goes nowhere else. -/
theorem TidyRoot.insert_error (root : TidyRoot children) (key : String) (space : Space) {path : List String}
    (taken : ¬Free children path) : ∃ fault, Tree.insert key space path (.branch children) = .error fault := by
  induction path generalizing children with
  | nil => exact ⟨_, rfl⟩
  | cons piece rest inductionHypothesis =>
      cases rest with
      | nil =>
          rw [root.free_singleton, not_not, ← Keyed.contains_iff_mem_keys] at taken
          exact ⟨.repeated key, by rw [Tree.insert, taken]; rfl⟩
      | cons next more =>
          rw [Tree.insert]
          show ∃ fault, (Tree.insert key space (next :: more) (Tree.childAt children piece)).map _ = _
          cases held : Tree.childAt children piece with
          | leaf known => exact ⟨.throughLeaf key, by rw [Tree.insert]; rfl⟩
          | branch below =>
              have taken : ¬Free below (next :: more) := by
                intro free
                rw [root.free_cons, held, leaves] at taken
                exact taken free.2
              rcases inductionHypothesis (root.childAt held) taken with ⟨fault, failed⟩
              exact ⟨fault, by rw [failed]; rfl⟩

/-! ### Gathering -/

/-- A keyed space as a leaf. -/
def located (entry : String × Space) : List String × Space :=
  (path entry.1, entry.2)

/-- Every key has a path, and no path begins with the path of another entry. -/
structure Separate (flat : Keyed Space) : Prop where
  leading : ∀ entry ∈ flat, path entry.1 ≠ []
  apart : flat.Pairwise fun first second => Apart (path first.1) (path second.1)

/-- Puts keyed spaces into a tree, one after the other. -/
def gatherInto (flat : Keyed Space) (tree : Tree) : Except Fault Tree :=
  flat.foldlM (fun tree entry => tree.insert entry.1 entry.2 (path entry.1)) tree

theorem gatherInto_cons (first : String × Space) (rest : Keyed Space) (tree : Tree) :
    gatherInto (first :: rest) tree = (tree.insert first.1 first.2 (path first.1)).bind (gatherInto rest) :=
  List.foldlM_cons

theorem TidyRoot.gatherInto_ok (root : TidyRoot children) {flat : Keyed Space} (separate : Separate flat)
    (free : ∀ entry ∈ flat, Free children (path entry.1)) :
    ∃ grown, gatherInto flat (.branch children) = .ok (.branch grown) ∧ TidyRoot grown ∧
      (childLeaves grown).Perm (flat.map located ++ childLeaves children) := by
  induction flat generalizing children with
  | nil => exact ⟨children, rfl, root, .refl _⟩
  | cons first rest inductionHypothesis =>
      rcases List.pairwise_cons.mp separate.apart with ⟨others, apart⟩
      rcases root.insert_ok first.1 first.2 (free first List.mem_cons_self) with ⟨middle, inserted, extend⟩
      have onward : ∀ entry ∈ rest, Free middle (path entry.1) := by
        intro entry listed
        refine ⟨separate.leading entry (List.mem_cons_of_mem _ listed), fun leaf known => ?_⟩
        rcases List.mem_cons.mp (extend.leaves.mem_iff.mp known) with rfl | old
        · exact others entry listed
        · exact (free entry (List.mem_cons_of_mem _ listed)).2 leaf old
      rcases inductionHypothesis extend.root
        ⟨fun entry listed => separate.leading entry (List.mem_cons_of_mem _ listed), apart⟩ onward with
        ⟨grown, gathered, tidy, leaves⟩
      refine ⟨grown, ?_, tidy, ?_⟩
      · rw [gatherInto_cons, inserted]
        exact gathered
      · exact (leaves.trans (extend.leaves.append_left _)).trans List.perm_middle

theorem TidyRoot.of_gatherInto_ok (root : TidyRoot children) {flat : Keyed Space} {tree : Tree}
    (gathered : gatherInto flat (.branch children) = .ok tree) :
    Separate flat ∧ ∀ entry ∈ flat, Free children (path entry.1) := by
  induction flat generalizing children with
  | nil => exact ⟨⟨by simp, .nil⟩, by simp⟩
  | cons first rest inductionHypothesis =>
      rw [gatherInto_cons] at gathered
      by_cases free : Free children (path first.1)
      · rcases root.insert_ok first.1 first.2 free with ⟨middle, inserted, extend⟩
        rw [inserted] at gathered
        rcases inductionHypothesis extend.root gathered with ⟨separate, onward⟩
        have known {leaf : List String × Space} (listed : leaf ∈ (path first.1, first.2) :: childLeaves children)
            {entry : String × Space} (entryListed : entry ∈ rest) : Apart leaf.1 (path entry.1) :=
          (onward entry entryListed).2 leaf (extend.leaves.mem_iff.mpr listed)
        refine ⟨⟨List.forall_mem_cons.mpr ⟨free.1, separate.leading⟩, List.pairwise_cons.mpr ⟨?_, separate.apart⟩⟩,
          List.forall_mem_cons.mpr ⟨free, fun entry listed => ⟨separate.leading entry listed, fun leaf old => ?_⟩⟩⟩
        · exact fun entry listed => known List.mem_cons_self listed
        · exact known (List.mem_cons_of_mem _ old) listed
      · rcases root.insert_error first.1 first.2 free with ⟨fault, failed⟩
        rw [failed] at gathered
        cases gathered

/-- Keyed spaces are gathered exactly if they are separate. -/
theorem gather_ok_iff {flat : Keyed Space} : (∃ tree, gather flat = .ok tree) ↔ Separate flat := by
  constructor
  · rintro ⟨tree, gathered⟩
    exact (TidyRoot.nil.of_gatherInto_ok gathered).1
  · intro separate
    rcases TidyRoot.nil.gatherInto_ok separate fun entry listed => free_nil (separate.leading entry listed) with
      ⟨grown, gathered, -⟩
    exact ⟨.branch grown, gathered⟩

/-- A gathered tree has the keyed spaces as its leaves. -/
theorem of_gather_ok {flat : Keyed Space} {tree : Tree} (gathered : gather flat = .ok tree) :
    ∃ children, tree = .branch children ∧ TidyRoot children ∧ (childLeaves children).Perm (flat.map located) := by
  have separate := gather_ok_iff.mp ⟨tree, gathered⟩
  rcases TidyRoot.nil.gatherInto_ok separate fun entry listed => free_nil (separate.leading entry listed) with
    ⟨grown, answered, root, leaves⟩
  obtain rfl := Except.ok.inj (gathered.symm.trans answered)
  rw [childLeaves, List.append_nil] at leaves
  exact ⟨grown, rfl, root, leaves⟩

end Tree

end Wiring.FlatKey
