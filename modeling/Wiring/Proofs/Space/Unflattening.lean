import Mathlib.Data.List.Dedup
import Wiring.Proofs.Space.Rearranging

/-!
Contract: which keyed spaces describe a space, and what is in it.

Owns: `Describes`, what keys must be like for there to be a space with these spaces at their paths; that one is
made exactly then, or from a single space with the empty key; `HoldsExactly`, by which the space has every keyed
space where its key says and nothing else; and that the order of the keyed spaces matters at most for the order of
the entries of dicts.

Does not own: the flat forms of spaces, which are keyed boxes.
-/

namespace Wiring

namespace FlatKey

open Wiring.FlatKey.Tree (childAt childLeaves leaves toSpace)

/-! ### Paths of keys -/

theorem path_eq_nil_iff {key : String} : path key = [] ↔ '/' ∉ key.toList := by
  constructor
  · intro empty slash
    rcases List.append_of_mem slash with ⟨stem, rest, same⟩
    have longer : 1 < (pieces key.toList).length := by
      rw [same]
      clear same empty slash
      induction stem with
      | nil =>
          rw [List.nil_append, pieces, if_pos rfl, List.length_cons]
          exact Nat.succ_lt_succ (List.length_pos_of_ne_nil (pieces_ne_nil rest))
      | cons c others inductionHypothesis =>
          rw [List.cons_append, pieces]
          split
          · rw [List.length_cons]
            exact Nat.lt_succ_of_lt inductionHypothesis
          · cases known : pieces (others ++ '/' :: rest) with
            | nil => exact absurd known (pieces_ne_nil _)
            | cons first more =>
                rw [known] at inductionHypothesis
                exact inductionHypothesis
    rw [path, List.map_eq_nil_iff, ← List.length_eq_zero_iff, List.length_tail] at empty
    omega
  · intro free
    rw [path, pieces_of_notMem free]
    rfl

/-- The pieces that come after a node in some of the paths, each of them once. -/
def following (paths : List (List String)) (node : List String) : List String :=
  (paths.filterMap fun path => if node <+: path then path[node.length]? else none).dedup

theorem mem_following {paths : List (List String)} {node : List String} {piece : String} :
    piece ∈ following paths node ↔ ∃ path ∈ paths, node ++ [piece] <+: path := by
  rw [following, List.mem_dedup, List.mem_filterMap]
  refine exists_congr fun path => and_congr_right fun _ => ?_
  constructor
  · intro held
    split at held
    next leads =>
      rcases leads with ⟨rest, rfl⟩
      rw [List.getElem?_append_right (Nat.le_refl _), Nat.sub_self] at held
      cases rest with
      | nil => cases held
      | cons first others =>
          obtain rfl : first = piece := Option.some.inj held
          exact ⟨others, by simp⟩
    · cases held
  · rintro ⟨rest, rfl⟩
    simp

theorem nodup_following (paths : List (List String)) (node : List String) : (following paths node).Nodup :=
  List.nodup_dedup _

theorem following_perm {paths others : List (List String)} {node other : List String}
    (same : ∀ piece, (∃ path ∈ paths, node ++ [piece] <+: path) ↔ ∃ path ∈ others, other ++ [piece] <+: path) :
    (following paths node).Perm (following others other) := by
  refine (List.perm_ext_iff_of_nodup (nodup_following _ _) (nodup_following _ _)).mpr fun piece => ?_
  rw [mem_following, mem_following, same]

theorem Counted.of_perm {pieces moved : List String} (counted : Counted pieces) (same : pieces.Perm moved) :
    Counted moved := by
  intro numbered
  have counts := counted fun piece listed => numbered piece (same.mem_iff.mp listed)
  rw [same.length_eq] at counts
  exact (same.filterMap _).symm.trans counts

/-! ### Nodes of trees -/

/-- The paths of leaves. -/
abbrev paths (leaves : List (List String × Space)) : List (List String) :=
  leaves.map Prod.fst

variable {children : List (String × Tree)}

namespace Tree.TidyRoot

theorem keys_perm_following (root : TidyRoot children) :
    (Keyed.keys children).Perm (following (paths (childLeaves children)) []) := by
  refine (List.perm_ext_iff_of_nodup root.distinct (nodup_following _ _)).mpr fun piece => ?_
  rw [mem_following, root.mem_keys]
  constructor
  · rintro ⟨rest, space, listed⟩
    exact ⟨piece :: rest, List.mem_map_of_mem listed, rest, rfl⟩
  · rintro ⟨_, listed, rest, rfl⟩
    rcases List.mem_map.mp listed with ⟨leaf, leafListed, same⟩
    exact ⟨rest, leaf.2, by rwa [show piece :: rest = leaf.1 from same.symm]⟩

theorem following_childAt (root : TidyRoot children) (piece : String) (node : List String) :
    (following (paths (leaves (Tree.childAt children piece))) node).Perm
      (following (paths (childLeaves children)) (piece :: node)) := by
  refine following_perm fun next => ?_
  constructor
  · rintro ⟨_, listed, leads⟩
    rcases List.mem_map.mp listed with ⟨leaf, leafListed, rfl⟩
    refine ⟨piece :: leaf.1, ?_, by simpa using leads⟩
    exact List.mem_map_of_mem (f := Prod.fst) (root.mem_childLeaves_cons.mpr leafListed)
  · rintro ⟨_, listed, rest, rfl⟩
    rcases List.mem_map.mp listed with ⟨⟨_, space⟩, leafListed, rfl⟩
    exact ⟨_, List.mem_map_of_mem (f := Prod.fst) (root.mem_childLeaves_cons.mp leafListed), rest, rfl⟩

end Tree.TidyRoot

theorem toSpace_branch_iff (root : Tree.TidyRoot children)
    (each : ∀ child ∈ children,
      (∃ space, toSpace child.2 = .ok space) ↔ ∀ node, Counted (following (paths (leaves child.2)) node)) :
    (∃ space, toSpace (.branch children) = .ok space) ↔
      ∀ node, Counted (following (paths (childLeaves children)) node) := by
  rw [toSpace_branch_ok_iff]
  constructor
  · rintro ⟨counted, made⟩ node
    cases node with
    | nil => exact counted.of_perm root.keys_perm_following
    | cons piece rest =>
        refine Counted.of_perm ?_ (root.following_childAt piece rest)
        by_cases known : piece ∈ Keyed.keys children
        · rcases List.mem_map.mp known with ⟨child, listed, rfl⟩
          rw [root.childAt_of_mem listed]
          exact (each child listed).mp (made child listed) rest
        · rw [childAt, Keyed.get?_eq_none known, Option.getD_none, leaves, childLeaves]
          exact fun _ => .refl _
  · intro counted
    refine ⟨(counted []).of_perm root.keys_perm_following.symm, fun child listed => ?_⟩
    refine (each child listed).mpr fun node => ?_
    rw [← root.childAt_of_mem listed]
    exact (counted (child.1 :: node)).of_perm (root.following_childAt child.1 node).symm

theorem toSpace_tidy_iff {tree : Tree} (tidy : Tree.Tidy tree) :
    (∃ space, toSpace tree = .ok space) ↔ ∀ node, Counted (following (paths (leaves tree)) node) := by
  induction tidy with
  | leaf held =>
      refine ⟨fun _ node => ?_, fun _ => ⟨held, rfl⟩⟩
      have nothing : following (paths (leaves (.leaf held))) node = [] := by
        rw [leaves, List.eq_nil_iff_forall_not_mem]
        intro piece listed
        rcases mem_following.mp listed with ⟨_, pathListed, leads⟩
        obtain rfl := List.mem_singleton.mp pathListed
        exact absurd (List.prefix_nil.mp leads) (by simp)
      rw [nothing]
      exact fun _ => .refl _
  | branch children _ distinct tidy inductionHypothesis =>
      rw [leaves]
      exact toSpace_branch_iff ⟨distinct, tidy⟩ inductionHypothesis

/-- A space is made from a gathered tree exactly if the pieces are counted at every node. -/
theorem toSpace_root_iff (root : Tree.TidyRoot children) :
    (∃ space, toSpace (.branch children) = .ok space) ↔
      ∀ node, Counted (following (paths (childLeaves children)) node) :=
  toSpace_branch_iff root fun child listed => toSpace_tidy_iff (root.tidy child listed)

end FlatKey

namespace Space

open FlatKey (Apart Counted Fault Tree following path paths)
open FlatKey.Tree (Separate gather located toSpace)

/-! ### Descriptions -/

/-- Keys of several spaces, or of none, that describe one space: none is empty, each has a slash, no path is equal
to the path of another key or begins with it, and wherever the paths go on with numbers in brackets only, these
count up from zero. -/
structure Describes (flat : Keyed Space) : Prop where
  named : ∀ entry ∈ flat, entry.1 ≠ ""
  slashed : ∀ entry ∈ flat, '/' ∈ entry.1.toList
  apart : flat.Pairwise fun first second => Apart (path first.1) (path second.1)
  counted : ∀ node, Counted (following (flat.map fun entry => path entry.1) node)

/-- The keyed spaces stand in the space at their paths, each at a place of its own and no other's, and nothing else
does. -/
def HoldsExactly (flat : Keyed Space) (space : Space) : Prop :=
  ∃ walks, Reached (flat.map located) space walks

/-- Two outcomes that differ at most in the order of the entries of dicts, or in the fault that was met first. -/
inductive Alike : Except Fault Space → Except Fault Space → Prop where
  | ok (space other : Space) (rearranged : Rearranged space other) : Alike (.ok space) (.ok other)
  | error (fault other : Fault) : Alike (.error fault) (.error other)

theorem describes_iff {flat : Keyed Space} : Describes flat ↔
    Separate flat ∧ ∀ node, Counted (following (paths (flat.map located)) node) := by
  have same : paths (flat.map located) = flat.map fun entry => path entry.1 := List.map_map
  rw [same]
  constructor
  · intro describes
    refine ⟨⟨fun entry listed empty => ?_, describes.apart⟩, describes.counted⟩
    exact FlatKey.path_eq_nil_iff.mp empty (describes.slashed entry listed)
  · rintro ⟨separate, counted⟩
    refine ⟨fun entry listed empty => ?_, fun entry listed => ?_, separate.apart, counted⟩
    · exact separate.leading entry listed (by rw [empty, FlatKey.path_empty])
    · rw [← not_not (a := '/' ∈ entry.1.toList), ← FlatKey.path_eq_nil_iff]
      exact separate.leading entry listed

theorem Describes.notMem {flat : Keyed Space} (describes : Describes flat) : "" ∉ Keyed.keys flat := by
  intro known
  rcases List.mem_map.mp known with ⟨entry, listed, empty⟩
  exact describes.named entry listed empty

theorem Describes.of_perm {flat other : Keyed Space} (describes : Describes flat) (same : flat.Perm other) :
    Describes other where
  named entry listed := describes.named entry (same.mem_iff.mpr listed)
  slashed entry listed := describes.slashed entry (same.mem_iff.mpr listed)
  apart := (same.pairwise_iff fun apart => apart.symm).mp describes.apart
  counted node := (describes.counted node).of_perm
    (FlatKey.following_perm fun piece => by simp only [(same.map fun entry => path entry.1).mem_iff])

/-! ### Outcomes -/

theorem unflatten_singleton (space : Space) : unflatten [("", space)] = .ok space := rfl

/-- With an empty key among others there is no space. -/
theorem unflatten_of_mem {flat : Keyed Space} (known : "" ∈ Keyed.keys flat) {space : Space}
    (made : unflatten flat = .ok space) : flat = [("", space)] := by
  unfold unflatten at made
  split at made
  next held found =>
    split at made
    next single =>
      obtain rfl := Except.ok.inj made
      rcases List.length_eq_one_iff.mp single with ⟨entry, rfl⟩
      rw [← List.mem_singleton.mp (Keyed.mem_of_get? found)]
    next => cases made
  next absent =>
    rcases List.mem_map.mp known with ⟨entry, listed, empty⟩
    exact absurd empty.symm (by simpa using List.lookup_eq_none_iff.mp absent entry listed)

theorem unflatten_of_notMem {flat : Keyed Space} (absent : "" ∉ Keyed.keys flat) :
    unflatten flat = (gather flat).bind toSpace := by
  rw [unflatten, Keyed.get?_eq_none absent]

/-- What is made without an empty key is made from a gathered tree. -/
theorem exists_root {flat : Keyed Space} (absent : "" ∉ Keyed.keys flat) {space : Space}
    (made : unflatten flat = .ok space) :
    ∃ children, Tree.TidyRoot children ∧ (Tree.childLeaves children).Perm (flat.map located) ∧
      toSpace (.branch children) = .ok space := by
  rw [unflatten_of_notMem absent] at made
  rcases except_bind_eq_ok.mp made with ⟨tree, gathered, made⟩
  rcases Tree.of_gather_ok gathered with ⟨children, rfl, root, leaves⟩
  exact ⟨children, root, leaves, made⟩

theorem unflatten_ok_iff_describes {flat : Keyed Space} (absent : "" ∉ Keyed.keys flat) :
    (∃ space, unflatten flat = .ok space) ↔ Describes flat := by
  have counted {children : List (String × Tree)} (root : Tree.TidyRoot children)
      (leaves : (Tree.childLeaves children).Perm (flat.map located)) :
      (∃ space, toSpace (.branch children) = .ok space) ↔
        ∀ node, Counted (following (paths (flat.map located)) node) := by
    rw [FlatKey.toSpace_root_iff root]
    have moved (node : List String) : (following (paths (Tree.childLeaves children)) node).Perm
        (following (paths (flat.map located)) node) :=
      FlatKey.following_perm fun piece => by simp only [(leaves.map Prod.fst).mem_iff]
    exact forall_congr' fun node => ⟨(·.of_perm (moved node)), (·.of_perm (moved node).symm)⟩
  rw [describes_iff]
  constructor
  · rintro ⟨space, made⟩
    rw [unflatten_of_notMem absent] at made
    rcases except_bind_eq_ok.mp made with ⟨tree, gathered, made⟩
    have separate := Tree.gather_ok_iff.mp ⟨tree, gathered⟩
    rcases Tree.of_gather_ok gathered with ⟨children, rfl, root, leaves⟩
    exact ⟨separate, (counted root leaves).mp ⟨space, made⟩⟩
  · rintro ⟨separate, numbers⟩
    rcases Tree.gather_ok_iff.mpr separate with ⟨tree, gathered⟩
    rcases Tree.of_gather_ok gathered with ⟨children, rfl, root, leaves⟩
    rcases (counted root leaves).mpr numbers with ⟨space, made⟩
    refine ⟨space, ?_⟩
    rw [unflatten_of_notMem absent]
    exact except_bind_eq_ok.mpr ⟨_, gathered, made⟩

theorem unflatten_ok_iff {flat : Keyed Space} :
    (∃ space, unflatten flat = .ok space) ↔ (∃ space, flat = [("", space)]) ∨ Describes flat := by
  constructor
  · rintro ⟨space, made⟩
    by_cases known : "" ∈ Keyed.keys flat
    · exact .inl ⟨space, unflatten_of_mem known made⟩
    · exact .inr ((unflatten_ok_iff_describes known).mp ⟨space, made⟩)
  · rintro (⟨space, rfl⟩ | describes)
    · exact ⟨space, unflatten_singleton space⟩
    · exact (unflatten_ok_iff_describes describes.notMem).mpr describes

theorem holdsExactly_of_unflatten {flat : Keyed Space} (absent : "" ∉ Keyed.keys flat) {space : Space}
    (made : unflatten flat = .ok space) : HoldsExactly flat space := by
  rcases exists_root absent made with ⟨children, root, leaves, made⟩
  rcases reached_of_root root made with ⟨walks, reached⟩
  exact reached.of_perm leaves.symm

theorem wellFormed_of_unflatten {flat : Keyed Space} (absent : "" ∉ Keyed.keys flat) {space : Space}
    (made : unflatten flat = .ok space) (each : ∀ entry ∈ flat, entry.2.WellFormed) : space.WellFormed := by
  rcases exists_root absent made with ⟨children, root, leaves, made⟩
  refine wellFormed_of_root root made fun leaf listed => ?_
  rcases List.mem_map.mp (leaves.mem_iff.mp listed) with ⟨entry, entryListed, rfl⟩
  exact each entry entryListed

theorem alike_of_perm {flat other : Keyed Space} (same : flat.Perm other) :
    Alike (unflatten flat) (unflatten other) := by
  have successes : (∃ space, unflatten flat = .ok space) ↔ ∃ space, unflatten other = .ok space := by
    rw [unflatten_ok_iff, unflatten_ok_iff]
    refine or_congr (exists_congr fun space => ?_) ⟨(·.of_perm same), (·.of_perm same.symm)⟩
    exact ⟨fun single => List.perm_singleton.mp (single ▸ same).symm,
      fun single => List.perm_singleton.mp (single ▸ same)⟩
  cases made : unflatten flat with
  | error fault =>
      cases otherMade : unflatten other with
      | error otherFault => exact .error fault otherFault
      | ok otherSpace =>
          rcases successes.mpr ⟨otherSpace, otherMade⟩ with ⟨space, success⟩
          rw [made] at success
          cases success
  | ok space =>
      rcases successes.mp ⟨space, made⟩ with ⟨otherSpace, otherMade⟩
      rw [otherMade]
      refine .ok _ _ ?_
      by_cases known : "" ∈ Keyed.keys flat
      · obtain rfl := unflatten_of_mem known made
        obtain rfl := List.perm_singleton.mp same.symm
        obtain rfl := Except.ok.inj otherMade
        exact .refl _
      · have otherAbsent : "" ∉ Keyed.keys other := by
          rwa [← (show (Keyed.keys flat).Perm (Keyed.keys other) from same.map Prod.fst).mem_iff]
        rcases exists_root known made with ⟨children, root, leaves, made⟩
        rcases exists_root otherAbsent otherMade with ⟨others, otherRoot, otherLeaves, otherMade⟩
        have rearranged := leaves.trans ((same.map located).trans otherLeaves.symm)
        exact rearranged_of_root root otherRoot rearranged made otherMade

/-- A space is made exactly from one with the empty key, which is that space, or from keyed spaces that describe
one. Without an empty key, every keyed space stands at its path in what is made, and nothing else does; and if they
come in another order, the outcome is the same up to the order of the entries of dicts. -/
theorem unflatten_outcome (flat : Keyed Space) :
    ((∃ space, unflatten flat = .ok space) ↔ (∃ space, flat = [("", space)]) ∨ Describes flat) ∧
    (∀ space, flat = [("", space)] → unflatten flat = .ok space) ∧
    (∀ space, "" ∉ Keyed.keys flat → unflatten flat = .ok space →
      HoldsExactly flat space ∧ ((∀ entry ∈ flat, entry.2.WellFormed) → space.WellFormed)) ∧
    ∀ other, flat.Perm other → Alike (unflatten flat) (unflatten other) :=
  ⟨unflatten_ok_iff, fun space single => single ▸ unflatten_singleton space,
    fun _ absent made => ⟨holdsExactly_of_unflatten absent made, wellFormed_of_unflatten absent made⟩,
    fun _ same => alike_of_perm same⟩

/-- Two parts in the wrong order, one of them with a plus sign, and between them a key that is numbered beside one
that is not. -/
def sampleScattered : Keyed Space :=
  [("/b/[1]", floatBox [2]), ("/[7]", boolBox []), ("/b/[+0]", floatBox [])]

/-- A key that goes on from another one. -/
def sampleThrough : Keyed Space :=
  [("/a", boolBox []), ("/a/b", boolBox [])]

theorem unflatten_outcome_samples :
    (Describes sampleScattered ∧
      HoldsExactly sampleScattered (.dict [("b", .tuple [floatBox [], floatBox [2]]), ("[7]", boolBox [])]) ∧
      Alike (unflatten sampleScattered) (unflatten sampleScattered.reverse)) ∧
    ¬Describes sampleThrough := by
  have absent : "" ∉ Keyed.keys sampleScattered := by decide
  have gathered : gather sampleScattered = .ok (.branch
      [("b", .branch [("[1]", .leaf (floatBox [2])), ("[+0]", .leaf (floatBox []))]),
        ("[7]", .leaf (boolBox []))]) := by
    rfl
  have made : unflatten sampleScattered =
      .ok (.dict [("b", .tuple [floatBox [], floatBox [2]]), ("[7]", boolBox [])]) := by
    rw [unflatten_of_notMem absent, gathered]
    rfl
  rcases unflatten_outcome sampleScattered with ⟨success, -, content, order⟩
  refine ⟨⟨?_, (content _ absent made).1, order _ (List.reverse_perm _).symm⟩, fun describes => ?_⟩
  · rcases success.mp ⟨_, made⟩ with ⟨space, single⟩ | describes
    · cases congrArg List.length single
    · exact describes
  · rcases (unflatten_outcome sampleThrough).1.mpr (.inr describes) with ⟨space, made⟩
    have refused : unflatten sampleThrough = .error (.throughLeaf "/a/b") := by rfl
    cases refused.symm.trans made

end Space

end Wiring
