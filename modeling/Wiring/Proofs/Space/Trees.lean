import Wiring.Proofs.Keyed
import Wiring.Proofs.Space.Branches
import Wiring.Proofs.Space.Leaves

/-!
Contract: the trees of spaces.

Owns: `toTree`, the tree of a space; `plant`, by which leaves are put into a tree below some depth; that the
flat form of a fit container is gathered into its tree; `Yields`, by which children are in step with entries, and
the dict or the tuple that is then made; and that the space is made again from its tree.

Does not own: trees that are gathered from the leaves of other spaces.
-/

namespace Wiring

open FlatKey (Fault Tree bracket bracketed? indices?_eq_none_iff length_of_indices? mapM_id_eq_some path)

namespace Space

/-! ### The tree of a space -/

mutual

/-- The space with entries and parts alike as children. -/
def toTree : Space → Tree
  | .box leaf => .leaf (.box leaf)
  | .dict entries => .branch (entryTrees entries)
  | .tuple parts => .branch (partTrees 0 parts)

def entryTrees : List (String × Space) → List (String × Tree)
  | [] => []
  | (key, space) :: rest => (key, toTree space) :: entryTrees rest

def partTrees (index : Nat) : List Space → List (String × Tree)
  | [] => []
  | space :: rest => (bracket index, toTree space) :: partTrees (index + 1) rest

end

theorem partTrees_eq (index : Nat) (parts : List Space) :
    partTrees index parts = entryTrees (numbered index parts) := by
  induction parts generalizing index with
  | nil => rfl
  | cons space rest inductionHypothesis => rw [partTrees, numbered, entryTrees, inductionHypothesis]

theorem toTree_container {space : Space} (container : space.isContainer = true) :
    toTree space = .branch (entryTrees space.entriesOf) := by
  cases space with
  | box leaf => cases container
  | dict entries => rw [toTree, entriesOf]
  | tuple parts => rw [toTree, entriesOf, partTrees_eq]

theorem entryTrees_eq_map (entries : List (String × Space)) :
    entryTrees entries = entries.map fun entry => (entry.1, toTree entry.2) := by
  induction entries with
  | nil => rw [entryTrees, List.map_nil]
  | cons first rest inductionHypothesis => rw [entryTrees, List.map_cons, inductionHypothesis]

/-! ### Planting leaves -/

/-- Boxes as spaces. -/
def boxed (leaves : List (String × Box)) : List (String × Space) :=
  leaves.map fun leaf => (leaf.1, .box leaf.2)

/-- Puts spaces into a tree at the paths of their keys, of which the first pieces have been followed. -/
def plant (depth : Nat) (flat : List (String × Space)) (tree : Tree) : Except Fault Tree :=
  flat.foldlM (fun tree entry => tree.insert entry.1 entry.2 ((path entry.1).drop depth)) tree

theorem gather_eq_plant (flat : Keyed Space) : Tree.gather flat = plant 0 flat (.branch []) := by
  unfold Tree.gather plant
  simp only [List.drop_zero]

theorem plant_append (depth : Nat) (left right : List (String × Space)) (tree : Tree) :
    plant depth (left ++ right) tree = (plant depth left tree).bind (plant depth right) :=
  List.foldlM_append

/-- Spaces that all go through one child are planted into that child. -/
theorem plant_below {depth : Nat} {head : String} {flat : List (String × Space)} (filled : flat ≠ [])
    (through : ∀ entry ∈ flat, ∃ next rest, (path entry.1).drop depth = head :: next :: rest)
    (children : List (String × Tree)) :
    plant depth flat (.branch children) =
      (plant (depth + 1) flat ((Keyed.get? children head).getD (.branch []))).map
        fun child => .branch (Keyed.insert head child children) := by
  induction flat generalizing children with
  | nil => exact absurd rfl filled
  | cons first rest inductionHypothesis =>
      rcases through first List.mem_cons_self with ⟨next, more, same⟩
      have deeper : (path first.1).drop (depth + 1) = next :: more := by
        rw [← List.tail_drop, same, List.tail_cons]
      unfold plant
      rw [List.foldlM_cons, List.foldlM_cons, same, deeper, Tree.insert]
      cases Tree.insert first.1 first.2 (next :: more) ((Keyed.get? children head).getD (.branch [])) with
      | error fault => rfl
      | ok child =>
          show plant depth rest (.branch (Keyed.insert head child children)) =
            (plant (depth + 1) rest child).map fun child => .branch (Keyed.insert head child children)
          by_cases last : rest = []
          · rw [last]
            rfl
          · rw [inductionHypothesis last fun entry member => through entry (List.mem_cons_of_mem first member),
              Keyed.get?_insert_self]
            simp only [Option.getD_some, Keyed.insert_insert]

/-- A space that stands under a fresh key becomes the last child. -/
def Plants (space : Space) : Prop :=
  ∀ (stem key : String) (children : List (String × Tree)), '/' ∉ key.toList → key ∉ Keyed.keys children →
    plant (path stem).length (boxed (leavesUnder (FlatKey.entry stem key) space)) (.branch children) =
      .ok (.branch (children ++ [(key, toTree space)]))

theorem plant_entryLeaves {entries : List (String × Space)} (separators : ∀ entry ∈ entries, '/' ∉ entry.1.toList)
    (plants : ∀ entry ∈ entries, Plants entry.2) (stem : String) {children : List (String × Tree)}
    (distinct : (Keyed.keys children ++ Keyed.keys entries).Nodup) :
    plant (path stem).length (boxed (entryLeaves stem entries)) (.branch children) =
      .ok (.branch (children ++ entryTrees entries)) := by
  induction entries generalizing children with
  | nil =>
      rw [entryTrees, List.append_nil]
      rfl
  | cons first rest inductionHypothesis =>
      obtain ⟨key, space⟩ := first
      have fresh : key ∉ Keyed.keys children := fun known =>
        (List.nodup_append.mp distinct).2.2 key known key List.mem_cons_self rfl
      have onward : (Keyed.keys (children ++ [(key, toTree space)]) ++ Keyed.keys rest).Nodup := by
        simpa [Keyed.keys] using distinct
      have planted := plants _ List.mem_cons_self stem key children (separators _ List.mem_cons_self) fresh
      have others := inductionHypothesis (fun entry member => separators entry (List.mem_cons_of_mem _ member))
        (fun entry member => plants entry (List.mem_cons_of_mem _ member)) onward
      have split : boxed (entryLeaves stem ((key, space) :: rest)) =
          boxed (leavesUnder (FlatKey.entry stem key) space) ++ boxed (entryLeaves stem rest) := by
        rw [entryLeaves, boxed, List.map_append]
        rfl
      rw [← List.append_cons] at others
      rw [split, plant_append, planted, entryTrees]
      exact others

theorem Fit.plants {space : Space} (fit : space.Fit) : Plants space := by
  induction fit using Fit.induct with
  | box leaf _ =>
      intro stem key children free fresh
      have here : (path (FlatKey.entry stem key)).drop (path stem).length = [key] := by
        rw [FlatKey.path_entry stem free, List.drop_left]
      have absent : Keyed.contains children key = false := by
        rwa [← Bool.not_eq_true, Keyed.contains_iff_mem_keys]
      show (Tree.insert _ _ ((path (FlatKey.entry stem key)).drop (path stem).length) (.branch children) >>= pure) = _
      rw [here, Tree.insert, absent, toTree]
      rfl
  | container space fit known branching fits inductionHypothesis =>
      intro stem key children free fresh
      have through : ∀ entry ∈ boxed (leavesUnder (FlatKey.entry stem key) space),
          ∃ next rest, (path entry.1).drop (path stem).length = key :: next :: rest := by
        intro entry listed
        rcases List.mem_map.mp listed with ⟨leaf, leafListed, rfl⟩
        rw [leavesUnder_container known] at leafListed
        rcases path_entryLeaves branching.separators (fun entry member => (fits entry member).path_leavesUnder) _ leaf
          leafListed with ⟨entry, -, rest, same⟩
        refine ⟨entry.1, rest, ?_⟩
        rw [← same, FlatKey.path_entry stem free]
        simp
      have filled : boxed (leavesUnder (FlatKey.entry stem key) space) ≠ [] :=
        fun empty => fit.leavesUnder_ne_nil _ (List.map_eq_nil_iff.mp empty)
      have inside : plant ((path stem).length + 1) (boxed (leavesUnder (FlatKey.entry stem key) space)) (.branch []) =
          .ok (toTree space) := by
        have depth : (path stem).length + 1 = (path (FlatKey.entry stem key)).length := by
          rw [FlatKey.path_entry stem free, List.length_append, List.length_singleton]
        rw [depth, leavesUnder_container known, toTree_container known]
        exact plant_entryLeaves branching.separators inductionHypothesis _ branching.distinct
      rw [plant_below filled through, Keyed.get?_eq_none fresh, Option.getD_none, inside]
      show Except.ok (Tree.branch (Keyed.insert key (toTree space) children)) = _
      rw [Keyed.insert_of_notMem fresh]

/-- The flat form of a fit container is gathered into its tree. -/
theorem Fit.gather {space : Space} (fit : space.Fit) (container : space.isContainer = true) :
    Tree.gather space.flatSpaces = .ok (toTree space) := by
  rcases fit.branching container with ⟨branching, fits⟩
  rw [gather_eq_plant, flatSpaces, fit.flatten_eq, leavesUnder_container container, toTree_container container]
  exact plant_entryLeaves branching.separators (fun entry listed => (fits entry listed).plants) "" branching.distinct

/-! ### From trees to spaces -/

/-- Children in step with entries: under the same names stand the trees of their spaces. -/
abbrev Yields (children : List (String × Tree)) (entries : List (String × Space)) : Prop :=
  List.Forall₂ (fun child entry => child.1 = entry.1 ∧ Tree.toSpace child.2 = .ok entry.2) children entries

/-- A name that is no number makes a dict. -/
theorem Yields.dict {children : List (String × Tree)} {entries : List (String × Space)}
    (yields : Yields children entries) (named : ∃ entry ∈ entries, bracketed? entry.1 = none) :
    Tree.toSpace (.branch children) = .ok (.dict entries) := by
  have unread : Tree.indices? children = none := by
    rcases named with ⟨entry, listed, unread⟩
    rcases forall₂_of_mem_right yields listed with ⟨child, member, same, -⟩
    exact indices?_eq_none_iff.mpr ⟨child, member, same ▸ unread⟩
  rw [Tree.toSpace, unread]
  exact except_bind_eq_ok.mpr ⟨entries, FlatKey.toEntries_eq_ok.mpr yields, rfl⟩

theorem length_numbered (index : Nat) (parts : List Space) : (numbered index parts).length = parts.length := by
  induction parts generalizing index with
  | nil => rfl
  | cons first rest inductionHypothesis => rw [numbered, List.length_cons, inductionHypothesis, List.length_cons]

theorem Yields.indices? {children : List (String × Tree)} {parts : List Space}
    (yields : Yields children (numbered 0 parts)) (counted : parts.length ≤ 2 ^ 64) (filled : parts ≠ []) :
    ∃ first rest, Tree.indices? children = some (first :: rest) := by
  cases read : Tree.indices? children with
  | none =>
      rcases indices?_eq_none_iff.mp read with ⟨child, listed, unread⟩
      rcases forall₂_of_mem_left yields listed with ⟨entry, entryListed, same, -⟩
      rcases (mem_numbered entryListed).2 with ⟨offset, bounded, named⟩
      rw [same, named, FlatKey.bracketed?_bracket (by omega)] at unread
      cases unread
  | some indices =>
      cases indices with
      | cons first rest => exact ⟨first, rest, rfl⟩
      | nil =>
          have length := (length_of_indices? read).trans yields.length_eq
          rw [length_numbered] at length
          exact absurd (List.length_eq_zero_iff.mp length.symm) filled

/-- The parts go into the slots of their numbers, one after the other. -/
theorem Yields.fillSlots {parts : List Space} {children : List (String × Tree)} (front : List Space)
    (yields : Yields children (numbered front.length parts)) (bounded : front.length + parts.length ≤ 2 ^ 64) :
    Tree.fillSlots children (front.map some ++ List.replicate parts.length none) = .ok ((front ++ parts).map some) := by
  induction parts generalizing front children with
  | nil =>
      cases yields
      rw [Tree.fillSlots]
      simp
  | cons first rest inductionHypothesis =>
      rw [numbered] at yields
      rw [List.length_cons] at bounded
      cases yields with
      | @cons child _ others _ made restYields =>
          have placed : (front.map some ++ List.replicate (rest.length + 1) none).set front.length (some first) =
              (front ++ [first]).map some ++ List.replicate rest.length none := by
            rw [List.set_append_right _ _ (by simp)]
            simp [List.replicate_succ]
          have inside :
              front.length < (front.map some ++ List.replicate (rest.length + 1) (none : Option Space)).length := by
            simp
          have onward := @inductionHypothesis others (front ++ [first])
            (by rwa [List.length_append, List.length_singleton])
            (by rw [List.length_append, List.length_singleton]; omega)
          rw [← List.append_cons] at onward
          rw [Tree.fillSlots, made.1, FlatKey.bracketed?_bracket (by omega), Option.getD_some, List.length_cons,
            if_pos inside, made.2]
          show Tree.fillSlots others (List.set _ front.length (some first)) = _
          rw [placed]
          exact onward

/-- Names that count up make a tuple. -/
theorem Yields.tuple {children : List (String × Tree)} {parts : List Space}
    (yields : Yields children (numbered 0 parts)) (counted : parts.length ≤ 2 ^ 64) (filled : parts ≠ []) :
    Tree.toSpace (.branch children) = .ok (.tuple parts) := by
  have slots := Yields.fillSlots [] yields (by simpa using counted)
  rcases yields.indices? counted filled with ⟨first, rest, read⟩
  rw [List.map_nil, List.nil_append, List.nil_append] at slots
  rw [Tree.toSpace, read]
  show (Tree.fillSlots children (List.replicate children.length none) >>= _) = _
  rw [yields.length_eq, length_numbered, slots]
  have whole : (parts.map some).mapM id = some parts := mapM_id_eq_some.mpr rfl
  simp only [bind, Except.bind, whole]

/-- The tree of a settled space has that space. -/
theorem Settled.toSpace_toTree {space : Space} (settled : space.Settled) (wellFormed : space.WellFormed) :
    Tree.toSpace (toTree space) = .ok space := by
  have yields {entries : List (String × Space)}
      (each : ∀ entry ∈ entries, Tree.toSpace (toTree entry.2) = .ok entry.2) :
      Yields (entryTrees entries) entries := by
    rw [entryTrees_eq_map, Yields, List.forall₂_map_left_iff, List.forall₂_same]
    exact fun entry listed => ⟨rfl, each entry listed⟩
  induction settled with
  | box leaf => rw [toTree, Tree.toSpace]
  | dict entries filled separators named _ inductionHypothesis =>
      rw [toTree]
      refine (yields fun entry listed => ?_).dict named
      exact inductionHypothesis entry listed (wellFormed.part (.entry entry.1 entry.2 entries listed))
  | tuple parts filled _ inductionHypothesis =>
      rw [toTree, partTrees_eq]
      refine (yields fun entry listed => ?_).tuple (wellFormed.counted parts .refl) filled
      have member := (mem_numbered listed).1
      exact inductionHypothesis entry.2 member (wellFormed.part (.part entry.2 parts member))

end Space

end Wiring
