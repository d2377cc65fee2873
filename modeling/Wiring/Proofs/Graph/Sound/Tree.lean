import Mathlib.Data.Fintype.Card
import Wiring.Proofs.Graph.Change

/-!
Contract: components form trees.

Owns: `TreeSound`, by which parents and children name each other, the children of a component have different
names, and every chain of parents ends; that every change preserves it; and that `lineage` therefore succeeds
on every component, with a chain in which nothing is repeated.
-/

namespace Wiring

/-- The part of a component that places it in its tree. -/
def Component.kin (node : Component) : Component :=
  { scope := node.scope, name := node.name, parent := node.parent, added := node.added, children := node.children }

theorem Component.fields_of_kin {left right : Component} (same : left.kin = right.kin) :
    left.scope = right.scope ∧ left.name = right.name ∧ left.parent = right.parent ∧
      left.added = right.added ∧ left.children = right.children := by
  show left.kin.scope = right.kin.scope ∧ left.kin.name = right.kin.name ∧ left.kin.parent = right.kin.parent ∧
    left.kin.added = right.kin.added ∧ left.kin.children = right.kin.children
  rw [same]
  exact ⟨rfl, rfl, rfl, rfl, rfl⟩

namespace Graph

/-- The chain from a component up to one without parent. -/
inductive Ancestry (graph : Graph) : ComponentId → List ComponentId → Prop where
  | root (id : ComponentId) (node : Component) (found : graph.component? id = some node)
      (top : node.parent = none) : Ancestry graph id [id]
  | child (id parent : ComponentId) (node : Component) (chain : List ComponentId)
      (found : graph.component? id = some node) (under : node.parent = some parent)
      (above : Ancestry graph parent chain) : Ancestry graph id (id :: chain)

structure TreeSound (graph : Graph) : Prop where
  child : ∀ id node, graph.component? id = some node → ∀ entry ∈ node.children,
    ∃ below, graph.component? entry.2 = some below ∧ below.parent = some id ∧ below.name = entry.1
  parent : ∀ id node above, graph.component? id = some node → node.parent = some above →
    ∃ higher, graph.component? above = some higher ∧ (node.name, id) ∈ higher.children
  distinct : ∀ id node, graph.component? id = some node → Keyed.DistinctKeys node.children
  added : ∀ id node, graph.component? id = some node → node.added = node.parent.isSome
  scope : ∀ id node, graph.component? id = some node → isScope node.scope = true
  rooted : ∀ id node, graph.component? id = some node → ∃ chain, graph.Ancestry id chain

/-! ### Chains -/

namespace Ancestry

variable {graph : Graph}

theorem head {id : ComponentId} {chain : List ComponentId} (ancestry : graph.Ancestry id chain) :
    ∃ rest, chain = id :: rest := by
  cases ancestry with
  | root => exact ⟨[], rfl⟩
  | child _ _ _ rest _ _ _ => exact ⟨rest, rfl⟩

/-- A component has one chain. -/
theorem unique {id : ComponentId} {left right : List ComponentId} (first : graph.Ancestry id left)
    (second : graph.Ancestry id right) : left = right := by
  induction first generalizing right with
  | root id node found top =>
      cases second with
      | root => rfl
      | child _ parent other chain otherFound under above =>
          obtain rfl := Option.some.inj (found.symm.trans otherFound)
          rw [top] at under
          contradiction
  | child id parent node chain found under above inductionHypothesis =>
      cases second with
      | root _ other otherFound top =>
          obtain rfl := Option.some.inj (found.symm.trans otherFound)
          rw [top] at under
          contradiction
      | child _ otherParent other otherChain otherFound otherUnder otherAbove =>
          obtain rfl := Option.some.inj (found.symm.trans otherFound)
          obtain rfl := Option.some.inj (under.symm.trans otherUnder)
          rw [inductionHypothesis otherAbove]

/-- Every member of a chain has the rest of the chain, from itself on, as its own. -/
theorem of_mem {id member : ComponentId} {chain : List ComponentId} (ancestry : graph.Ancestry id chain)
    (isMember : member ∈ chain) :
    ∃ below rest, chain = below ++ rest ∧ graph.Ancestry member rest := by
  induction ancestry with
  | root id node found top =>
      obtain rfl := List.mem_singleton.mp isMember
      exact ⟨[], _, rfl, .root _ node found top⟩
  | child id parent node chain found under above inductionHypothesis =>
      rcases List.mem_cons.mp isMember with rfl | later
      · exact ⟨[], _, rfl, .child _ parent node chain found under above⟩
      · obtain ⟨below, rest, split, ancestry⟩ := inductionHypothesis later
        exact ⟨id :: below, rest, by rw [split, List.cons_append], ancestry⟩

theorem exists_of_mem {id member : ComponentId} {chain : List ComponentId} (ancestry : graph.Ancestry id chain)
    (isMember : member ∈ chain) : ∃ node, graph.component? member = some node := by
  obtain ⟨_, _, -, memberAncestry⟩ := ancestry.of_mem isMember
  cases memberAncestry with
  | root _ node found top => exact ⟨node, found⟩
  | child _ parent node chain found under above => exact ⟨node, found⟩

/-- A component is not among its own proper ancestors, since it has only one chain. -/
theorem nodup {id : ComponentId} {chain : List ComponentId} (ancestry : graph.Ancestry id chain) :
    chain.Nodup := by
  induction ancestry with
  | root id => exact List.nodup_singleton id
  | child id parent node chain found under above inductionHypothesis =>
      refine List.nodup_cons.mpr ⟨fun repeated => ?_, inductionHypothesis⟩
      obtain ⟨below, rest, split, again⟩ := above.of_mem repeated
      have same := again.unique (.child id parent node chain found under above)
      have lengths := congrArg List.length split
      rw [same, List.length_append, List.length_cons] at lengths
      omega

theorem component?_lt {id : ComponentId} {node : Component} (found : graph.component? id = some node) :
    id.index < graph.components.size :=
  (Array.getElem?_eq_some_iff.mp found).1

/-- Components that exist and differ are no more than there are. -/
theorem length_le_of_nodup {ids : List ComponentId} (distinct : ids.Nodup)
    (exist : ∀ id ∈ ids, ∃ node, graph.component? id = some node) : ids.length ≤ graph.components.size := by
  have indices : (ids.map ComponentId.index).Nodup :=
    distinct.map fun left right same => by cases left; cases right; exact congrArg ComponentId.mk same
  have bounded : ids.map ComponentId.index ⊆ List.range graph.components.size := by
    intro index member
    obtain ⟨id, isMember, rfl⟩ := List.mem_map.mp member
    obtain ⟨node, found⟩ := exist id isMember
    exact List.mem_range.mpr (component?_lt found)
  have length := (indices.subperm bounded).length_le
  rwa [List.length_map, List.length_range] at length

theorem length_le {id : ComponentId} {chain : List ComponentId} (ancestry : graph.Ancestry id chain) :
    chain.length ≤ graph.components.size :=
  length_le_of_nodup ancestry.nodup fun _ member => ancestry.exists_of_mem member

theorem climb {id : ComponentId} {chain : List ComponentId} (ancestry : graph.Ancestry id chain)
    {fuel : Nat} (enough : chain.length ≤ fuel) : graph.climb fuel id = .ok chain := by
  induction ancestry generalizing fuel with
  | root id node found top =>
      obtain ⟨fuel, rfl⟩ : ∃ less, fuel = less + 1 := ⟨fuel - 1, by simp at enough; omega⟩
      refine except_bind_eq_ok.mpr ⟨node, heldComponent_eq_ok.mpr found, ?_⟩
      rw [top]
      rfl
  | child id parent node chain found under above inductionHypothesis =>
      obtain ⟨fuel, rfl⟩ : ∃ less, fuel = less + 1 := ⟨fuel - 1, by simp at enough; omega⟩
      refine except_bind_eq_ok.mpr ⟨node, heldComponent_eq_ok.mpr found, ?_⟩
      rw [under]
      exact except_map_eq_ok.mpr ⟨chain, inductionHypothesis (by simpa using enough), rfl⟩

theorem lineage {id : ComponentId} {chain : List ComponentId} (ancestry : graph.Ancestry id chain) :
    graph.lineage id = .ok chain :=
  ancestry.climb ancestry.length_le

theorem of_climb {fuel : Nat} {id : ComponentId} {chain : List ComponentId}
    (climbed : graph.climb fuel id = .ok chain) : graph.Ancestry id chain := by
  induction fuel generalizing id chain with
  | zero => cases climbed
  | succ fuel inductionHypothesis =>
      obtain ⟨node, held, climbed⟩ := except_bind_eq_ok.mp climbed
      have found := heldComponent_eq_ok.mp held
      cases under : node.parent with
      | none =>
          rw [under] at climbed
          obtain rfl := Except.ok.inj climbed
          exact .root id node found under
      | some parent =>
          rw [under] at climbed
          obtain ⟨above, climbedAbove, rfl⟩ := except_map_eq_ok.mp climbed
          exact .child id parent node above found under (inductionHypothesis climbedAbove)

theorem of_lineage {id : ComponentId} {chain : List ComponentId} (climbed : graph.lineage id = .ok chain) :
    graph.Ancestry id chain :=
  of_climb climbed

/-- A chain stays if its components keep their parents. -/
theorem mono {later : Graph} {id : ComponentId} {chain : List ComponentId} (ancestry : graph.Ancestry id chain)
    (kept : ∀ member ∈ chain, ∀ node, graph.component? member = some node →
      ∃ new, later.component? member = some new ∧ new.parent = node.parent) : later.Ancestry id chain := by
  induction ancestry with
  | root id node found top =>
      obtain ⟨new, newFound, same⟩ := kept id (by simp) node found
      exact .root id new newFound (same.trans top)
  | child id parent node chain found under above inductionHypothesis =>
      obtain ⟨new, newFound, same⟩ := kept id (by simp) node found
      refine .child id parent new chain newFound (same.trans under) (inductionHypothesis ?_)
      exact fun member isMember => kept member (List.mem_cons_of_mem id isMember)

end Ancestry

namespace TreeSound

variable {graph : Graph}

theorem empty (backend : Backend) : TreeSound { backend } := by
  constructor <;> simp [component?]

/-- Only the place of components in their trees matters. -/
theorem frame {later : Graph} (sound : TreeSound graph)
    (kin : ∀ id, (later.component? id).map Component.kin = (graph.component? id).map Component.kin) :
    TreeSound later := by
  have back {id : ComponentId} {node : Component} (found : later.component? id = some node) :=
    exists_of_map_eq (kin id) found
  have forth {id : ComponentId} {node : Component} (found : graph.component? id = some node) :=
    exists_of_map_eq (kin id).symm found
  refine ⟨?_, ?_, ?_, ?_, ?_, ?_⟩
  · intro id node found entry member
    obtain ⟨old, oldFound, same⟩ := back found
    obtain ⟨-, -, -, -, children⟩ := Component.fields_of_kin same
    obtain ⟨below, belowFound, under, named⟩ := sound.child id old oldFound entry (children ▸ member)
    obtain ⟨new, newFound, belowSame⟩ := forth belowFound
    obtain ⟨-, name, parent, -, -⟩ := Component.fields_of_kin belowSame
    exact ⟨new, newFound, parent ▸ under, name ▸ named⟩
  · intro id node above found under
    obtain ⟨old, oldFound, same⟩ := back found
    obtain ⟨-, name, parent, -, -⟩ := Component.fields_of_kin same
    obtain ⟨higher, higherFound, member⟩ := sound.parent id old above oldFound (parent ▸ under)
    obtain ⟨new, newFound, higherSame⟩ := forth higherFound
    obtain ⟨-, -, -, -, children⟩ := Component.fields_of_kin higherSame
    exact ⟨new, newFound, by rw [name, ← children]; exact member⟩
  · intro id node found
    obtain ⟨old, oldFound, same⟩ := back found
    rw [(Component.fields_of_kin same).2.2.2.2]
    exact sound.distinct id old oldFound
  · intro id node found
    obtain ⟨old, oldFound, same⟩ := back found
    obtain ⟨-, -, parent, added, -⟩ := Component.fields_of_kin same
    rw [added, parent]
    exact sound.added id old oldFound
  · intro id node found
    obtain ⟨old, oldFound, same⟩ := back found
    rw [(Component.fields_of_kin same).1]
    exact sound.scope id old oldFound
  · intro id node found
    obtain ⟨old, oldFound, -⟩ := back found
    obtain ⟨chain, ancestry⟩ := sound.rooted id old oldFound
    refine ⟨chain, ancestry.mono fun member _ memberNode memberFound => ?_⟩
    obtain ⟨new, newFound, same⟩ := forth memberFound
    exact ⟨new, newFound, (Component.fields_of_kin same).2.2.1.symm⟩

theorem create (sound : TreeSound graph) (config : ComponentConfig) (scope : isScope config.scope = true) :
    TreeSound (graph.pushComponent (.ofConfig config)) := by
  have old {id : ComponentId} {node : Component} (found : graph.component? id = some node) :
      (graph.pushComponent (.ofConfig config)).component? id = some node :=
    component?_pushComponent_eq_some.mpr (.inr found)
  refine ⟨?_, ?_, ?_, ?_, ?_, ?_⟩
  · intro id node found entry member
    rcases component?_pushComponent_eq_some.mp found with ⟨-, rfl⟩ | known
    · cases member
    · obtain ⟨below, belowFound, rest⟩ := sound.child id node known entry member
      exact ⟨below, old belowFound, rest⟩
  · intro id node above found under
    rcases component?_pushComponent_eq_some.mp found with ⟨-, rfl⟩ | known
    · cases under
    · obtain ⟨higher, higherFound, member⟩ := sound.parent id node above known under
      exact ⟨higher, old higherFound, member⟩
  · intro id node found
    rcases component?_pushComponent_eq_some.mp found with ⟨-, rfl⟩ | known
    · exact List.nodup_nil
    · exact sound.distinct id node known
  · intro id node found
    rcases component?_pushComponent_eq_some.mp found with ⟨-, rfl⟩ | known
    · rfl
    · exact sound.added id node known
  · intro id node found
    rcases component?_pushComponent_eq_some.mp found with ⟨-, rfl⟩ | known
    · exact scope
    · exact sound.scope id node known
  · intro id node found
    rcases component?_pushComponent_eq_some.mp found with ⟨-, rfl⟩ | known
    · exact ⟨[id], .root id _ found rfl⟩
    · obtain ⟨chain, ancestry⟩ := sound.rooted id node known
      exact ⟨chain, ancestry.mono fun member _ memberNode memberFound => ⟨memberNode, old memberFound, rfl⟩⟩

section Child

variable {parent child : ComponentId} {parentNode childNode : Component} {chain : List ComponentId}

/-- What is found after a component got its parent: the parent, the child, or what was there before. -/
theorem found_withChild (apart : parent ≠ child) (parentFound : graph.component? parent = some parentNode)
    (childFound : graph.component? child = some childNode) (name : String) {id : ComponentId}
    {node : Component} (found : (graph.withChild parent child name).component? id = some node) :
    (id = parent ∧ node = parentNode.adopt name child) ∨ (id = child ∧ node = childNode.attach parent) ∨
      (id ≠ parent ∧ id ≠ child ∧ graph.component? id = some node) := by
  rw [component?_withChild] at found
  by_cases isParent : parent = id
  · subst isParent
    simp only [parentFound, if_neg apart.symm, Option.map_some, if_true, id_eq, Option.some.injEq] at found
    exact .inl ⟨rfl, found.symm⟩
  · by_cases isChild : child = id
    · subst isChild
      simp only [childFound, if_neg isParent, Option.map_some, if_true, id_eq, Option.some.injEq] at found
      exact .inr (.inl ⟨rfl, found.symm⟩)
    · simp only [if_neg isParent, if_neg isChild, id_eq, Option.map_id'] at found
      exact .inr (.inr ⟨Ne.symm isParent, Ne.symm isChild, found⟩)

theorem parent_after (apart : parent ≠ child) (parentFound : graph.component? parent = some parentNode)
    (name : String) :
    (graph.withChild parent child name).component? parent = some (parentNode.adopt name child) := by
  simp [component?_withChild, parentFound, apart.symm]

theorem child_after (apart : parent ≠ child) (childFound : graph.component? child = some childNode)
    (name : String) :
    (graph.withChild parent child name).component? child = some (childNode.attach parent) := by
  simp [component?_withChild, childFound, apart]

theorem other_after {id : ComponentId} {node : Component} (notParent : id ≠ parent) (notChild : id ≠ child)
    (found : graph.component? id = some node) (name : String) :
    (graph.withChild parent child name).component? id = some node := by
  simp [component?_withChild, found, notParent.symm, notChild.symm]

theorem children_adopt {name : String} (fresh : name ∉ Keyed.keys parentNode.children) :
    (parentNode.adopt name child).children = parentNode.children ++ [(name, child)] :=
  Keyed.insert_of_notMem fresh child

/-- A component that existed keeps its name and its children, and its parent unless it is the new child. -/
theorem kept_after (apart : parent ≠ child) (parentFound : graph.component? parent = some parentNode)
    (childFound : graph.component? child = some childNode) {name : String}
    (fresh : name ∉ Keyed.keys parentNode.children) {id : ComponentId} {node : Component}
    (found : graph.component? id = some node) :
    ∃ new, (graph.withChild parent child name).component? id = some new ∧ new.name = node.name ∧
      (id ≠ child → new.parent = node.parent) ∧ ∀ entry ∈ node.children, entry ∈ new.children := by
  by_cases isParent : id = parent
  · subst isParent
    obtain rfl := Option.some.inj (found.symm.trans parentFound)
    refine ⟨_, parent_after apart found name, rfl, fun _ => rfl, fun entry member => ?_⟩
    rw [children_adopt fresh]
    exact List.mem_append_left _ member
  · by_cases isChild : id = child
    · subst isChild
      obtain rfl := Option.some.inj (found.symm.trans childFound)
      exact ⟨_, child_after apart found name, rfl, fun differ => absurd rfl differ, fun _ member => member⟩
    · exact ⟨node, other_after isParent isChild found name, rfl, fun _ => rfl, fun _ member => member⟩

/-- Chains end where they ended, or go on from the new child to its parent. -/
theorem rooted_after (apart : parent ≠ child) (parentFound : graph.component? parent = some parentNode)
    (childFound : graph.component? child = some childNode) {name : String}
    (fresh : name ∉ Keyed.keys parentNode.children) (above : graph.Ancestry parent chain)
    (outside : child ∉ chain) {id : ComponentId} {below : List ComponentId}
    (ancestry : graph.Ancestry id below) :
    ∃ after, (graph.withChild parent child name).Ancestry id after := by
  have overParent : (graph.withChild parent child name).Ancestry parent chain := by
    refine above.mono fun member isMember node found => ?_
    obtain ⟨new, newFound, -, kept, -⟩ := kept_after apart parentFound childFound fresh found
    exact ⟨new, newFound, kept fun same => outside (same ▸ isMember)⟩
  induction ancestry with
  | root id node found top =>
      by_cases isChild : id = child
      · subst isChild
        exact ⟨id :: chain, .child id parent _ chain (child_after apart childFound name) rfl overParent⟩
      · obtain ⟨new, newFound, -, kept, -⟩ := kept_after apart parentFound childFound fresh found
        exact ⟨[id], .root id new newFound ((kept isChild).trans top)⟩
  | child id higher node rest found under _ inductionHypothesis =>
      obtain ⟨after, higherAfter⟩ := inductionHypothesis
      by_cases isChild : id = child
      · subst isChild
        exact ⟨id :: chain, .child id parent _ chain (child_after apart childFound name) rfl overParent⟩
      · obtain ⟨new, newFound, -, kept, -⟩ := kept_after apart parentFound childFound fresh found
        exact ⟨id :: after, .child id higher new after newFound ((kept isChild).trans under) higherAfter⟩

/-- Entries that were there before still name children. -/
theorem child_stays (sound : TreeSound graph) (apart : parent ≠ child)
    (parentFound : graph.component? parent = some parentNode) (childFound : graph.component? child = some childNode)
    (fresh : childNode.name ∉ Keyed.keys parentNode.children) (top : childNode.parent = none) {id : ComponentId}
    {node : Component} (found : graph.component? id = some node) {entry : String × ComponentId}
    (member : entry ∈ node.children) :
    ∃ below, (graph.withChild parent child childNode.name).component? entry.2 = some below ∧
      below.parent = some id ∧ below.name = entry.1 := by
  obtain ⟨below, belowFound, under, named⟩ := sound.child id node found entry member
  obtain ⟨new, newFound, name, kept, -⟩ := kept_after apart parentFound childFound fresh belowFound
  refine ⟨new, newFound, (kept fun same => ?_).trans under, name.trans named⟩
  rw [same] at belowFound
  rw [Option.some.inj (belowFound.symm.trans childFound), top] at under
  contradiction

/-- Components that had a parent are still among its children. -/
theorem parent_stays (sound : TreeSound graph) (apart : parent ≠ child)
    (parentFound : graph.component? parent = some parentNode) (childFound : graph.component? child = some childNode)
    (fresh : childNode.name ∉ Keyed.keys parentNode.children) {id higher : ComponentId} {node : Component}
    (found : graph.component? id = some node) (under : node.parent = some higher) :
    ∃ above, (graph.withChild parent child childNode.name).component? higher = some above ∧
      (node.name, id) ∈ above.children := by
  obtain ⟨above, aboveFound, member⟩ := sound.parent id node higher found under
  obtain ⟨new, newFound, -, -, kept⟩ := kept_after apart parentFound childFound fresh aboveFound
  exact ⟨new, newFound, kept _ member⟩

theorem child_change (sound : TreeSound graph) (parentFound : graph.component? parent = some parentNode)
    (childFound : graph.component? child = some childNode) (free : childNode.added = false)
    (fresh : childNode.name ∉ Keyed.keys parentNode.children) (climbed : graph.lineage parent = .ok chain)
    (outside : child ∉ chain) : TreeSound (graph.withChild parent child childNode.name) := by
  have above := Ancestry.of_lineage climbed
  have apart : parent ≠ child := by
    rintro rfl
    obtain ⟨rest, rfl⟩ := above.head
    exact outside List.mem_cons_self
  have top : childNode.parent = none := by
    have same := sound.added child childNode childFound
    rw [free] at same
    exact Option.not_isSome_iff_eq_none.mp (same ▸ Bool.false_ne_true)
  have cases_of {id : ComponentId} {node : Component}
      (found : (graph.withChild parent child childNode.name).component? id = some node) :=
    found_withChild apart parentFound childFound childNode.name found
  refine ⟨?_, ?_, ?_, ?_, ?_, ?_⟩
  · intro id node found entry member
    -- an old entry of the children of `id`, or the new one
    rcases cases_of found with ⟨rfl, rfl⟩ | ⟨rfl, rfl⟩ | ⟨-, -, known⟩
    · rw [children_adopt fresh, List.mem_append, List.mem_singleton] at member
      rcases member with known | rfl
      · exact sound.child_stays apart parentFound childFound fresh top parentFound known
      · exact ⟨_, child_after apart childFound _, rfl, rfl⟩
    · exact sound.child_stays apart parentFound childFound fresh top childFound member
    · exact sound.child_stays apart parentFound childFound fresh top known member
  · intro id node higher found under
    rcases cases_of found with ⟨rfl, rfl⟩ | ⟨rfl, rfl⟩ | ⟨-, -, known⟩
    · have kept := sound.parent_stays apart parentFound childFound fresh parentFound under
      exact kept
    · obtain rfl := Option.some.inj under
      refine ⟨_, parent_after apart parentFound _, ?_⟩
      rw [children_adopt fresh]
      exact List.mem_append_right _ List.mem_cons_self
    · exact sound.parent_stays apart parentFound childFound fresh known under
  · intro id node found
    rcases cases_of found with ⟨rfl, rfl⟩ | ⟨rfl, rfl⟩ | ⟨-, -, known⟩
    · exact Keyed.distinctKeys_insert (sound.distinct id parentNode parentFound) _ _
    · exact sound.distinct id childNode childFound
    · exact sound.distinct id node known
  · intro id node found
    rcases cases_of found with ⟨rfl, rfl⟩ | ⟨rfl, rfl⟩ | ⟨-, -, known⟩
    · exact sound.added id parentNode parentFound
    · rfl
    · exact sound.added id node known
  · intro id node found
    rcases cases_of found with ⟨rfl, rfl⟩ | ⟨rfl, rfl⟩ | ⟨-, -, known⟩
    · exact sound.scope id parentNode parentFound
    · exact sound.scope id childNode childFound
    · exact sound.scope id node known
  · intro id node found
    have existed : ∃ node, graph.component? id = some node := by
      rcases cases_of found with ⟨rfl, -⟩ | ⟨rfl, -⟩ | ⟨-, -, known⟩
      · exact ⟨_, parentFound⟩
      · exact ⟨_, childFound⟩
      · exact ⟨_, known⟩
    obtain ⟨old, oldFound⟩ := existed
    obtain ⟨below, ancestry⟩ := sound.rooted id old oldFound
    exact rooted_after apart parentFound childFound fresh above outside ancestry

end Child

/-- Every change preserves the trees. -/
theorem change {later : Graph} (change : Change graph later) (sound : TreeSound graph) : TreeSound later := by
  cases change with
  | create config scope => exact sound.create config scope
  | socket owner internal name side node =>
      refine sound.frame fun id => ?_
      rw [component?_withSocket]
      refine map_changed (fun node => ?_) _ _
      unfold Component.enlist
      cases internal <;> cases side <;> rfl
  | link => exact sound.frame fun _ => rfl
  | unlink => exact sound.frame fun _ => rfl
  | bind => exact sound.frame fun _ => rfl
  | unbind => exact sound.frame fun _ => rfl
  | method id method =>
      exact sound.frame (componentView_changeComponent graph id (Component.addMethod method) fun _ => rfl)
  | computation computation =>
      exact sound.frame (componentView_withComputation graph (fun _ _ _ => rfl) computation)
  | child parent child parentNode childNode chain parentFound childFound free fresh climbed outside =>
      exact sound.child_change parentFound childFound free fresh climbed outside
  | hook id hook =>
      exact sound.frame (componentView_changeComponent graph id (Component.withHook hook) fun _ => rfl)
  | state final same => exact sound.frame (componentView_of_wiring (fun _ => rfl) same)

end TreeSound

end Graph

end Wiring
