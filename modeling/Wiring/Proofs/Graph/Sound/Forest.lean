import Wiring.Proofs.Graph.Sound
import Wiring.Proofs.Graph.Sound.Subtree
import Wiring.Proofs.Keyed

/-!
Contract: the components of a reachable graph form a forest, in which chains and subtrees can be listed.

Owns: that a component is listed once by its parent, under its own name, and by no other component; the scope that
the chain of a component spells; and both of this, with the order of the subtree, for every component of a
reachable graph.

Does not own: that the traversals end, which `Tree` and `Subtree` say of chains and subtrees.
-/

namespace Wiring.Graph

variable {graph : Graph} {id : ComponentId} {node : Component}

namespace TreeSound

/-- The parent of a component finds it under its name. -/
theorem exists_holder (sound : TreeSound graph) (found : graph.component? id = some node) {parent : ComponentId}
    (under : node.parent = some parent) :
    ∃ holder, graph.component? parent = some holder ∧ Keyed.get? holder.children node.name = some id := by
  rcases sound.parent id node parent found under with ⟨holder, holderFound, entry⟩
  exact ⟨holder, holderFound, Keyed.get?_of_mem (sound.distinct parent holder holderFound) entry⟩

/-- Only its parent lists a component, and that only once. -/
theorem count_children (sound : TreeSound graph) (found : graph.component? id = some node) {other : ComponentId}
    {holder : Component} (holderFound : graph.component? other = some holder) :
    (Keyed.values holder.children).count id = if node.parent = some other then 1 else 0 := by
  split
  next under =>
    rcases sound.parent id node other found under with ⟨same, sameFound, entry⟩
    obtain rfl := Option.some.inj (holderFound.symm.trans sameFound)
    exact List.count_eq_one_of_mem (sound.values_nodup holderFound) (List.mem_map.mpr ⟨_, entry, rfl⟩)
  next elsewhere =>
    refine List.count_eq_zero_of_not_mem fun listed => elsewhere ?_
    rcases sound.child_found holderFound listed with ⟨below, belowFound, under⟩
    rwa [Option.some.inj (found.symm.trans belowFound)]

end TreeSound

/-- The full scope joins the scopes along the chain, from the root down, without the empty ones. -/
theorem Ancestry.fullScope {chain : List ComponentId} (ancestry : graph.Ancestry id chain) :
    ∃ nodes, List.Forall₂ (fun member node => graph.component? member = some node) chain nodes ∧
      graph.fullScope id =
        .ok (String.intercalate "/" ((nodes.reverse.map Component.scope).filter fun scope => scope ≠ "")) := by
  have each (member : ComponentId) (isMember : member ∈ chain) := ancestry.exists_of_mem isMember
  rcases exists_forall₂ each with ⟨nodes, found⟩
  refine ⟨nodes, found, ?_⟩
  rcases ancestry.head with ⟨rest, rfl⟩
  rcases ancestry.exists_of_mem List.mem_cons_self with ⟨node, here⟩
  refine except_bind_eq_ok.mpr ⟨node, component_eq_ok.mpr here, except_bind_eq_ok.mpr ⟨_, ancestry.lineage, ?_⟩⟩
  refine except_bind_eq_ok.mpr ⟨nodes.reverse.map Component.scope, mapM_eq_ok.mpr ?_, rfl⟩
  rw [List.forall₂_map_right_iff, List.forall₂_reverse_iff]
  exact found.imp fun member node held => except_map_eq_ok.mpr ⟨node, heldComponent_eq_ok.mpr held, rfl⟩

/-- In a reachable graph the components that were added are those with a parent; a component is listed by its
parent, once and under its name, and by no other one; and its parents lead up to a component without parent. Its
full scope can be told and joins the scopes on this chain, and its subtree can be listed: the component and all
below it, each once, and every other member after its parent. -/
theorem Reachable.forest (reachable : graph.Reachable) (found : graph.component? id = some node) :
    (node.added = node.parent.isSome ∧
      (∀ parent, node.parent = some parent →
        ∃ holder, graph.component? parent = some holder ∧ Keyed.get? holder.children node.name = some id) ∧
      ∀ other holder, graph.component? other = some holder →
        (Keyed.values holder.children).count id = if node.parent = some other then 1 else 0) ∧
    (∃ chain nodes, graph.Ancestry id chain ∧
      List.Forall₂ (fun member node => graph.component? member = some node) chain nodes ∧
      graph.fullScope id =
        .ok (String.intercalate "/" ((nodes.reverse.map Component.scope).filter fun scope => scope ≠ ""))) ∧
    ∃ members, graph.subtree id = .ok members ∧ members.Nodup ∧
      (∀ member, member ∈ members ↔ graph.Above id member) ∧
      ∀ member ∈ members, member ≠ id → ∃ below parent, graph.component? member = some below ∧
        below.parent = some parent ∧ [parent, member].Sublist members := by
  have sound := reachable.sound.tree
  refine ⟨⟨sound.added id node found, fun parent under => sound.exists_holder found under,
    fun other holder holderFound => sound.count_children found holderFound⟩, ?_, ?_⟩
  · rcases sound.rooted id node found with ⟨chain, ancestry⟩
    rcases ancestry.fullScope with ⟨nodes, listed, told⟩
    exact ⟨chain, nodes, ancestry, listed, told⟩
  · rcases subtree_succeeds sound found with ⟨members, listed⟩
    exact ⟨members, listed, subtree_nodup sound listed, fun member => mem_subtree sound listed,
      fun member isMember differ => subtree_ordered sound listed isMember differ⟩

/-- A component below one without scope, below a third one. -/
def towering : GraphM Unit := do
  let top ← create { scope := "top" }
  let middle ← create { name := some "middle" }
  let low ← create { scope := "low" }
  add top middle .nothing
  add middle low .nothing

theorem keeps_towering : Keeps Reaches towering := by
  refine Keeps.bind (Reaches.create _) fun top => ?_
  refine Keeps.bind (Reaches.create _) fun middle => ?_
  refine Keeps.bind (Reaches.create _) fun low => ?_
  refine Keeps.bind (Reaches.add top middle _) fun _ => ?_
  exact Reaches.add middle low _

theorem reachable_towering : (after towering {}).Reachable :=
  (reachable_empty {}).reaches (keeps_towering {})

theorem forest_towering :
    ∃ top low, (after towering {}).component? ⟨0⟩ = some top ∧ (after towering {}).component? ⟨2⟩ = some low ∧
      (Keyed.values top.children).count ⟨2⟩ = 0 ∧ (after towering {}).fullScope ⟨2⟩ = .ok "top/low" ∧
      ∃ members, (after towering {}).subtree ⟨0⟩ = .ok members ∧ [⟨1⟩, ⟨2⟩].Sublist members := by
  have lowFound := show (after towering {}).component? ⟨2⟩ = some _ from rfl
  have topFound := show (after towering {}).component? ⟨0⟩ = some _ from rfl
  rcases reachable_towering.forest lowFound with ⟨⟨-, -, counts⟩, -, -⟩
  rcases reachable_towering.forest topFound with ⟨-, -, members, listed, -, -, ordered⟩
  refine ⟨_, _, rfl, rfl, counts ⟨0⟩ _ rfl, rfl, members, listed, ?_⟩
  obtain rfl : members = [⟨0⟩, ⟨1⟩, ⟨2⟩] := Except.ok.inj (listed.symm.trans rfl)
  rcases ordered ⟨2⟩ (by decide) (by decide) with ⟨below, parent, found, under, sublist⟩
  obtain rfl : below = _ := Option.some.inj (found.symm.trans rfl)
  obtain rfl : parent = ⟨1⟩ := Option.some.inj (under.symm.trans rfl)
  exact sublist

end Wiring.Graph
