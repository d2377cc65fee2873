import Mathlib.Data.List.Perm.Basic
import Mathlib.Data.Option.Basic
import Mathlib.Logic.Equiv.Defs
import Wiring.Proofs.Blueprint.Restored

/-!
Contract: graphs that differ in the order of their parts.

Owns: `Reordered`, by which two graphs have the same sub-components, in-sockets, connections and computations under
a renaming of the identifiers, in any order; and that the components above and below each other, and the subtrees
that no link leaves, are the same.

Does not own: what else components hold, such as names, methods and variables, which may differ in any way.
-/

namespace Wiring

/-- Other identifiers for the parts of a graph. -/
structure Renaming where
  component : Equiv.Perm ComponentId
  socket : Equiv.Perm SocketId
  computation : Equiv.Perm ComputationId

namespace Renaming

def refl : Renaming :=
  ⟨.refl _, .refl _, .refl _⟩

def symm (names : Renaming) : Renaming :=
  ⟨names.component.symm, names.socket.symm, names.computation.symm⟩

end Renaming

/-- The list under other names, in any order. -/
def Rearranged {α : Type} (rename : α → α) (left right : List α) : Prop :=
  (left.map rename).Perm right

namespace Rearranged

variable {α : Type} {rename back : α → α} {left right : List α}

theorem mem (rearranged : Rearranged rename left right) {item : α} (member : item ∈ left) : rename item ∈ right :=
  List.Perm.mem_iff rearranged |>.mp (List.mem_map_of_mem member)

theorem exists_of_mem (rearranged : Rearranged rename left right) {item : α} (member : item ∈ right) :
    ∃ source ∈ left, rename source = item :=
  List.mem_map.mp (List.Perm.mem_iff rearranged |>.mpr member)

theorem symm (inverse : ∀ item, back (rename item) = item) (rearranged : Rearranged rename left right) :
    Rearranged back right left := by
  have mapped := (List.Perm.map back rearranged).symm
  rw [List.map_map] at mapped
  have same : left.map (back ∘ rename) = left := List.map_id'' inverse left
  rw [same] at mapped
  exact mapped

instance [DecidableEq α] : Decidable (Rearranged rename left right) :=
  inferInstanceAs (Decidable (List.Perm _ _))

end Rearranged

structure Component.Reordered (names : Renaming) (left right : Component) : Prop where
  children : Rearranged names.component (Keyed.values left.children) (Keyed.values right.children)
  inputs : Rearranged names.socket left.inputs right.inputs

/-- As many spaces are bound to the sockets, and they are linked to the same ones. -/
structure Socket.Reordered (names : Renaming) (left right : Socket) : Prop where
  owner : right.owner = names.component left.owner
  bound : (spaceEntries left.incoming).length = (spaceEntries right.incoming).length
  targets : Rearranged names.socket (socketEntries left.outgoing) (socketEntries right.outgoing)

structure Computation.Reordered (names : Renaming) (left right : Computation) : Prop where
  owner : right.owner = names.component left.owner
  inputs : Rearranged names.socket left.inputs right.inputs
  outputs : Rearranged names.socket left.outputs right.outputs

section

variable {names : Renaming}

instance {left right : Component} : Decidable (left.Reordered names right) :=
  decidable_of_iff (_ ∧ _) ⟨fun both => ⟨both.1, both.2⟩, fun same => ⟨same.children, same.inputs⟩⟩

instance {left right : Socket} : Decidable (left.Reordered names right) :=
  decidable_of_iff (_ ∧ _ ∧ _)
    ⟨fun all => ⟨all.1, all.2.1, all.2.2⟩, fun same => ⟨same.owner, same.bound, same.targets⟩⟩

instance {left right : Computation} : Decidable (left.Reordered names right) :=
  decidable_of_iff (_ ∧ _ ∧ _)
    ⟨fun all => ⟨all.1, all.2.1, all.2.2⟩, fun same => ⟨same.owner, same.inputs, same.outputs⟩⟩

end

namespace Graph

/-- The graphs are equal up to the order of their parts, under other identifiers. -/
structure Reordered (names : Renaming) (left right : Graph) : Prop where
  components : ∀ id, Option.Rel (Component.Reordered names) (left.component? id)
    (right.component? (names.component id))
  sockets : ∀ id, Option.Rel (Socket.Reordered names) (left.socket? id) (right.socket? (names.socket id))
  computations : ∀ id, Option.Rel (Computation.Reordered names) (left.computation? id)
    (right.computation? (names.computation id))

theorem exists_of_rel {α β : Type} {relates : α → β → Prop} {left : Option α} {right : Option β}
    (rel : Option.Rel relates left right) {item : α} (found : left = some item) :
    ∃ other, right = some other ∧ relates item other := by
  subst found
  cases rel with
  | some related => exact ⟨_, rfl, related⟩

/-- Related entries are related backwards if the relations of entries are. -/
theorem rel_symm {α β ι : Type} {relates : α → β → Prop} {back : β → α → Prop} {rename : Equiv.Perm ι}
    {left : ι → Option α} {right : ι → Option β} (rel : ∀ id, Option.Rel relates (left id) (right (rename id)))
    (reverse : ∀ item other, relates item other → back other item) (id : ι) :
    Option.Rel back (right id) (left (rename.symm id)) := by
  have here := rel (rename.symm id)
  rw [rename.apply_symm_apply] at here
  generalize left (rename.symm id) = source, right id = target at here ⊢
  cases here with
  | some related => exact .some (reverse _ _ related)
  | none => exact .none

namespace Reordered

variable {names : Renaming} {left right : Graph}

theorem symm (reordered : left.Reordered names right) : right.Reordered names.symm left where
  components := rel_symm reordered.components fun _ _ same => {
    children := same.children.symm names.component.symm_apply_apply
    inputs := same.inputs.symm names.socket.symm_apply_apply }
  sockets := rel_symm reordered.sockets fun _ _ same => {
    owner := (names.component.symm_apply_eq.mpr same.owner).symm
    bound := same.bound.symm
    targets := same.targets.symm names.socket.symm_apply_apply }
  computations := rel_symm reordered.computations fun _ _ same => {
    owner := (names.component.symm_apply_eq.mpr same.owner).symm
    inputs := same.inputs.symm names.socket.symm_apply_apply
    outputs := same.outputs.symm names.socket.symm_apply_apply }

section

variable (reordered : left.Reordered names right)
include reordered

theorem component {id : ComponentId} {node : Component} (found : left.component? id = some node) :
    ∃ other, right.component? (names.component id) = some other ∧ node.Reordered names other :=
  exists_of_rel (reordered.components id) found

theorem socket {id : SocketId} {held : Socket} (found : left.socket? id = some held) :
    ∃ other, right.socket? (names.socket id) = some other ∧ held.Reordered names other :=
  exists_of_rel (reordered.sockets id) found

theorem computation {id : ComputationId} {computation : Computation} (found : left.computation? id = some computation) :
    ∃ other, right.computation? (names.computation id) = some other ∧ computation.Reordered names other :=
  exists_of_rel (reordered.computations id) found

/-- Since parents and children agree in each of the graphs, children also have the same parents. -/
theorem parent (leftSound : TreeSound left) (rightSound : TreeSound right) {id above : ComponentId}
    {node other : Component} (found : left.component? id = some node)
    (otherFound : right.component? (names.component id) = some other) (under : node.parent = some above) :
    other.parent = some (names.component above) := by
  rcases leftSound.parent id node above found under with ⟨higher, higherFound, listed⟩
  rcases reordered.component higherFound with ⟨otherHigher, otherHigherFound, same⟩
  have child := same.children.mem (List.mem_map_of_mem listed)
  rcases rightSound.child_found otherHigherFound child with ⟨below, belowFound, belowUnder⟩
  obtain rfl := Option.some.inj (otherFound.symm.trans belowFound)
  exact belowUnder

theorem ancestry (leftSound : TreeSound left) (rightSound : TreeSound right) {id : ComponentId}
    {chain : List ComponentId} (ancestry : left.Ancestry id chain) :
    right.Ancestry (names.component id) (chain.map names.component) := by
  induction ancestry with
  | root id node found top =>
      rcases reordered.component found with ⟨other, otherFound, -⟩
      refine .root _ other otherFound (Option.eq_none_iff_forall_ne_some.mpr fun above under => ?_)
      have found : left.component? (names.symm.component (names.component id)) = some node := by
        rw [← found]
        exact congrArg left.component? (names.component.symm_apply_apply id)
      rw [reordered.symm.parent rightSound leftSound otherFound found under] at top
      cases top
  | child id above node chain found under _ inductionHypothesis =>
      rcases reordered.component found with ⟨other, otherFound, -⟩
      exact .child _ _ other _ otherFound (reordered.parent leftSound rightSound found otherFound under)
        inductionHypothesis

theorem above (leftSound : TreeSound left) (rightSound : TreeSound right) {upper lower : ComponentId}
    (above : left.Above upper lower) : right.Above (names.component upper) (names.component lower) := by
  rcases above with ⟨chain, ancestry, member⟩
  exact ⟨_, reordered.ancestry leftSound rightSound ancestry, List.mem_map_of_mem member⟩

theorem above_iff (leftSound : TreeSound left) (rightSound : TreeSound right) {upper lower : ComponentId} :
    right.Above (names.component upper) (names.component lower) ↔ left.Above upper lower := by
  refine ⟨fun above => ?_, reordered.above leftSound rightSound⟩
  have back := reordered.symm.above rightSound leftSound above
  unfold Renaming.symm at back
  rwa [names.component.symm_apply_apply, names.component.symm_apply_apply] at back

/-- The subtrees of a component are the same. -/
theorem mem_subtree (leftSound : TreeSound left) (rightSound : TreeSound right) {root : ComponentId}
    {members others : List ComponentId} (listed : left.subtree root = .ok members)
    (otherListed : right.subtree (names.component root) = .ok others) (id : ComponentId) :
    names.component id ∈ others ↔ id ∈ members := by
  rw [Graph.mem_subtree rightSound otherListed, Graph.mem_subtree leftSound listed]
  exact reordered.above_iff leftSound rightSound

theorem enclosed (leftSound : TreeSound left) (rightSound : TreeSound right) {root : ComponentId}
    (enclosed : left.Enclosed root) : right.Enclosed (names.component root) := by
  have back {id : ComponentId} : right.Above (names.component root) id ↔ left.Above root (names.symm.component id) := by
    rw [← reordered.above_iff leftSound rightSound]
    unfold Renaming.symm
    rw [names.component.apply_symm_apply]
  intro id held found above target linked other otherFound
  rcases reordered.symm.socket found with ⟨source, sourceFound, sourceSame⟩
  rcases reordered.symm.socket otherFound with ⟨reached, reachedFound, reachedSame⟩
  have entered := sourceSame.targets.mem linked
  rw [back, ← reachedSame.owner]
  rw [back, ← sourceSame.owner] at above
  exact enclosed _ source sourceFound above _ entered reached reachedFound

end

end Reordered

/-! ### A check of concrete graphs -/

/-- Whether the entries of two arrays are related, one for one under other positions. -/
def entriesRelate {α : Type} (relates : α → α → Bool) (forth back : Nat → Nat) (left right : Array α) : Bool :=
  (left.toList.zipIdx.all fun held => right[forth held.2]?.any (relates held.1)) &&
    right.toList.zipIdx.all fun held => left[back held.2]?.isSome

theorem rel_of_entries {α : Type} {relates : α → α → Prop} [DecidableRel relates] {forth back : Nat → Nat}
    (inverse : ∀ position, back (forth position) = position) {left right : Array α}
    (related : entriesRelate (fun item other => decide (relates item other)) forth back left right = true)
    (position : Nat) : Option.Rel relates left[position]? right[forth position]? := by
  rcases Bool.and_eq_true_iff.mp related with ⟨ahead, behind⟩
  cases found : left[position]? with
  | none =>
      cases otherFound : right[forth position]? with
      | none => exact .none
      | some other =>
          have listed : (other, forth position) ∈ right.toList.zipIdx := by
            rw [List.mk_mem_zipIdx_iff_getElem?, Array.getElem?_toList]
            exact otherFound
          have back := List.all_eq_true.mp behind _ listed
          rw [inverse, found] at back
          cases back
  | some item =>
      have listed : (item, position) ∈ left.toList.zipIdx := by
        rw [List.mk_mem_zipIdx_iff_getElem?, Array.getElem?_toList]
        exact found
      have ahead := List.all_eq_true.mp ahead _ listed
      cases otherFound : right[forth position]? with
      | none =>
          rw [otherFound] at ahead
          cases ahead
      | some other =>
          rw [otherFound] at ahead
          exact .some (of_decide_eq_true ahead)

def reorders (names : Renaming) (left right : Graph) : Bool :=
  entriesRelate (fun node other => decide (node.Reordered names other)) (fun index => (names.component ⟨index⟩).index)
    (fun index => (names.component.symm ⟨index⟩).index) left.components right.components &&
  entriesRelate (fun held other => decide (held.Reordered names other)) (fun index => (names.socket ⟨index⟩).index)
    (fun index => (names.socket.symm ⟨index⟩).index) left.sockets right.sockets &&
  entriesRelate (fun computation other => decide (computation.Reordered names other))
    (fun index => (names.computation ⟨index⟩).index) (fun index => (names.computation.symm ⟨index⟩).index)
    left.computations right.computations

theorem reordered_of_reorders {names : Renaming} {left right : Graph} (checked : reorders names left right = true) :
    left.Reordered names right := by
  rcases Bool.and_eq_true_iff.mp checked with ⟨checked, computations⟩
  rcases Bool.and_eq_true_iff.mp checked with ⟨components, sockets⟩
  constructor
  · refine fun id => rel_of_entries (fun index => ?_) components id.index
    exact congrArg ComponentId.index (names.component.symm_apply_apply ⟨index⟩)
  · refine fun id => rel_of_entries (fun index => ?_) sockets id.index
    exact congrArg SocketId.index (names.socket.symm_apply_apply ⟨index⟩)
  · refine fun id => rel_of_entries (fun index => ?_) computations id.index
    exact congrArg ComputationId.index (names.computation.symm_apply_apply ⟨index⟩)

end Graph

end Wiring
