import Wiring.Proofs.Following
import Wiring.Proofs.Graph.Change

/-!
Contract: a part of a graph that stands behind everything else in a larger graph.

Owns: `Placement`, which gives every thing of the part its place behind a graph and every space of the part another
one; `Behind`, by which an array continues another one with counterparts of the items of a third; `Holds`, by which a
graph consists of an older one and of the part behind it; and that looking something up or editing it in the part is
the same as doing so in the whole.

Does not own: the operations on graphs that consist of lookups and edits.
-/

namespace Wiring

/-! ### Arrays behind arrays -/

/-- The large array has the old items first and then counterparts of the items of the small one. -/
structure Behind {α : Type} (old : Array α) (relates : α → α → Prop) (small large : Array α) : Prop where
  size : large.size = old.size + small.size
  kept : ∀ i, i < old.size → large[i]? = old[i]?
  matched : ∀ i, Option.Rel relates small[i]? large[old.size + i]?

namespace Behind

variable {α : Type} {old small large : Array α} {relates : α → α → Prop}

theorem start (old : Array α) (relates : α → α → Prop) : Behind old relates #[] old where
  size := rfl
  kept _ _ := rfl
  matched i := by
    rw [Array.getElem?_eq_none (Nat.le_add_right old.size i)]
    exact .none

theorem push (behind : Behind old relates small large) {item itemToo : α} (pair : relates item itemToo) :
    Behind old relates (small.push item) (large.push itemToo) where
  size := by simp [behind.size, Nat.add_assoc]
  kept i known := by
    have size := behind.size
    rw [Array.getElem?_push, if_neg (by omega)]
    exact behind.kept i known
  matched i := by
    rw [Array.getElem?_push, Array.getElem?_push, behind.size]
    by_cases last : i = small.size
    · rw [if_pos last, if_pos (by omega)]
      exact .some pair
    · rw [if_neg last, if_neg (by omega)]
      exact behind.matched i

/-- A position holds an item and its counterpart, or nothing in both arrays. -/
theorem lookup (behind : Behind old relates small large) (i : Nat) :
    (small[i]? = none ∧ large[old.size + i]? = none) ∨
      ∃ item itemToo, small[i]? = some item ∧ large[old.size + i]? = some itemToo ∧ relates item itemToo := by
  have pair := behind.matched i
  generalize small[i]? = left at pair ⊢
  generalize large[old.size + i]? = right at pair ⊢
  cases pair with
  | none => exact .inl ⟨rfl, rfl⟩
  | some pair => exact .inr ⟨_, _, rfl, rfl, pair⟩

theorem modify (behind : Behind old relates small large) (position : Nat) {change changeToo : α → α}
    (pairs : ∀ item itemToo, small[position]? = some item → relates item itemToo →
      relates (change item) (changeToo itemToo)) :
    Behind old relates (small.modify position change) (large.modify (old.size + position) changeToo) where
  size := by simp [behind.size]
  kept i known := by
    rw [Array.getElem?_modify, if_neg (by omega)]
    exact behind.kept i known
  matched i := by
    rw [Array.getElem?_modify, Array.getElem?_modify]
    by_cases here : position = i
    · subst here
      rw [if_pos rfl, if_pos rfl]
      rcases behind.lookup position with ⟨absent, absentToo⟩ | ⟨item, itemToo, found, foundToo, pair⟩
      · rw [absent, absentToo]
        exact .none
      · rw [found, foundToo]
        exact .some (pairs item itemToo found pair)
    · rw [if_neg here, if_neg (by omega)]
      exact behind.matched i

end Behind

/-! ### Places -/

/-- Where a part stands, and which spaces its own spaces stand for. A space may only stand for one that hooks cannot
tell apart from it, and a scalar box stands for itself. -/
structure Placement where
  base : Graph
  space : Space → Space
  scalar : ∀ box : Box, box.shape = [] → space (.box box) = .box box
  isBoxOf : ∀ given, (space given).isBoxOf .bool = given.isBoxOf .bool
  hasBatchRank : ∀ given, (space given).hasBatchRank = given.hasBatchRank

namespace Placement

/-- Behind a graph, with the spaces as they are. -/
def behind (base : Graph) : Placement where
  base
  space := id
  scalar _ _ := rfl
  isBoxOf _ := rfl
  hasBatchRank _ := rfl

variable (place : Placement)

def component (id : ComponentId) : ComponentId :=
  ⟨place.base.components.size + id.index⟩

def socket (id : SocketId) : SocketId :=
  ⟨place.base.sockets.size + id.index⟩

def computation (id : ComputationId) : ComputationId :=
  ⟨place.base.computations.size + id.index⟩

theorem component_inj {a b : ComponentId} : place.component a = place.component b ↔ a = b := by
  cases a
  cases b
  simp [component]

theorem socket_inj {a b : SocketId} : place.socket a = place.socket b ↔ a = b := by
  cases a
  cases b
  simp [socket]

theorem computation_inj {a b : ComputationId} : place.computation a = place.computation b ↔ a = b := by
  cases a
  cases b
  simp [computation]

def connection : Connection → Connection
  | .socket id => .socket (place.socket id)
  | .space given => .space (place.space given)
  | .computation id => .computation (place.computation id)

def port (socket : Socket) : Socket :=
  { socket with
    owner := place.component socket.owner
    incoming := socket.incoming.map place.connection
    outgoing := socket.outgoing.map place.connection
    space := socket.space.map place.space }

def work (computation : Computation) : Computation :=
  { computation with
    owner := place.component computation.owner
    inputs := computation.inputs.map place.socket
    outputs := computation.outputs.map place.socket }

def op (given : DataOp) : DataOp :=
  ⟨given.id, place.space given.space⟩

def record (given : OpRecord) : OpRecord :=
  { given with
    component := given.component.map place.component
    space := place.space given.space }

def log (given : OpLog) : OpLog :=
  ⟨given.entries.map fun entry => ⟨place.record entry.toOpRecord, entry.id⟩⟩

theorem get?_log (given : OpLog) (id : OpId) : (place.log given).get? id = (given.get? id).map place.record := by
  simp [OpLog.get?, log, Function.comp_def]

/-- On corresponding ops the method returns corresponding ops. -/
def Carries (method : Method) : Prop :=
  ∀ context contextToo : MethodContext, contextToo.component = place.component context.component →
    ∀ inputs recorder recorderToo, recorderToo.log = place.log recorder.log →
      Echo (fun made madeToo => madeToo.1 = made.1.map place.op ∧ madeToo.2.log = place.log made.2.log)
        (method.run context inputs recorder) (method.run contextToo (inputs.map place.op) recorderToo)

/-- A component in its place. It may have another name. Its computations are not split, and if it has a hook, that only
looks at spaces. -/
structure Node (node other : Component) : Prop where
  settings : other.settings = node.settings
  unsplit : node.settings.splitOps = false
  parent : other.parent = node.parent.map place.component
  added : other.added = node.added
  children : Keyed.values other.children = (Keyed.values node.children).map place.component
  inputs : other.inputs = node.inputs.map place.socket
  outputs : other.outputs = node.outputs.map place.socket
  internals : other.internals = node.internals.map place.socket
  methods : other.methods = node.methods
  carried : ∀ method ∈ node.methods, place.Carries method
  sources : other.sources = node.sources.map place.computation
  hook : other.hook = node.hook
  looks : node.hook = none ∨ node.hook = some .explorationInputs
  complete : other.complete = node.complete
  hookDone : other.hookDone = node.hookDone
  deferred : other.deferred = node.deferred.map place.socket

variable {place} in
theorem Node.sockets {node other : Component} (stands : place.Node node other) :
    other.sockets = node.sockets.map place.socket := by
  unfold Component.sockets
  rw [stands.inputs, stands.outputs, stands.internals, List.map_append, List.map_append]

variable {place} in
theorem Node.children_nil {node other : Component} (stands : place.Node node other) (empty : node.children = []) :
    other.children = [] := by
  have values := stands.children
  rw [empty] at values
  exact List.map_eq_nil_iff.mp values

/-- The whole has everything of the base first and then the part. -/
structure Holds (part whole : Graph) : Prop where
  components : Behind place.base.components place.Node part.components whole.components
  sockets : Behind place.base.sockets (fun socket other => other = place.port socket) part.sockets whole.sockets
  computations : Behind place.base.computations
    (fun computation other => other = place.work computation ∧ computation.settings.splitOps = false)
    part.computations whole.computations
  backend : whole.backend = place.base.backend

theorem Holds.start : place.Holds {} place.base where
  components := .start _ _
  sockets := .start _ _
  computations := .start _ _
  backend := rfl

theorem holds_behind (base : Graph) : (behind base).Holds {} base :=
  .start (behind base)

/-! ### Lookups -/

section Lookups

variable {place} {part whole : Graph} (holds : place.Holds part whole)
include holds

theorem echo_component (id : ComponentId) :
    Echo place.Node (part.component id) (whole.component (place.component id)) := by
  unfold Graph.component component
  rcases holds.components.lookup id.index with ⟨absent, absentToo⟩ | ⟨node, other, found, foundToo, stands⟩
  · rw [absent, absentToo]
    exact .error rfl
  · rw [found, foundToo]
    exact .ok stands

theorem echo_heldComponent (id : ComponentId) :
    Echo place.Node (part.heldComponent id) (whole.heldComponent (place.component id)) := by
  unfold Graph.heldComponent component
  rcases holds.components.lookup id.index with ⟨absent, absentToo⟩ | ⟨node, other, found, foundToo, stands⟩
  · rw [absent, absentToo]
    exact .error rfl
  · rw [found, foundToo]
    exact .ok stands

theorem echo_heldSocket (id : SocketId) : Echo (fun socket other => other = place.port socket)
    (part.heldSocket id) (whole.heldSocket (place.socket id)) := by
  unfold Graph.heldSocket socket
  rcases holds.sockets.lookup id.index with ⟨absent, absentToo⟩ | ⟨held, other, found, foundToo, stands⟩
  · rw [absent, absentToo]
    exact .error rfl
  · rw [found, foundToo]
    exact .ok stands

theorem echo_heldComputation (id : ComputationId) :
    Echo (fun computation other => other = place.work computation ∧ computation.settings.splitOps = false)
      (part.heldComputation id) (whole.heldComputation (place.computation id)) := by
  unfold Graph.heldComputation computation
  rcases holds.computations.lookup id.index with ⟨absent, absentToo⟩ | ⟨held, other, found, foundToo, stands⟩
  · rw [absent, absentToo]
    exact .error rfl
  · rw [found, foundToo]
    exact .ok stands

theorem node_of_found {id : ComponentId} {node : Component} (found : part.component? id = some node) :
    ∃ other, whole.component? (place.component id) = some other ∧ place.Node node other := by
  rcases holds.components.lookup id.index with ⟨absent, -⟩ | ⟨same, other, again, foundToo, stands⟩
  · cases absent.symm.trans found
  · obtain rfl := Option.some.inj (again.symm.trans found)
    exact ⟨other, foundToo, stands⟩

theorem nextComponent_whole : whole.nextComponent = place.component part.nextComponent :=
  congrArg ComponentId.mk holds.components.size

theorem nextSocket_whole : whole.nextSocket = place.socket part.nextSocket :=
  congrArg SocketId.mk holds.sockets.size

theorem nextComputation_whole : whole.nextComputation = place.computation part.nextComputation :=
  congrArg ComputationId.mk holds.computations.size

end Lookups

/-! ### Edits -/

section Edits

variable {place} {part whole : Graph} {α β : Type} (holds : place.Holds part whole)
include holds

theorem follows_query {agree : α → β → Prop} {question questionToo : _}
    (echo : Echo agree (question part) (questionToo whole)) :
    Follows place.Holds agree (query question) (query questionToo) part whole :=
  ⟨echo, holds⟩

theorem follows_editComponent (id : ComponentId) {change changeToo : Component → Component}
    (stands : ∀ node other, part.component? id = some node → place.Node node other →
      place.Node (change node) (changeToo other)) :
    Follows place.Holds (Any Unit Unit) (Graph.editComponent id change)
      (Graph.editComponent (place.component id) changeToo) part whole := by
  refine (follows_query holds (echo_heldComponent holds id)).bind fun _ _ _ _ _ => ?_
  exact .modify { holds with components := holds.components.modify id.index stands }

theorem follows_editSocket (id : SocketId) {change changeToo : Socket → Socket}
    (stands : ∀ socket, changeToo (place.port socket) = place.port (change socket)) :
    Follows place.Holds (Any Unit Unit) (Graph.editSocket id change)
      (Graph.editSocket (place.socket id) changeToo) part whole := by
  refine (follows_query holds (echo_heldSocket holds id)).bind fun _ _ _ _ _ => ?_
  refine .modify { holds with sockets := holds.sockets.modify id.index fun socket other _ same => ?_ }
  rw [same]
  exact stands socket

end Edits

end Placement
end Wiring
