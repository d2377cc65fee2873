import Wiring.Proofs.Graph.Operations.Structure
import Wiring.Proofs.Graph.Operations.Variables

/-!
Contract: operations leave alone what builds go by from one to the next.

Owns: the mark of a finished hook beside the marks of a build; `Stays`, by which the marks that outlast a build
stay as they are, no hook is lost, sockets keep their owners and computations do not change; and that the edits of
operations keep it.

Does not own: anything about builds, which set these marks.
-/

namespace Wiring.Graph

def isHookDone (graph : Graph) (id : ComponentId) : Bool :=
  ((graph.component? id).map Component.hookDone).getD false

def hasHook (graph : Graph) (id : ComponentId) : Bool :=
  ((graph.component? id).map fun node => node.hook.isSome).getD false

theorem isHookDone_eq {graph : Graph} {id : ComponentId} {node : Component}
    (found : graph.component? id = some node) : graph.isHookDone id = node.hookDone := by
  rw [isHookDone, found]
  rfl

theorem hasHook_eq {graph : Graph} {id : ComponentId} {node : Component}
    (found : graph.component? id = some node) : graph.hasHook id = node.hook.isSome := by
  rw [hasHook, found]
  rfl

theorem isHookDone_changeComponent {graph : Graph} {id : ComponentId} {node : Component}
    (found : graph.component? id = some node) (change : Component → Component) :
    (graph.changeComponent id change).isHookDone = Function.update graph.isHookDone id (change node).hookDone :=
  view_changeComponent Component.hookDone false found change

theorem hasHook_changeComponent {graph : Graph} {id : ComponentId} (change : Component → Component)
    (hook : ∀ node, node.hook.isSome = true → (change node).hook.isSome = true) (other : ComponentId)
    (has : graph.hasHook other = true) : (graph.changeComponent id change).hasHook other = true := by
  unfold hasHook at has ⊢
  rw [component?_changeComponent]
  split
  · cases found : graph.component? other with
    | none =>
        rw [found] at has
        cases has
    | some node =>
        rw [found] at has
        exact hook node has
  · exact has

structure Stays (before later : Graph) : Prop where
  complete : later.isComplete = before.isComplete
  hookDone : later.isHookDone = before.isHookDone
  hook : ∀ id, before.hasHook id = true → later.hasHook id = true
  component : ∀ id node, before.component? id = some node → ∃ new, later.component? id = some new
  socket : ∀ id socket, before.socket? id = some socket →
    ∃ new, later.socket? id = some new ∧ new.owner = socket.owner
  computation : ∀ id computation, before.computation? id = some computation →
    later.computation? id = some computation

namespace Stays

theorem refl (graph : Graph) : Stays graph graph where
  complete := rfl
  hookDone := rfl
  hook _ has := has
  component _ node found := ⟨node, found⟩
  socket _ socket held := ⟨socket, held, rfl⟩
  computation _ _ found := found

theorem trans {first second third : Graph} (left : Stays first second) (right : Stays second third) :
    Stays first third where
  complete := right.complete.trans left.complete
  hookDone := right.hookDone.trans left.hookDone
  hook id has := right.hook id (left.hook id has)
  component id node found := by
    rcases left.component id node found with ⟨middle, middleFound⟩
    exact right.component id middle middleFound
  socket id socket held := by
    rcases left.socket id socket held with ⟨middle, middleHeld, owner⟩
    rcases right.socket id middle middleHeld with ⟨new, newHeld, ownerToo⟩
    exact ⟨new, newHeld, ownerToo.trans owner⟩
  computation id computation found := right.computation id computation (left.computation id computation found)

instance : IsPreorder Graph Stays where
  refl := refl
  trans _ _ _ := trans

variable {graph : Graph}

/-! ### Edits -/

theorem component_changeComponent (id : ComponentId) (change : Component → Component) (other : ComponentId)
    (node : Component) (found : graph.component? other = some node) :
    ∃ new, (graph.changeComponent id change).component? other = some new := by
  rw [component?_changeComponent, found]
  split
  · exact ⟨change node, rfl⟩
  · exact ⟨node, rfl⟩

theorem changeComponent (id : ComponentId) {change : Component → Component}
    (complete : ∀ node, (change node).complete = node.complete)
    (hookDone : ∀ node, (change node).hookDone = node.hookDone)
    (hook : ∀ node, node.hook.isSome = true → (change node).hook.isSome = true) :
    Stays graph (graph.changeComponent id change) where
  complete := funext fun other => congrArg (Option.getD · false)
    (componentView_changeComponent graph id change complete other)
  hookDone := funext fun other => congrArg (Option.getD · false)
    (componentView_changeComponent graph id change hookDone other)
  hook := hasHook_changeComponent change hook
  component := component_changeComponent id change
  socket _ socket held := ⟨socket, held, rfl⟩
  computation _ _ found := found

theorem changeSocket (id : SocketId) {change : Socket → Socket}
    (owner : ∀ socket, (change socket).owner = socket.owner) : Stays graph (graph.changeSocket id change) where
  complete := rfl
  hookDone := rfl
  hook _ has := has
  component _ node found := ⟨node, found⟩
  socket other socket held := by
    rw [socket?_changeSocket, held]
    by_cases same : id = other
    · exact ⟨change socket, if_pos same, owner socket⟩
    · exact ⟨socket, if_neg same, rfl⟩
  computation _ _ found := found

/-- A new component has no marks. -/
theorem pushComponent (config : ComponentConfig) : Stays graph (graph.pushComponent (.ofConfig config)) := by
  have view {α : Type} (read : Component → α) (missing : α) (new : read (.ofConfig config) = missing)
      (id : ComponentId) : (((graph.pushComponent (.ofConfig config)).component? id).map read).getD missing =
        ((graph.component? id).map read).getD missing := by
    rw [component?_pushComponent]
    split
    · next same =>
        subst same
        rw [component?_nextComponent]
        exact new
    · rfl
  exact {
    complete := funext (view Component.complete false rfl)
    hookDone := funext (view Component.hookDone false rfl)
    hook := fun id has => (view (fun node => node.hook.isSome) false rfl id).trans has
    component := fun _ old found => ⟨old, component?_pushComponent_eq_some.mpr (.inr found)⟩
    socket := fun _ socket held => ⟨socket, held, rfl⟩
    computation := fun _ _ found => found }

theorem pushSocket (socket : Socket) : Stays graph (graph.pushSocket socket) where
  complete := rfl
  hookDone := rfl
  hook _ has := has
  component _ node found := ⟨node, found⟩
  socket _ old held := ⟨old, socket?_pushSocket_eq_some.mpr (.inr held), rfl⟩
  computation _ _ found := found

theorem pushComputation (computation : Computation) : Stays graph (graph.pushComputation computation) where
  complete := rfl
  hookDone := rfl
  hook _ has := has
  component _ node found := ⟨node, found⟩
  socket _ socket held := ⟨socket, held, rfl⟩
  computation _ _ found := computation?_pushComputation_eq_some.mpr (.inr found)

/-- The edits of all operations but those on variables. -/
theorem structural : Structural Stays where
  changeComponent _ id _ plain := changeComponent id plain.complete plain.hookDone plain.hook
  changeSocket _ id _ owner := changeSocket id owner
  pushComponent _ config := pushComponent config
  pushSocket _ socket := pushSocket socket
  pushComputation _ computation := pushComputation computation

theorem registers {own : ComponentId} {before later : Graph} (registers : Registers own before later) :
    Stays before later := by
  obtain ⟨store, change, rfl⟩ := registers
  have stored : Stays before { before with backend := { before.backend with store } } :=
    ⟨rfl, rfl, fun _ has => has, fun _ node found => ⟨node, found⟩, fun _ socket held => ⟨socket, held, rfl⟩,
      fun _ _ found => found⟩
  exact stored.trans (changeComponent own (fun _ => rfl) (fun _ => rfl) fun _ has => has)

end Stays

end Wiring.Graph
