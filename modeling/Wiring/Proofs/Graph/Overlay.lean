import Wiring.Proofs.Build.Moves

/-!
Contract: graphs with the variables of another graph.

Owns: `withVariablesOf`, which takes the backend, the registries and the marks of hooks from another graph of the
same wiring, and how it commutes with the edits of a build; `VariablesStay`, by which complete components keep
these; and that a graph is determined by its wiring, its variables and its marks.
-/

namespace Wiring

/-- The component with the variables of another one, and the mark of its hook. -/
def Component.withVariablesOf (node kept : Component) : Component :=
  { node with registry := kept.registry, hookDone := kept.hookDone }

theorem Component.eq_of_wiring {left right : Component} (same : left.wiring = right.wiring)
    (registry : left.registry = right.registry) (complete : left.complete = right.complete)
    (hookDone : left.hookDone = right.hookDone) (deferred : left.deferred = right.deferred) : left = right := by
  have restored (node : Component) : node = { node.wiring with
      registry := node.registry, complete := node.complete, hookDone := node.hookDone, deferred := node.deferred } :=
    rfl
  rw [restored left, restored right, same, registry, complete, hookDone, deferred]

theorem Socket.eq_of_wiring {left right : Socket} (same : left.wiring = right.wiring)
    (space : left.space = right.space) : left = right := by
  have restored (socket : Socket) : socket = { socket.wiring with space := socket.space } := rfl
  rw [restored left, restored right, same, space]

namespace Graph

/-- Graphs of the same wiring are the same if their variables and marks are. -/
theorem eq_of_wiring {left right : Graph} (wired : left.wiring = right.wiring) (backend : left.backend = right.backend)
    (component : ∀ id node other, left.component? id = some node → right.component? id = some other → node = other)
    (socket : ∀ id socket other, left.socket? id = some socket → right.socket? id = some other → socket = other) :
    left = right := by
  have computations : left.wiring.computations = right.wiring.computations := by rw [wired]
  refine ext_parts backend (fun id => ?_) (fun id => ?_) computations
  · cases found : left.component? id with
    | none =>
        cases otherFound : right.component? id with
        | none => rfl
        | some other =>
            rcases component?_of_wiring wired.symm otherFound with ⟨node, known, -⟩
            cases found.symm.trans known
    | some node =>
        rcases component?_of_wiring wired found with ⟨other, otherFound, -⟩
        rw [otherFound, component id node other found otherFound]
  · cases found : left.socket? id with
    | none =>
        cases otherFound : right.socket? id with
        | none => rfl
        | some other =>
            rcases socket?_of_wiring wired.symm otherFound with ⟨known, held, -⟩
            cases found.symm.trans held
    | some known =>
        rcases socket?_of_wiring wired found with ⟨other, otherFound, -⟩
        rw [otherFound, socket id known other found otherFound]

/-- The graph with the variables of another one, and the marks of its hooks. -/
def withVariablesOf (graph kept : Graph) : Graph :=
  { graph with
    backend := kept.backend
    components := graph.components.mapIdx fun position node =>
      node.withVariablesOf (kept.components[position]?.getD node) }

variable {graph kept later : Graph}

theorem component?_withVariablesOf (graph kept : Graph) (id : ComponentId) :
    (graph.withVariablesOf kept).component? id =
      (graph.component? id).map fun node => node.withVariablesOf ((kept.component? id).getD node) :=
  Array.getElem?_mapIdx

theorem component?_withVariablesOf_some {id : ComponentId} {node old : Component}
    (found : graph.component? id = some node) (known : kept.component? id = some old) :
    (graph.withVariablesOf kept).component? id = some (node.withVariablesOf old) := by
  rw [component?_withVariablesOf, found, known]
  rfl

theorem wiring_withVariablesOf (same : kept.wiring = graph.wiring) :
    (graph.withVariablesOf kept).wiring = graph.wiring := by
  have backends : kept.wiring.backend = graph.wiring.backend := by rw [same]
  refine ext_parts backends (fun id => ?_) (fun _ => rfl) rfl
  rw [component?_wiring, component?_wiring, component?_withVariablesOf, Option.map_map]
  rfl

theorem withVariablesOf_self (graph : Graph) : graph.withVariablesOf graph = graph := by
  refine ext_parts rfl (fun id => ?_) (fun _ => rfl) rfl
  rw [component?_withVariablesOf]
  cases graph.component? id with
  | none => rfl
  | some node => rfl

/-- An edit that does not concern variables. -/
theorem changeComponent_withVariablesOf {id : ComponentId} {node old : Component}
    (found : graph.component? id = some node) (known : kept.component? id = some old)
    (change : Component → Component)
    (same : (change node).withVariablesOf old = change (node.withVariablesOf old)) :
    (graph.withVariablesOf kept).changeComponent id change = (graph.changeComponent id change).withVariablesOf kept := by
  refine ext_parts rfl (fun other => ?_) (fun _ => rfl) rfl
  rw [component?_changeComponent, component?_withVariablesOf, component?_withVariablesOf, component?_changeComponent]
  split
  · next isOther =>
      subst isOther
      rw [found, known]
      exact congrArg some same.symm
  · rfl

/-- Variables that are registered meanwhile do not count. -/
theorem Registers.withVariablesOf {own : ComponentId} (registers : Registers own graph later) {old : Component}
    (known : kept.component? own = some old) : later.withVariablesOf kept = graph.withVariablesOf kept := by
  obtain ⟨store, change, rfl⟩ := registers
  refine ext_parts rfl (fun other => ?_) (fun _ => rfl) rfl
  rw [component?_withVariablesOf, component?_withVariablesOf, component?_changeComponent]
  split
  · next isOwn =>
      subst isOwn
      rw [known]
      show Option.map _ ((graph.component? own).map _) = Option.map _ (graph.component? own)
      cases graph.component? own with
      | none => rfl
      | some node => rfl
  · rfl

/-! ### Complete components -/

/-- Components that are complete stay so, with their variables and the marks of their hooks. -/
def VariablesStay (before later : Graph) : Prop :=
  ∀ id node, before.component? id = some node → node.complete = true →
    ∃ new, later.component? id = some new ∧ new.complete = true ∧ new.registry = node.registry ∧
      new.hookDone = node.hookDone

instance : IsPreorder Graph VariablesStay where
  refl _ id node found complete := ⟨node, found, complete, rfl, rfl⟩
  trans _ _ _ first second id node found complete := by
    rcases first id node found complete with ⟨middle, middleFound, middleComplete, registry, hookDone⟩
    rcases second id middle middleFound middleComplete with ⟨new, newFound, newComplete, registryToo, hookDoneToo⟩
    exact ⟨new, newFound, newComplete, registryToo.trans registry, hookDoneToo.trans hookDone⟩

theorem VariablesStay.changeComponent {id : ComponentId} {change : Component → Component}
    (stays : ∀ node, graph.component? id = some node → node.complete = true → (change node).complete = true ∧
      (change node).registry = node.registry ∧ (change node).hookDone = node.hookDone) :
    VariablesStay graph (graph.changeComponent id change) := by
  intro other node found complete
  rw [component?_changeComponent]
  split
  · next isOther =>
      subst isOther
      exact ⟨change node, by rw [found]; rfl, stays node found complete⟩
  · exact ⟨node, found, complete, rfl, rfl⟩

/-- Hooks leave other components alone. -/
theorem Registers.component?_of_ne {own : ComponentId} (registers : Registers own graph later)
    {other : ComponentId} (apart : other ≠ own) {node : Component} (found : graph.component? other = some node) :
    later.component? other = some node := by
  obtain ⟨store, change, rfl⟩ := registers
  rw [component?_changeComponent, if_neg (Ne.symm apart)]
  exact found

theorem Registers.component?_own {own : ComponentId} (registers : Registers own graph later) {node : Component}
    (found : graph.component? own = some node) : ∃ registry, later.component? own = some { node with registry } := by
  obtain ⟨store, change, rfl⟩ := registers
  refine ⟨change node.registry, ?_⟩
  rw [component?_changeComponent, if_pos rfl]
  exact congrArg (Option.map (withRegistry change)) found

section Ready

variable {id : ComponentId} {node : Component} (found : graph.component? id = some node)
  (registers : Registers id (graph.changeComponent id Component.markComplete) later)
include found registers

/-- A component that has become complete, with the variables that its hook has registered. -/
theorem Registers.component?_ready : ∃ registry, (later.changeComponent id Component.markReady).component? id =
    some { node.markComplete with registry }.markReady := by
  have marked : (graph.changeComponent id Component.markComplete).component? id = some node.markComplete := by
    rw [component?_changeComponent, if_pos rfl, found]
    rfl
  rcases registers.component?_own marked with ⟨registry, newFound⟩
  refine ⟨registry, ?_⟩
  rw [component?_changeComponent, if_pos rfl, newFound]
  rfl

theorem Registers.variablesStay_ready (incomplete : node.complete = false) :
    VariablesStay graph (later.changeComponent id Component.markReady) := by
  intro other otherNode otherFound complete
  have apart : other ≠ id := by
    rintro rfl
    obtain rfl := Option.some.inj (found.symm.trans otherFound)
    rw [incomplete] at complete
    cases complete
  have marked : (graph.changeComponent id Component.markComplete).component? other = some otherNode := by
    rw [component?_changeComponent, if_neg (Ne.symm apart)]
    exact otherFound
  refine ⟨otherNode, ?_, complete, rfl, rfl⟩
  rw [component?_changeComponent, if_neg (Ne.symm apart)]
  exact registers.component?_of_ne apart marked

/-- With the variables and the mark of the hook there from the beginning, the component ends up the same. -/
theorem Registers.withVariablesOf_ready {old : Component} (known : kept.component? id = some old)
    (done : old.hookDone = true) :
    ((graph.withVariablesOf kept).changeComponent id Component.markComplete).changeComponent id Component.markReady =
      (later.changeComponent id Component.markReady).withVariablesOf kept := by
  have marked : (graph.changeComponent id Component.markComplete).component? id = some node.markComplete := by
    rw [component?_changeComponent, if_pos rfl, found]
    rfl
  rcases registers.component?_own marked with ⟨registry, newFound⟩
  have ready : Component.withVariablesOf { node.markComplete with registry }.markReady old =
      (Component.withVariablesOf { node.markComplete with registry } old).markReady := by
    unfold Component.withVariablesOf Component.markReady
    rw [done]
  rw [changeComponent_withVariablesOf found known Component.markComplete rfl, ← registers.withVariablesOf known,
    changeComponent_withVariablesOf newFound known Component.markReady ready]

end Ready

end Graph

end Wiring
