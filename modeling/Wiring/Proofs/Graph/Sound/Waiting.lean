import Wiring.Proofs.Graph.Sound.Computations

/-!
Contract: the sockets whose computations wait for a component.

Owns: that no change takes a socket or a reader away from it; and `WaitingSound`, by which only sockets of a
component itself wait for it, also after a build that failed; and that every change preserves it.
-/

namespace Wiring.Graph

variable {graph later : Graph}

/-! ### What no change takes away -/

theorem socket_stays_of_tasks {id : SocketId} {socket : Socket} (held : graph.socket? id = some socket)
    (same : (later.socket? id).map Socket.tasks = (graph.socket? id).map Socket.tasks) :
    ∃ new, later.socket? id = some new ∧ new.owner = socket.owner ∧
      ∀ computation ∈ socket.tasks.readers, computation ∈ new.tasks.readers := by
  rcases exists_of_map_eq same.symm held with ⟨new, newHeld, tasks⟩
  exact ⟨new, newHeld, (Socket.owner_of_tasks tasks).symm, fun computation reads => tasks ▸ reads⟩

/-- A socket keeps its owner and its readers. -/
theorem Change.socket_stays (change : Change graph later) {id : SocketId} {socket : Socket}
    (held : graph.socket? id = some socket) :
    ∃ new, later.socket? id = some new ∧ new.owner = socket.owner ∧
      ∀ computation ∈ socket.tasks.readers, computation ∈ new.tasks.readers := by
  cases change with
  | create config scope => exact socket_stays_of_tasks held rfl
  | socket owner internal name side node found fresh =>
      refine socket_stays_of_tasks held ?_
      rw [socket?_withSocket_of_some held, held]
  | link source target =>
      exact socket_stays_of_tasks held
        ((ComputationsSound.tasks_withEntry rfl _ id).trans (ComputationsSound.tasks_withEntry rfl graph id))
  | unlink source target =>
      exact socket_stays_of_tasks held
        ((ComputationsSound.tasks_withoutEntry rfl _ id).trans (ComputationsSound.tasks_withoutEntry rfl graph id))
  | bind => exact socket_stays_of_tasks held (ComputationsSound.tasks_withEntry rfl graph id)
  | unbind => exact socket_stays_of_tasks held (ComputationsSound.tasks_withoutEntry rfl graph id)
  | method id method node found fresh => exact socket_stays_of_tasks held rfl
  | computation computation node method found chosen arity inputs outputs =>
      rw [socket?_withComputation, held]
      refine ⟨_, rfl, rfl, fun other reads => ?_⟩
      show other ∈ computationEntries _
      rw [computationEntries_append]
      exact List.mem_append_left _ reads
  | child parent child parentNode childNode => exact socket_stays_of_tasks held rfl
  | hook id hook => exact socket_stays_of_tasks held rfl
  | state final same waiting => exact socket_stays_of_tasks held (view_of_wiring (fun _ => rfl) same id)

theorem Change.feeds (change : Change graph later) {socket : SocketId} {computation : ComputationId}
    (feeds : graph.Feeds socket computation) : later.Feeds socket computation := by
  rcases feeds with ⟨held, found, reads⟩
  rcases change.socket_stays found with ⟨new, newFound, -, keeps⟩
  exact ⟨new, newFound, mem_computationEntries.mp (keeps computation (mem_computationEntries.mpr reads))⟩

theorem Changes.feeds (changes : Changes graph later) {socket : SocketId} {computation : ComputationId}
    (feeds : graph.Feeds socket computation) : later.Feeds socket computation := by
  induction changes with
  | refl => exact feeds
  | tail _ last inductionHypothesis => exact last.feeds inductionHypothesis

/-! ### Waiting sockets -/

/-- The readers of a socket belong to the component that owns the socket. -/
theorem ComputationsSound.owner_of_feeds (sockets : SocketsSound graph) (sound : ComputationsSound graph)
    {socket : SocketId} {held : Socket} {id : ComputationId} {computation : Computation}
    (found : graph.socket? socket = some held) (reads : .computation id ∈ held.outgoing)
    (known : graph.computation? id = some computation) : computation.owner = held.owner := by
  rcases sockets.owner socket held found with ⟨node, nodeFound⟩
  have listed : id ∈ held.tasks.readers := mem_computationEntries.mpr reads
  rw [sound.readers socket held node found nodeFound] at listed
  rcases (sound.works held.owner node nodeFound).listed id (mem_occurrences listed).1 with ⟨other, otherKnown, owned⟩
  obtain rfl := Option.some.inj (known.symm.trans otherKnown)
  exact owned

/-- A view that a change keeps does not make sockets wait. -/
theorem deferredOf_of_view {owner : ComponentId}
    (same : (later.component? owner).map Component.deferred = (graph.component? owner).map Component.deferred)
    {socket : SocketId} (waits : socket ∈ later.deferredOf owner) : socket ∈ graph.deferredOf owner := by
  rw [deferredOf, same] at waits
  exact waits

/-- Only a build makes sockets wait, and only sockets with a reader of the component. -/
theorem Change.waiting (change : Change graph later) {owner : ComponentId} {socket : SocketId}
    (waits : socket ∈ later.deferredOf owner) : socket ∈ graph.deferredOf owner ∨ graph.MayWait owner socket := by
  cases change with
  | create config scope =>
      rw [deferredOf, component?_pushComponent] at waits
      by_cases new : owner = graph.nextComponent
      · rw [if_pos new] at waits
        cases waits
      · rw [if_neg new] at waits
        exact .inl waits
  | socket other internal name side node found fresh =>
      have deferred (node : Component) : (node.enlist internal side graph.nextSocket).deferred = node.deferred := by
        unfold Component.enlist
        cases internal <;> cases side <;> rfl
      have same := componentView_changeComponent (graph.pushSocket { name, side, internal, owner := other }) other
        (Component.enlist internal side graph.nextSocket) deferred owner
      exact .inl (deferredOf_of_view same waits)
  | link source target => exact .inl waits
  | unlink source target => exact .inl waits
  | bind => exact .inl waits
  | unbind => exact .inl waits
  | method id method node found fresh =>
      exact .inl (deferredOf_of_view
        (componentView_changeComponent graph id (Component.addMethod method) (fun _ => rfl) owner) waits)
  | computation computation node method found chosen arity inputs outputs =>
      exact .inl (deferredOf_of_view (componentView_withComputation graph (fun _ _ _ => rfl) computation owner) waits)
  | child parent child parentNode childNode =>
      exact .inl (deferredOf_of_view
        (componentView_withChild graph (fun _ _ _ _ => rfl) parent child childNode.name owner) waits)
  | hook id hook =>
      exact .inl (deferredOf_of_view
        (componentView_changeComponent graph id (Component.withHook hook) (fun _ => rfl) owner) waits)
  | state final same waiting => exact waiting owner socket waits

/-- A socket waits only for the component that owns it. -/
def WaitingSound (graph : Graph) : Prop :=
  ∀ owner, ∀ socket ∈ graph.deferredOf owner, ∃ held, graph.socket? socket = some held ∧ held.owner = owner

theorem WaitingSound.empty (backend : Backend) : WaitingSound { backend } := by
  simp [WaitingSound, deferredOf, component?]

/-- Every change preserves that sockets wait for their own components. -/
theorem WaitingSound.change (change : Change graph later) (sockets : SocketsSound graph)
    (computations : ComputationsSound graph) (sound : WaitingSound graph) : WaitingSound later := by
  intro owner socket waits
  have before : ∃ held, graph.socket? socket = some held ∧ held.owner = owner := by
    rcases change.waiting waits with known | ⟨id, computation, ⟨held, found, reads⟩, bound, owned⟩
    · exact sound owner socket known
    · exact ⟨held, found, (computations.owner_of_feeds sockets found reads bound).symm.trans owned⟩
  rcases before with ⟨held, found, owned⟩
  rcases change.socket_stays found with ⟨new, newFound, same, -⟩
  exact ⟨new, newFound, same.trans owned⟩

end Wiring.Graph
