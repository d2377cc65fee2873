import Wiring.Proofs.Blueprint.Feeding
import Wiring.Proofs.Graph.Disconnecting
import Wiring.Proofs.Graph.Placed

/-!
Contract: spaces bound to several sockets of a component, by their names.

Owns: what such a series of bindings leaves, that its order makes no difference, and that it is the same in a part of a
graph and in the whole.

Does not own: other connections.
-/

namespace Wiring

namespace Graph

/-- Binds to each of the named sockets the space that is meant for it. -/
def bindEach (owner : ComponentId) (spaceOf : String → Space) (names : List String) : GraphM Unit :=
  bindSpaces owner (names.map fun name => (name, spaceOf name))

/-- The component finds this in-socket under the name. -/
structure Input (graph : Graph) (owner : ComponentId) (name : String) (id : SocketId) : Prop where
  resolved : graph.resolve owner (.named name) none = .ok id
  side : ∃ socket, graph.socket? id = some socket ∧ socket.side = .input

variable {graph : Graph} {owner : ComponentId} {name : String} {id : SocketId}

theorem Input.run_connect (input : graph.Input owner name id) (space : Space) :
    (connect owner (.space space) (.socket (.named name))).run graph =
      (.ok ⟨⟩, graph.withEntry ⟨id, true, .space space⟩) := by
  rcases input.side with ⟨socket, held, side⟩
  exact run_connect_input input.resolved held side space

/-- Entries in connection lists do not change what is found. -/
theorem Input.withEntry (input : graph.Input owner name id) (entry : LinkEntry) :
    (graph.withEntry entry).Input owner name id where
  resolved := ((sameFaces_withEntry graph entry).resolve_eq owner (.named name) none).trans input.resolved
  side := by
    rcases input.side with ⟨socket, held, side⟩
    rw [socket?_withEntry, held]
    split
    · refine ⟨_, rfl, ?_⟩
      unfold LinkEntry.setList
      split <;> exact side
    · exact ⟨socket, rfl, side⟩

theorem SameFaces.trans {first second third : Graph} (left : SameFaces first second) (right : SameFaces second third) :
    SameFaces first third :=
  ⟨left.components.trans right.components, fun id => (left.faces id).trans (right.faces id)⟩

theorem SameFaces.subtree_eq {left right : Graph} (same : SameFaces left right) (id : ComponentId) :
    left.subtree id = right.subtree id := by
  have descends (fuel : Nat) (waiting : List ComponentId) : left.descend fuel waiting = right.descend fuel waiting := by
    induction fuel generalizing waiting with
    | zero => cases waiting <;> rfl
    | succ fuel inductionHypothesis =>
        cases waiting with
        | nil => rfl
        | cons id waiting => simp only [descend, same.heldComponent_eq, inductionHypothesis]
  unfold subtree
  rw [same.component_eq, same.components, descends]

/-- The entry that binds the space of a name. -/
def bindingOf (spaceOf : String → Space) (socketOf : String → SocketId) (name : String) : LinkEntry :=
  ⟨socketOf name, true, .space (spaceOf name)⟩

theorem run_bindEach {socketOf : String → SocketId} {names : List String}
    (inputs : ∀ name ∈ names, graph.Input owner name (socketOf name)) (spaceOf : String → Space) :
    (bindEach owner spaceOf names).run graph =
      (.ok ⟨⟩, (names.map (bindingOf spaceOf socketOf)).foldl Graph.withEntry graph) := by
  induction names generalizing graph with
  | nil => rfl
  | cons first rest inductionHypothesis =>
      have bound := (inputs first List.mem_cons_self).run_connect (spaceOf first)
      have inputsAfter : ∀ name ∈ rest,
          (graph.withEntry (bindingOf spaceOf socketOf first)).Input owner name (socketOf name) :=
        fun name listed => (inputs name (List.mem_cons_of_mem first listed)).withEntry _
      unfold bindEach bindSpaces
      rw [List.map_cons, forM_cons, run_bind_ok bound]
      exact inductionHypothesis inputsAfter

/-- Only connection lists are longer. -/
theorem sameFaces_bindEach {socketOf : String → SocketId} {names : List String}
    (inputs : ∀ name ∈ names, graph.Input owner name (socketOf name)) (spaceOf : String → Space) :
    SameFaces (after (bindEach owner spaceOf names) graph) graph := by
  rw [after_of_run (run_bindEach inputs spaceOf)]
  generalize names.map (bindingOf spaceOf socketOf) = entries
  clear inputs
  induction entries generalizing graph with
  | nil => exact ⟨rfl, fun _ => rfl⟩
  | cons entry rest inductionHypothesis => exact (inductionHypothesis).trans (sameFaces_withEntry graph entry)

theorem withEntry_comm (graph : Graph) {first second : LinkEntry} (apart : first.socket ≠ second.socket) :
    (graph.withEntry first).withEntry second = (graph.withEntry second).withEntry first := by
  have positions : first.socket.index ≠ second.socket.index := fun same => apart (congrArg SocketId.mk same)
  unfold Graph.withEntry changeSocket
  refine congrArg (fun sockets => { graph with sockets }) (Array.ext' ?_)
  rw [Array.toList_modify, Array.toList_modify, Array.toList_modify, Array.toList_modify]
  exact List.modify_modify_ne _ _ _ positions

/-- Spaces for different sockets may be bound in any order. -/
theorem run_bindEach_perm {socketOf : String → SocketId} {names order : List String} (permutation : order.Perm names)
    (inputs : ∀ name ∈ names, graph.Input owner name (socketOf name))
    (apart : ∀ one ∈ names, ∀ other ∈ names, socketOf one = socketOf other → one = other) (spaceOf : String → Space) :
    (bindEach owner spaceOf order).run graph = (bindEach owner spaceOf names).run graph := by
  rw [run_bindEach inputs, run_bindEach fun name listed => inputs name (permutation.mem_iff.mp listed)]
  refine congrArg (Prod.mk _) ((permutation.map _).foldl_eq' (fun entry listed other otherListed graph => ?_) graph)
  rcases List.mem_map.mp listed with ⟨one, oneListed, rfl⟩
  rcases List.mem_map.mp otherListed with ⟨another, anotherListed, rfl⟩
  by_cases same : socketOf one = socketOf another
  · rw [apart one (permutation.mem_iff.mp oneListed) another (permutation.mem_iff.mp anotherListed) same]
  · exact withEntry_comm graph same

end Graph

namespace Placement

variable {place : Placement} {part whole : Graph}

/-- Each space of the part stands for the one that is bound in the whole. -/
theorem follows_bindEach (holds : place.Holds part whole) (owner : ComponentId) {spaceOf spaceOfToo : String → Space}
    {names : List String} (stands : ∀ name ∈ names, place.space (spaceOf name) = spaceOfToo name) :
    Follows place.Holds (Any Unit Unit) (Graph.bindEach owner spaceOf names)
      (Graph.bindEach (place.component owner) spaceOfToo names) part whole := by
  have listed : List.Forall₂ (fun entry same => same = (entry.1, place.space entry.2))
      (names.map fun name => (name, spaceOf name)) (names.map fun name => (name, spaceOfToo name)) := by
    rw [List.forall₂_map_left_iff, List.forall₂_map_right_iff]
    exact List.forall₂_same.mpr fun name member => Prod.ext rfl (stands name member).symm
  refine .forM listed (fun entry same part whole stands holds => ?_) holds
  rw [stands]
  exact follows_connect holds owner (.space entry.2) (.socket (.named entry.1))

end Placement

end Wiring
