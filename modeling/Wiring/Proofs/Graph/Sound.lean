import Wiring.Proofs.Graph.Sound.Computations
import Wiring.Proofs.Graph.Sound.Links
import Wiring.Proofs.Graph.Sound.Tree
import Wiring.Proofs.Graph.Sound.Waiting
import Wiring.Proofs.Reachability

/-!
Contract: the invariant of reachable graphs.

Owns: `Sound`, which joins the invariants of sockets, trees, computations, links and waiting sockets; that all changes preserve
it, so that every reachable graph has it; and what it says about the numbers of entries in connection lists.
-/

namespace Wiring.Graph

structure Sound (graph : Graph) : Prop where
  sockets : SocketsSound graph
  tree : TreeSound graph
  computations : ComputationsSound graph
  links : LinksSound graph
  waiting : WaitingSound graph

theorem Sound.empty (backend : Backend) : Sound { backend } where
  sockets := .empty backend
  tree := .empty backend
  computations := .empty backend
  links := .empty backend
  waiting := .empty backend

theorem Sound.change {graph later : Graph} (change : Change graph later) (sound : Sound graph) : Sound later where
  sockets := sound.sockets.change change
  tree := sound.tree.change change
  computations := sound.computations.change change sound.sockets
  links := sound.links.change change
  waiting := sound.waiting.change change sound.sockets sound.computations

theorem Sound.changes {graph later : Graph} (changes : Changes graph later) (sound : Sound graph) :
    Sound later := by
  induction changes with
  | refl => exact sound
  | tail _ last inductionHypothesis => exact inductionHypothesis.change last

theorem Reachable.sound {graph : Graph} (reachable : graph.Reachable) : Sound graph :=
  reachable.of_changes Sound.empty Sound.change

/-! ### Numbers of entries -/

namespace Sound

variable {graph : Graph}

/-- The readers of a socket belong to its owner and are computations of the graph. -/
theorem reader (sound : Sound graph) {socket : SocketId} {held : Socket} (found : graph.socket? socket = some held)
    {id : ComputationId} (reads : .computation id ∈ held.outgoing) :
    ∃ computation, graph.computation? id = some computation ∧ computation.owner = held.owner := by
  rcases sound.sockets.owner socket held found with ⟨node, nodeFound⟩
  have listed : id ∈ held.tasks.readers := mem_computationEntries.mpr reads
  rw [sound.computations.readers socket held node found nodeFound] at listed
  exact (sound.computations.works held.owner node nodeFound).listed id (mem_occurrences listed).1

/-- The computations without inputs belong to their component. -/
theorem source (sound : Sound graph) {owner : ComponentId} {node : Component}
    (found : graph.component? owner = some node) {id : ComputationId} (listed : id ∈ node.sources) :
    ∃ computation, graph.computation? id = some computation ∧ computation.owner = owner := by
  have works := sound.computations.works owner node found
  rw [works.sources] at listed
  exact works.listed id (List.mem_filter.mp listed).1

/-- There are no links within a component. -/
theorem count_targets_eq_zero (sound : Sound graph) {first second : SocketId} {left right : Socket}
    (firstHeld : graph.socket? first = some left) (secondHeld : graph.socket? second = some right)
    (together : left.owner = right.owner) : (socketEntries left.outgoing).count second = 0 := by
  refine List.count_eq_zero_of_not_mem fun member => ?_
  obtain ⟨other, otherHeld, apart⟩ := sound.links.targets first left firstHeld second member
  obtain rfl := Option.some.inj (secondHeld.symm.trans otherHeld)
  exact apart together.symm

/-- A list of all computations of a component counts each as often as it occurs at a socket. -/
theorem count_occurrences (sound : Sound graph) {ends : ComputationId → List SocketId} {id : SocketId}
    {socket : Socket} {node : Component} (found : graph.component? socket.owner = some node)
    (computation : ComputationId)
    (owned : id ∈ ends computation → ∃ bound, graph.computation? computation = some bound ∧
      bound.owner = socket.owner) :
    (occurrences ends id node.computations).count computation = (ends computation).count id := by
  by_cases listed : computation ∈ node.computations
  · exact Graph.count_occurrences (sound.computations.works _ node found).once listed
  · have absent : id ∉ ends computation := by
      intro member
      obtain ⟨bound, boundFound, same⟩ := owned member
      obtain ⟨other, _, otherFound, otherListed, -⟩ := (sound.computations.bound _ bound boundFound).node
      rw [same] at otherFound
      obtain rfl := Option.some.inj (found.symm.trans otherFound)
      exact listed otherListed
    rw [List.count_eq_zero_of_not_mem absent]
    exact List.count_eq_zero_of_not_mem fun member => listed (mem_occurrences member).1

theorem count_readers (sound : Sound graph) {id : SocketId} {socket : Socket}
    (held : graph.socket? id = some socket) (computation : ComputationId) :
    (computationEntries socket.outgoing).count computation = (graph.inputsOf computation).count id := by
  obtain ⟨node, found⟩ := sound.sockets.owner id socket held
  have readers := sound.computations.readers id socket node held found
  rw [show computationEntries socket.outgoing = socket.tasks.readers from rfl, readers]
  refine sound.count_occurrences found computation fun member => ?_
  cases known : graph.computation? computation with
  | none => simp [inputsOf, known] at member
  | some bound =>
      rw [ComputationsSound.inputsOf_eq known] at member
      obtain ⟨other, otherHeld, owned⟩ := (sound.computations.bound _ bound known).inputs id member
      obtain rfl := Option.some.inj (held.symm.trans otherHeld)
      exact ⟨bound, rfl, owned.symm⟩

theorem count_writers (sound : Sound graph) {id : SocketId} {socket : Socket}
    (held : graph.socket? id = some socket) (computation : ComputationId) :
    (computationEntries socket.incoming).count computation = (graph.outputsOf computation).count id := by
  obtain ⟨node, found⟩ := sound.sockets.owner id socket held
  have writers := sound.computations.writers id socket node held found
  rw [show computationEntries socket.incoming = socket.tasks.writers from rfl, writers]
  refine sound.count_occurrences found computation fun member => ?_
  cases known : graph.computation? computation with
  | none => simp [outputsOf, known] at member
  | some bound =>
      rw [ComputationsSound.outputsOf_eq known] at member
      obtain ⟨other, otherHeld, owned⟩ := (sound.computations.bound _ bound known).outputs id member
      obtain rfl := Option.some.inj (held.symm.trans otherHeld)
      exact ⟨bound, rfl, owned.symm⟩

end Sound

/-- In a reachable graph a link has as many entries at its source as at its target, and none within a
component; a computation has as many entries at a socket as it reads or writes it, and only at sockets of its
component; and spaces are bound only to feed in-sockets or to be fed by out-sockets. -/
theorem Reachable.entries_agree {graph : Graph} (reachable : graph.Reachable) :
    (∀ first second (left right : Socket), graph.socket? first = some left → graph.socket? second = some right →
      (socketEntries left.outgoing).count second = (socketEntries right.incoming).count first ∧
      (left.owner = right.owner → (socketEntries left.outgoing).count second = 0)) ∧
    (∀ id socket, graph.socket? id = some socket → ∀ computation,
      (computationEntries socket.outgoing).count computation = (graph.inputsOf computation).count id ∧
      (computationEntries socket.incoming).count computation = (graph.outputsOf computation).count id) ∧
    (∀ id computation, graph.computation? id = some computation →
      ∀ socket ∈ computation.inputs ++ computation.outputs,
        ∃ held, graph.socket? socket = some held ∧ held.owner = computation.owner) ∧
    (∀ id socket, graph.socket? id = some socket →
      (spaceEntries socket.incoming ≠ [] → socket.side = .input) ∧
      (spaceEntries socket.outgoing ≠ [] → socket.side = .output)) := by
  have sound := reachable.sound
  refine ⟨?_, ?_, ?_, ?_⟩
  · intro first second left right firstHeld secondHeld
    exact ⟨sound.links.counted first second left right firstHeld secondHeld,
      sound.count_targets_eq_zero firstHeld secondHeld⟩
  · intro id socket held computation
    exact ⟨sound.count_readers held computation, sound.count_writers held computation⟩
  · intro id computation found socket member
    have bound := sound.computations.bound id computation found
    rcases List.mem_append.mp member with input | output
    · exact bound.inputs socket input
    · exact bound.outputs socket output
  · intro id socket held
    constructor
    · intro bound
      obtain ⟨space, member⟩ := List.exists_mem_of_ne_nil _ bound
      exact sound.links.fed id socket held space member
    · intro bound
      obtain ⟨space, member⟩ := List.exists_mem_of_ne_nil _ bound
      exact sound.links.feeding id socket held space member

/-- A component whose computation writes the out-socket twice, which is linked twice to another component. -/
def doubled : GraphM Unit := do
  let source ← create { scope := "source" }
  let _ ← addSockets source ["in"] (some .input) false
  let _ ← addSockets source ["out"] (some .output) false
  register source { name := "emit", inputs := 1, outputs := 2, run := fun _ given => return given ++ given }
  let _ ← compute source ["in"] ["out", "out"] none {}
  let sink ← create { scope := "sink" }
  let _ ← addSockets sink ["in"] (some .input) false
  connect source (.socket (.named "out")) (.component sink)
  connect source (.socket (.named "out")) (.component sink)

theorem keeps_doubled : Keeps Reaches doubled := by
  refine Keeps.bind (Reaches.create _) fun source => ?_
  refine Keeps.bind (Reaches.addSockets source _ _ _) fun _ => ?_
  refine Keeps.bind (Reaches.addSockets source _ _ _) fun _ => ?_
  refine Keeps.bind (Reaches.register source _) fun _ => ?_
  refine Keeps.bind (Reaches.compute source _ _ _ _) fun _ => ?_
  refine Keeps.bind (Reaches.create _) fun sink => ?_
  refine Keeps.bind (Reaches.addSockets sink _ _ _) fun _ => ?_
  refine Keeps.bind (Reaches.connect source _ _) fun _ => ?_
  exact Reaches.connect source _ _

theorem reachable_doubled : (after doubled {}).Reachable :=
  (reachable_empty {}).reaches (keeps_doubled {})

theorem entries_agree_doubled :
    ∃ out sink, (after doubled {}).socket? ⟨1⟩ = some out ∧ (after doubled {}).socket? ⟨2⟩ = some sink ∧
      (socketEntries out.outgoing).count ⟨2⟩ = 2 ∧ (socketEntries sink.incoming).count ⟨1⟩ = 2 ∧
      (computationEntries out.incoming).count ⟨0⟩ = 2 := by
  obtain ⟨links, computations, -⟩ := Reachable.entries_agree reachable_doubled
  refine ⟨_, _, rfl, rfl, rfl, ?_, ?_⟩
  · rw [← (links ⟨1⟩ ⟨2⟩ _ _ rfl rfl).1]
    rfl
  · rw [(computations ⟨1⟩ _ rfl ⟨0⟩).2]
    rfl

end Wiring.Graph
