import Mathlib.Order.Bounds.Basic
import Wiring.Proofs.Build.Bounds
import Wiring.Proofs.Build.Closure
import Wiring.Proofs.Build.Confined

/-!
Contract: how far a build gets, whatever its methods return.

Owns: `Spreads`, the rules by which sockets are fed and components become complete, which know no order;
`Faithful`, by which nothing happens in a build that the rules do not give; and that a build which returns a
report has fed and completed what is in the least solution of the rules, and nothing else.

Does not own: how the rules bear on graphs that differ in the order of their parts.
-/

namespace Wiring.Build

/-- A solution of the rules for a subtree: sockets that are fed, and components that are complete. -/
structure Spreads (graph : Graph) (members : List ComponentId) (reach : Set SocketId × Set ComponentId) : Prop where
  bound : ∀ socket held space, graph.socket? socket = some held → held.owner ∈ members →
    .space space ∈ held.incoming → socket ∈ reach.1
  linked : ∀ source target held, graph.socket? source = some held → held.owner ∈ members → source ∈ reach.1 →
    .socket target ∈ held.outgoing → Inside graph members target → target ∈ reach.1
  computed : ∀ id computation, graph.computation? id = some computation → computation.owner ∈ members →
    computation.owner ∈ reach.2 → (∀ input ∈ computation.inputs, input ∈ reach.1) →
    ∀ output ∈ computation.outputs, output ∈ reach.1
  complete : ∀ id node, graph.component? id = some node → id ∈ members →
    (∀ input ∈ node.inputs, input ∈ reach.1) → id ∈ reach.2

variable {graph : Graph} {members : List ComponentId} {base : List (ComputationId × List OpId)} {book final : Book}
  {task : Task} {waiting more : List Task} {reach : Set SocketId × Set ComponentId}

/-! ### Nothing but what the rules give -/

/-- An op that a task sends to a socket has reason to come there. -/
def Headed (reach : Set SocketId × Set ComponentId) : Task → Prop
  | .place _ socket _ | .deliver socket _ => socket ∈ reach.1
  | _ => True

structure Grounded (members : List ComponentId) (reach : Set SocketId × Set ComponentId) (tasks : List Task)
    (book : Book) : Prop where
  tasks : ∀ task ∈ tasks, Headed reach task
  arrivals : ∀ arrival ∈ book.arrivals, arrival.socket ∈ reach.1
  complete : ∀ id ∈ members, book.complete id = true → id ∈ reach.2

namespace Grounded

theorem start (fresh : book.Fresh graph members) : Grounded members reach (initialTasks members) book where
  tasks task member := by
    rcases mem_initialTasks member with ⟨id, -, rfl⟩ | ⟨id, -, rfl⟩
    · trivial
    · trivial
  arrivals := by simp [fresh.arrivals]
  complete id member complete := by
    rw [fresh.complete id member] at complete
    cases complete

theorem mem_of_opsAt (grounded : Grounded members reach waiting book) {socket : SocketId} {op : DataOp}
    (member : op ∈ book.opsAt socket) : socket ∈ reach.1 :=
  grounded.arrivals _ (Book.mem_opsAt.mp member)

section Step

variable (grounded : Grounded members reach (task :: waiting) book) (step : Step graph task book more final)
include grounded step

theorem step_tasks (spreads : Spreads graph members reach) (linked : LinkedInside graph members)
    (confined : Confined graph members (task :: waiting) book) (sourced : Sourced graph base (task :: waiting) book) :
    ∀ new ∈ more, Headed reach new := by
  have concerns := confined.tasks task List.mem_cons_self
  have carries := sourced.tasks task List.mem_cons_self
  have headed := grounded.tasks task List.mem_cons_self
  intro new member
  cases new with
  | place id socket space =>
      rcases step.gives_place member with ⟨rfl, held, found, entered⟩
      rcases concerns with ⟨other, otherFound, isMember⟩
      obtain rfl := Option.some.inj (found.symm.trans otherFound)
      exact spreads.bound socket held space found isMember entered
  | deliver socket op =>
      rcases step.gives_deliver member with ⟨id, space, rfl, -, -⟩ | ⟨source, rfl⟩ |
        ⟨firing, computation, log, rfl, found, -, returned, -⟩
      · exact headed
      · rcases concerns with ⟨held, found, isMember, entered⟩
        have inside := linked source held found isMember socket (mem_socketEntries.mpr entered)
        exact spreads.linked source socket held found isMember (grounded.mem_of_opsAt carries.1) entered inside
      · rcases concerns with ⟨other, otherFound, isMember, complete⟩
        obtain rfl := Option.some.inj (found.symm.trans otherFound)
        rcases carries with ⟨other, otherFound, each⟩
        obtain rfl := Option.some.inj (found.symm.trans otherFound)
        refine spreads.computed _ computation found isMember (grounded.complete _ isMember complete) ?_ socket
          (List.of_mem_zip returned).1
        intro input isInput
        rcases forall₂_of_mem_left each isInput with ⟨op, -, arrived⟩
        exact grounded.mem_of_opsAt arrived
  | _ => trivial

theorem step_arrivals : ∀ arrival ∈ final.arrivals, arrival.socket ∈ reach.1 := by
  intro arrival member
  rcases step.arrivals with same | ⟨socket, op, rfl, -, added⟩
  · exact grounded.arrivals arrival (same ▸ member)
  · rw [added] at member
    rcases List.mem_append.mp member with old | new
    · exact grounded.arrivals arrival old
    · obtain rfl := List.mem_singleton.mp new
      exact grounded.tasks _ List.mem_cons_self

/-- A member becomes complete when all of its inputs have a space, so that ops have arrived there. -/
theorem step_complete (spreads : Spreads graph members reach) (marked : Marked graph members (task :: waiting) book) :
    ∀ id ∈ members, final.complete id = true → id ∈ reach.2 := by
  intro id member complete
  rcases step.complete complete with already | ⟨node, found, resolved⟩
  · exact grounded.complete id member already
  · refine spreads.complete id node found member fun input isInput => ?_
    have listed : input ∈ node.sockets := List.mem_append_left _ (List.mem_append_left _ isInput)
    have known := resolved input isInput
    rw [marked.space id member node found input listed] at known
    cases ops : book.opsAt input with
    | nil =>
        rw [ops] at known
        cases known
    | cons op rest => exact grounded.mem_of_opsAt (ops ▸ List.mem_cons_self)

end Step

end Grounded

/-! ### The invariant along the work -/

/-- A build that keeps to the rules. -/
structure Faithful (graph : Graph) (members : List ComponentId) (base : List (ComputationId × List OpId))
    (tasks : List Task) (book : Book) : Prop extends Diligent graph members base tasks book where
  sourced : Sourced graph base tasks book
  confined : Confined graph members tasks book
  grounded : ∀ reach, Spreads graph members reach → Grounded members reach tasks book

namespace Faithful

theorem start (fresh : book.Fresh graph members) (history : book.history = base) :
    Faithful graph members base (initialTasks members) book where
  toDiligent := .start fresh history
  sourced := .start fresh history
  confined := .start fresh
  grounded _ _ := .start fresh

theorem move (sound : Graph.Sound graph) (linked : LinkedInside graph members) {before later : List Task × Book}
    (move : Move graph before later) (faithful : Faithful graph members base before.1 before.2) :
    Faithful graph members base later.1 later.2 where
  toDiligent := faithful.toDiligent.move sound move
  sourced := faithful.sourced.move move
  confined := (faithful.confined.move sound linked move).1
  grounded reach spreads := by
    have grounded := faithful.grounded reach spreads
    cases move with
    | task task waiting more book final step =>
        refine ⟨fun new member => ?_, grounded.step_arrivals step, grounded.step_complete step spreads faithful.marked⟩
        rcases List.mem_append.mp member with given | old
        · exact grounded.step_tasks step spreads linked faithful.confined faithful.sourced new given
        · exact grounded.tasks new (List.mem_cons_of_mem task old)
    | serve arrival held =>
        refine { grounded with tasks := fun new member => ?_ }
        rcases List.mem_map.mp member with ⟨connection, -, rfl⟩
        trivial

theorem moves (sound : Graph.Sound graph) (linked : LinkedInside graph members) {before later : List Task × Book}
    (moves : Relation.ReflTransGen (Move graph) before later)
    (faithful : Faithful graph members base before.1 before.2) : Faithful graph members base later.1 later.2 := by
  induction moves with
  | refl => exact faithful
  | tail _ last inductionHypothesis => exact inductionHypothesis.move sound linked last

end Faithful

/-! ### Everything that the rules give -/

theorem Book.Knows.ne_nil {socket : SocketId} {id : OpId} (knows : book.Knows socket id) : book.opsAt socket ≠ [] := by
  rcases knows with ⟨op, member, -⟩
  exact List.ne_nil_of_mem member

/-- Sockets with ops, and members that are complete. -/
def Book.reached (members : List ComponentId) (book : Book) : Set SocketId × Set ComponentId :=
  ({socket | book.opsAt socket ≠ []}, {id | id ∈ members ∧ book.complete id = true})

namespace Diligent

variable (diligent : Diligent graph members base [] book)

include diligent

theorem bound_arrives (sound : Graph.Sound graph) {socket : SocketId} {held : Socket} {space : Space}
    (found : graph.socket? socket = some held) (member : held.owner ∈ members) (entered : .space space ∈ held.incoming) :
    book.opsAt socket ≠ [] := by
  rcases sound.sockets.owner socket held found with ⟨node, nodeFound⟩
  have listed : socket ∈ socketsOf graph held.owner := by
    rw [socketsOf, nodeFound]
    exact (sound.sockets.mem_sockets nodeFound).mpr ⟨held, found, rfl⟩
  have here : space ∈ spacesAt graph socket := by
    rw [spacesAt, found]
    exact mem_spaceEntries.mpr entered
  have owed : (held.owner, socket, space) ∈ members.flatMap (bindings graph) :=
    List.mem_flatMap.mpr ⟨_, member, List.mem_flatMap.mpr ⟨socket, listed, List.mem_map_of_mem here⟩⟩
  have seeded := diligent.seeded
  unfold Seeded at seeded
  rw [← seeded, List.flatMap_nil, List.append_nil] at owed
  rcases List.mem_map.mp owed with ⟨placed, isPlaced, same⟩
  obtain rfl : placed.socket = socket := congrArg (fun binding => binding.2.1) same
  exact (diligent.duties.due _ _ (.placeholder placed isPlaced)).done.ne_nil

/-- Complete members with ops at all inputs of a computation have ops at its outputs. -/
theorem output_arrives (sound : Graph.Sound graph) (done : book.arrivals.length ≤ book.served) {id : ComputationId}
    {computation : Computation} (found : graph.computation? id = some computation)
    (member : computation.owner ∈ members) (complete : book.complete computation.owner = true)
    (fed : ∀ input ∈ computation.inputs, book.opsAt input ≠ []) {output : SocketId}
    (isOutput : output ∈ computation.outputs) : book.opsAt output ≠ [] := by
  have some_op : ∀ input ∈ computation.inputs, ∃ op, op ∈ book.opsAt input :=
    fun input isInput => List.exists_mem_of_ne_nil _ (fed input isInput)
  rcases exists_forall₂ some_op with ⟨inputs, each⟩
  rcases diligent.exists_key done found member complete each with ⟨firing, isFiring, key⟩
  obtain rfl : firing.computation = id := congrArg Prod.fst key
  have lengths := diligent.recorded.length_outputs sound isFiring found
  rcases List.mem_iff_getElem.mp isOutput with ⟨position, inRange, rfl⟩
  have returned : (computation.outputs[position], firing.outputs[position]) ∈ computation.outputs.zip firing.outputs :=
    List.mem_iff_getElem.mpr ⟨position, by simp [← lengths, inRange], List.getElem_zip⟩
  exact (diligent.duties.due _ _ (.output firing computation _ _ isFiring found returned)).done.ne_nil

/-- A build that is done has followed all rules. -/
theorem spreads (sound : Graph.Sound graph) (done : book.arrivals.length ≤ book.served) :
    Spreads graph members (book.reached members) where
  bound socket held space found member entered := diligent.bound_arrives sound found member entered
  linked source target held found member fed entered inside := by
    rcases List.exists_mem_of_ne_nil _ fed with ⟨op, arrived⟩
    exact (diligent.passed done found entered arrived).ne_nil
  computed id computation found member complete fed output isOutput :=
    diligent.output_arrives sound done found member complete.2 fed isOutput
  complete id node found member fed := by
    refine ⟨member, ?_⟩
    rw [← Bool.not_eq_false, diligent.incomplete_iff member found]
    rintro ⟨input, isInput, none⟩
    exact fed input isInput none

end Diligent

/-- What a build has reached in the end is the least solution of the rules. -/
theorem Faithful.isLeast (faithful : Faithful graph members base [] book) (sound : Graph.Sound graph)
    (done : book.arrivals.length ≤ book.served) :
    IsLeast {reach | Spreads graph members reach} (book.reached members) := by
  refine ⟨faithful.spreads sound done, fun reach spreads => ⟨fun socket fed => ?_, fun id complete => ?_⟩⟩
  · rcases List.exists_mem_of_ne_nil _ fed with ⟨op, arrived⟩
    exact (faithful.grounded reach spreads).mem_of_opsAt arrived
  · exact (faithful.grounded reach spreads).complete id complete.1 complete.2

/-- The report tells of the sockets that are fed and the members that are not complete in the least solution. -/
def Report.Least (report : Report) (graph : Graph) (root : ComponentId) : Prop :=
  ∃ members reach, graph.subtree root = .ok members ∧ IsLeast {reach | Spreads graph members reach} reach ∧
    (∀ socket, socket ∈ reach.1 ↔ report.opsAt socket ≠ []) ∧
    ∀ id, id ∈ report.incomplete ↔ id ∈ members ∧ id ∉ reach.2

/-- There is only one least solution. -/
theorem Report.Least.incomplete_iff {report other : Report} {root : ComponentId} (least : report.Least graph root)
    (otherLeast : other.Least graph root) (id : ComponentId) : id ∈ report.incomplete ↔ id ∈ other.incomplete := by
  rcases least with ⟨members, reach, listed, isLeast, -, incomplete⟩
  rcases otherLeast with ⟨others, otherReach, otherListed, otherIsLeast, -, otherIncomplete⟩
  obtain rfl := Except.ok.inj (listed.symm.trans otherListed)
  rw [incomplete, otherIncomplete, isLeast.unique otherIsLeast]

/-- For a subtree that no link leaves, hooks that only register variables and any methods, reports tell of the least
solution. -/
theorem run_least {hooks : HookRunner} {fuel : Nat} {root : ComponentId} {config : BuildConfig}
    {session last : Session} {report : Report} (sound : Graph.Sound session.graph)
    (enclosed : session.graph.Enclosed root) (registers : hooks.Registers session.graph)
    (ran : (run hooks fuel root config).run session = (.ok report, last)) : report.Least session.graph root := by
  rcases run_built sound registers ran with ⟨built⟩
  have linked := linkedInside sound enclosed built.listed
  have faithful := (Faithful.start built.fresh built.history).moves sound linked built.finishes.1
  refine ⟨built.members, _, built.listed, faithful.isLeast sound built.finishes.2, fun socket => ?_, fun id => ?_⟩
  · rw [built.opsAt]
    rfl
  · rw [built.incomplete]
    refine and_congr_right fun member => ?_
    show _ ↔ ¬ (id ∈ built.members ∧ built.finish.complete id = true)
    rw [and_iff_right member, Bool.not_eq_true]

end Wiring.Build
