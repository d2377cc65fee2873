import Mathlib.Algebra.Order.BigOperators.Group.List
import Mathlib.Algebra.Order.Group.Nat
import Wiring.Proofs.Build.Duties
import Wiring.Proofs.Graph.Flow

/-!
Contract: how much can happen in a build, whatever its methods return.

Owns: `Sourced`, by which every op at a socket was sent by a placeholder or a firing and came from there over links,
and all firings took their inputs from the sockets of their computations; and that in a graph in which no
computation lies on a cycle, this bounds the number of arrivals.
-/

namespace Wiring.Build

open Wiring.Graph
open Relation (ReflTransGen)

variable {graph : Graph} {members : List ComponentId} {base : List (ComputationId × List OpId)} {book final : Book}
  {task : Task} {waiting more : List Task}

/-! ### Where ops are sent -/

/-- The op was sent to some socket and came over links from there. -/
def Sprung (graph : Graph) (account : Account) (socket : SocketId) (op : DataOp) : Prop :=
  ∃ origin, Due graph account origin op ∧ ReflTransGen graph.Linked origin socket

theorem Due.grows (grows : book.Grows final) {socket : SocketId} {op : DataOp} (due : Due graph book.account socket op) :
    Due graph final.account socket op := by
  cases due with
  | placeholder placed member => exact .placeholder placed (grows.placeholders placed member)
  | output firing computation socket op member found returned =>
      exact .output firing computation socket op (grows.firings firing member) found returned

theorem Sprung.grows (grows : book.Grows final) {socket : SocketId} {op : DataOp}
    (sprung : Sprung graph book.account socket op) : Sprung graph final.account socket op := by
  rcases sprung with ⟨origin, due, links⟩
  exact ⟨origin, due.grows grows, links⟩

/-- The ops in the hands of a task have come the way they should. -/
def Carries (graph : Graph) (book : Book) : Task → Prop
  | .deliver socket op => Sprung graph book.account socket op
  | .forward socket op connection =>
      op ∈ book.opsAt socket ∧ ∃ held, graph.socket? socket = some held ∧ connection ∈ held.outgoing
  | .fireWith id inputs => ∃ computation, graph.computation? id = some computation ∧
      AtInputs book computation.inputs inputs
  | _ => True

theorem Carries.grows (grows : book.Grows final) {task : Task} (carries : Carries graph book task) :
    Carries graph final task := by
  cases task with
  | deliver socket op => exact Sprung.grows grows carries
  | forward socket op connection => exact ⟨grows.opsAt carries.1, carries.2⟩
  | fireWith id inputs =>
      rcases carries with ⟨computation, found, each⟩
      exact ⟨computation, found, each.grows grows⟩
  | _ => trivial

structure Sourced (graph : Graph) (base : List (ComputationId × List OpId)) (tasks : List Task) (book : Book) : Prop
    extends Recorded graph base book where
  once : book.Once
  arrived : ∀ arrival ∈ book.arrivals, (∃ held, graph.socket? arrival.socket = some held) ∧
    Sprung graph book.account arrival.socket arrival.op
  tasks : ∀ task ∈ tasks, Carries graph book task
  firings : ∀ firing ∈ book.account.firings, ∃ computation, graph.computation? firing.computation = some computation ∧
    AtInputs book computation.inputs firing.inputs

namespace Sourced

theorem start (fresh : book.Fresh graph members) (history : book.history = base) :
    Sourced graph base (initialTasks members) book where
  toRecorded := .start fresh history
  once := .start fresh
  arrived := by simp [fresh.arrivals]
  tasks task member := by
    rcases mem_initialTasks member with ⟨id, -, rfl⟩ | ⟨id, -, rfl⟩
    · trivial
    · trivial
  firings := by simp [fresh.account]

theorem step_carries (sourced : Sourced graph base (task :: waiting) book) (step : Step graph task book more final) :
    ∀ new ∈ more, Carries graph final new := by
  have carries := sourced.tasks task List.mem_cons_self
  intro new member
  cases new with
  | deliver socket op =>
      rcases step.gives_deliver member with ⟨id, space, rfl, rfl, rfl⟩ | ⟨source, rfl⟩ |
        ⟨firing, computation, log, rfl, found, -, returned, rfl⟩
      · exact ⟨socket, .placeholder ⟨id, socket, _⟩ (List.mem_append_right _ List.mem_cons_self), .refl⟩
      · rcases carries with ⟨arrived, linked⟩
        rcases (sourced.arrived _ (Book.mem_opsAt.mp arrived)).2 with ⟨origin, due, links⟩
        exact ⟨origin, due.grows step.grows, links.tail linked⟩
      · have fired : firing ∈ (book.fire firing log).account.firings := List.mem_append_right _ List.mem_cons_self
        exact ⟨socket, .output firing computation socket op fired found returned, .refl⟩
  | forward => exact absurd member step.gives_forward
  | fireWith id inputs =>
      rcases step.gives_fireWith member with ⟨rfl, rfl, carried⟩
      exact carried
  | _ => trivial

theorem step_arrived (sourced : Sourced graph base (task :: waiting) book) (step : Step graph task book more final) :
    ∀ arrival ∈ final.arrivals, (∃ held, graph.socket? arrival.socket = some held) ∧
      Sprung graph final.account arrival.socket arrival.op := by
  have grows := step.grows
  have kept : ∀ arrival ∈ book.arrivals, (∃ held, graph.socket? arrival.socket = some held) ∧
      Sprung graph final.account arrival.socket arrival.op :=
    fun arrival member => ⟨(sourced.arrived arrival member).1, (sourced.arrived arrival member).2.grows grows⟩
  have carries := sourced.tasks task List.mem_cons_self
  have added {socket : SocketId} {op : DataOp} {held : Socket} (found : graph.socket? socket = some held)
      (sprung : Sprung graph final.account socket op) : ∀ arrival ∈ book.arrivals ++ [⟨socket, op⟩],
        (∃ held, graph.socket? arrival.socket = some held) ∧ Sprung graph final.account arrival.socket arrival.op := by
    intro arrival member
    rcases List.mem_append.mp member with old | new
    · exact kept arrival old
    · obtain rfl := List.mem_singleton.mp new
      exact ⟨⟨held, found⟩, sprung⟩
  cases step with
  | further socket op held space _ fresh found => exact added found (Sprung.grows grows carries)
  | first socket op held _ fresh found => exact added found (Sprung.grows grows carries)
  | _ => exact kept

theorem step_firings (sourced : Sourced graph base (task :: waiting) book) (step : Step graph task book more final) :
    ∀ firing ∈ final.account.firings, ∃ computation, graph.computation? firing.computation = some computation ∧
      AtInputs final computation.inputs firing.inputs := by
  have grows := step.grows
  have kept : ∀ firing ∈ book.account.firings, ∃ computation,
      graph.computation? firing.computation = some computation ∧ AtInputs final computation.inputs firing.inputs := by
    intro firing member
    rcases sourced.firings firing member with ⟨computation, found, each⟩
    exact ⟨computation, found, each.grows grows⟩
  rcases step.account with ⟨same, -, -⟩ | ⟨id, socket, space, -, rfl⟩ | ⟨firing, computation, log, rfl, -, found, -, rfl⟩
  · rw [same]
    exact kept
  · exact kept
  · intro other member
    rcases List.mem_append.mp member with old | new
    · exact kept other old
    · obtain rfl := List.mem_singleton.mp new
      rcases sourced.tasks _ List.mem_cons_self with ⟨known, knownFound, each⟩
      exact ⟨known, knownFound, each.grows grows⟩

theorem step (sourced : Sourced graph base (task :: waiting) book) (step : Step graph task book more final) :
    Sourced graph base (more ++ waiting) final where
  toRecorded := sourced.toRecorded.step step
  once := step.once sourced.once
  arrived := sourced.step_arrived step
  tasks new member := by
    rcases List.mem_append.mp member with given | old
    · exact sourced.step_carries step new given
    · exact (sourced.tasks new (List.mem_cons_of_mem task old)).grows step.grows
  firings := sourced.step_firings step

theorem serve (sourced : Sourced graph base [] book) {arrival : Arrival} {held : Socket}
    (next : book.arrivals[book.served]? = some arrival) (found : graph.socket? arrival.socket = some held) :
    Sourced graph base (held.outgoing.map (.forward arrival.socket arrival.op))
      { book with served := book.served + 1 } := by
  refine { sourced with tasks := fun task member => ?_ }
  rcases List.mem_map.mp member with ⟨connection, entered, rfl⟩
  exact ⟨Book.mem_opsAt.mpr (List.mem_of_getElem? next), held, found, entered⟩

theorem move {before later : List Task × Book} (move : Move graph before later)
    (sourced : Sourced graph base before.1 before.2) : Sourced graph base later.1 later.2 := by
  cases move with
  | task task waiting more book final step => exact sourced.step step
  | serve arrival held book next found => exact sourced.serve next found

end Sourced

/-! ### Counting -/

theorem length_flatMap_le {α β : Type} {items : List α} {make : α → List β} {bound : Nat}
    (each : ∀ item ∈ items, (make item).length ≤ bound) : (items.flatMap make).length ≤ items.length * bound := by
  induction items with
  | nil => exact Nat.zero_le _
  | cons item rest inductionHypothesis =>
      have others := inductionHypothesis fun other member => each other (List.mem_cons_of_mem item member)
      rw [List.flatMap_cons, List.length_append, List.length_cons, Nat.succ_mul, Nat.add_comm]
      exact Nat.add_le_add others (each item List.mem_cons_self)

theorem length_combinations_le {lists : List (List DataOp)} {bound : Nat}
    (each : ∀ list ∈ lists, list.length ≤ bound) : (combinations lists).length ≤ bound ^ lists.length := by
  induction lists with
  | nil => exact Nat.le_refl 1
  | cons list rest inductionHypothesis =>
      have others := inductionHypothesis fun other member => each other (List.mem_cons_of_mem list member)
      have extended : ∀ op ∈ list, ((combinations rest).map (op :: ·)).length ≤ bound ^ rest.length :=
        fun op _ => (List.length_map _).trans_le others
      refine (length_flatMap_le extended).trans ?_
      rw [List.length_cons, Nat.pow_succ, Nat.mul_comm]
      exact Nat.mul_le_mul_left _ (each list List.mem_cons_self)

/-- No computation has more inputs or outputs than there are altogether. -/
theorem exists_width (graph : Graph) : ∃ width, ∀ id computation, graph.computation? id = some computation →
    computation.inputs.length ≤ width ∧ computation.outputs.length ≤ width := by
  let ports (computation : Computation) := computation.inputs.length + computation.outputs.length
  refine ⟨(graph.computations.toList.map ports).sum, fun id computation found => ?_⟩
  have listed : computation ∈ graph.computations.toList := Array.mem_toList_iff.mpr (Array.mem_of_getElem? found)
  have within : ports computation ≤ _ := List.le_sum_of_mem (List.mem_map_of_mem listed)
  exact ⟨(Nat.le_add_right _ _).trans within, (Nat.le_add_left _ _).trans within⟩

/-- All inputs of the computation have a lower rank. -/
def Low (graph : Graph) (rank : Nat) (id : ComputationId) : Prop :=
  ∃ computation, graph.computation? id = some computation ∧ ∀ input ∈ computation.inputs, graph.rank input < rank

/-- The keys of the combinations at the inputs of a computation. -/
def keysAt (graph : Graph) (book : Book) (id : ComputationId) : List (ComputationId × List OpId) :=
  ((graph.computation? id).map fun computation =>
    (combinations (computation.inputs.map book.opsAt)).map fun ops => (id, ops.map DataOp.id)).getD []

/-- The ops that a firing sends to the outputs of its computation. -/
def sentBy (graph : Graph) (firing : Firing) : List OpId :=
  ((graph.computation? firing.computation).map fun computation =>
    (computation.outputs.zip firing.outputs).map fun output => output.2.id).getD []

theorem keysAt_eq {id : ComputationId} {computation : Computation} (found : graph.computation? id = some computation) :
    keysAt graph book id =
      (combinations (computation.inputs.map book.opsAt)).map fun ops => (id, ops.map DataOp.id) := by
  rw [keysAt, found]
  rfl

theorem sentBy_eq {firing : Firing} {computation : Computation}
    (found : graph.computation? firing.computation = some computation) :
    sentBy graph firing = (computation.outputs.zip firing.outputs).map fun output => output.2.id := by
  rw [sentBy, found]
  rfl

open Classical in
noncomputable def lowFirings (graph : Graph) (rank : Nat) (book : Book) : List Firing :=
  book.account.firings.filter fun firing => Low graph rank firing.computation

theorem mem_lowFirings {rank : Nat} {firing : Firing} : firing ∈ lowFirings graph rank book ↔
    firing ∈ book.account.firings ∧ Low graph rank firing.computation := by
  simp [lowFirings]

section Bounds

variable {rank bound width : Nat} (sourced : Sourced graph base waiting book)
  (bounded : ∀ socket, graph.rank socket < rank → (book.opsAt socket).length ≤ bound)
  (narrow : ∀ id computation, graph.computation? id = some computation →
    computation.inputs.length ≤ width ∧ computation.outputs.length ≤ width)
include sourced narrow

include bounded in
/-- Computations fire once for each combination at their inputs. -/
theorem length_lowFirings_le :
    (lowFirings graph rank book).length ≤ graph.computations.size * (bound + 1) ^ width := by
  classical
  let lows := ((List.range graph.computations.size).map ComputationId.mk).filter fun id => Low graph rank id
  have distinct : ((lowFirings graph rank book).map Firing.key).Nodup :=
    List.Nodup.sublist ((List.filter_sublist).map _) sourced.fresh
  have within : (lowFirings graph rank book).map Firing.key ⊆ lows.flatMap (keysAt graph book) := by
    intro key member
    rcases List.mem_map.mp member with ⟨firing, isLow, rfl⟩
    rcases mem_lowFirings.mp isLow with ⟨isFiring, low⟩
    rcases sourced.firings firing isFiring with ⟨computation, found, each⟩
    refine List.mem_flatMap.mpr ⟨firing.computation, List.mem_filter.mpr ⟨?_, decide_eq_true low⟩, ?_⟩
    · exact List.mem_map.mpr ⟨_, List.mem_range.mpr (Array.getElem?_eq_some_iff.mp found).1, rfl⟩
    · rw [keysAt_eq found]
      exact List.mem_map.mpr ⟨firing.inputs, mem_combinations_opsAt.mpr each, rfl⟩
  have each : ∀ id ∈ lows, (keysAt graph book id).length ≤ (bound + 1) ^ width := by
    intro id member
    rcases of_decide_eq_true (List.mem_filter.mp member).2 with ⟨computation, found, low⟩
    rw [keysAt_eq found, List.length_map]
    have few : ∀ list ∈ computation.inputs.map book.opsAt, list.length ≤ bound + 1 := by
      intro list isList
      rcases List.mem_map.mp isList with ⟨input, isInput, rfl⟩
      exact (bounded input (low input isInput)).trans (Nat.le_succ bound)
    refine (length_combinations_le few).trans (Nat.pow_le_pow_right (Nat.succ_pos bound) ?_)
    rw [List.length_map]
    exact (narrow id computation found).1
  calc (lowFirings graph rank book).length
      = ((lowFirings graph rank book).map Firing.key).length := (List.length_map _).symm
    _ ≤ (lows.flatMap (keysAt graph book)).length := (distinct.subperm within).length_le
    _ ≤ lows.length * (bound + 1) ^ width := length_flatMap_le each
    _ ≤ graph.computations.size * (bound + 1) ^ width := by
        refine Nat.mul_le_mul_right _ ((List.length_filter_le _ _).trans_eq ?_)
        rw [List.length_map, List.length_range]

/-- A socket has no other ops than placeholders and what firings of lower rank have sent. -/
theorem length_opsAt_le (sound : Graph.Sound graph) (feedforward : graph.Feedforward) {socket : SocketId}
    (below : graph.rank socket < rank + 1) :
    (book.opsAt socket).length ≤ book.account.placeholders.length + (lowFirings graph rank book).length * width := by
  have within : (book.opsAt socket).map DataOp.id ⊆ book.account.placeholders.map (fun placed => placed.op.id) ++
      (lowFirings graph rank book).flatMap (sentBy graph) := by
    intro id member
    rcases List.mem_map.mp member with ⟨op, arrived, rfl⟩
    rcases (sourced.arrived _ (Book.mem_opsAt.mp arrived)).2 with ⟨origin, due, links⟩
    cases due with
    | placeholder placed isPlaced => exact List.mem_append_left _ (List.mem_map.mpr ⟨placed, isPlaced, rfl⟩)
    | output firing computation _ _ isFiring found returned =>
        have low : Low graph rank firing.computation := by
          refine ⟨computation, found, fun input isInput => ?_⟩
          have computed : graph.Computed input origin :=
            ⟨firing.computation, computation, found, isInput, (List.of_mem_zip returned).1⟩
          exact Nat.lt_of_lt_of_le (rank_lt sound feedforward computed)
            ((rank_mono links).trans (Nat.le_of_lt_succ below))
        refine List.mem_append_right _ (List.mem_flatMap.mpr ⟨firing, mem_lowFirings.mpr ⟨isFiring, low⟩, ?_⟩)
        rw [sentBy_eq found]
        exact List.mem_map.mpr ⟨_, returned, rfl⟩
  have each : ∀ firing ∈ lowFirings graph rank book, (sentBy graph firing).length ≤ width := by
    intro firing isLow
    rcases (mem_lowFirings.mp isLow).2 with ⟨computation, found, -⟩
    rw [sentBy_eq found, List.length_map, List.length_zip]
    exact (Nat.min_le_left _ _).trans (narrow _ computation found).2
  have few := ((sourced.once.nodup_ids socket).subperm within).length_le
  rw [List.length_map, List.length_append, List.length_map] at few
  exact few.trans (Nat.add_le_add_left (length_flatMap_le each) _)

end Bounds

/-- By induction on the rank, the number of ops at each socket is bounded. -/
theorem exists_opsAt_bound (sound : Graph.Sound graph) (feedforward : graph.Feedforward) (members : List ComponentId)
    (rank : Nat) : ∃ bound, ∀ base tasks book, Sourced graph base tasks book → Seeded graph members tasks book →
      ∀ socket, graph.rank socket < rank → (book.opsAt socket).length ≤ bound := by
  rcases exists_width graph with ⟨width, narrow⟩
  induction rank with
  | zero => exact ⟨0, fun _ _ _ _ _ _ below => absurd below (Nat.not_lt_zero _)⟩
  | succ rank inductionHypothesis =>
      rcases inductionHypothesis with ⟨bound, bounded⟩
      refine ⟨(members.flatMap (bindings graph)).length + graph.computations.size * (bound + 1) ^ width * width, ?_⟩
      intro base tasks book sourced seeded socket below
      have placed : book.account.placeholders.length ≤ (members.flatMap (bindings graph)).length := by
        rw [← seeded, List.length_append, List.length_map]
        exact Nat.le_add_right _ _
      have firings := length_lowFirings_le sourced (bounded base tasks book sourced seeded) narrow
      refine (length_opsAt_le sourced narrow sound feedforward below).trans ?_
      exact Nat.add_le_add placed (Nat.mul_le_mul_right width firings)

/-- The arrivals of a build are bounded, whatever its methods and hooks do. -/
theorem exists_arrivals_bound (sound : Graph.Sound graph) (feedforward : graph.Feedforward)
    (members : List ComponentId) : ∃ bound, ∀ base tasks book, Sourced graph base tasks book →
      Seeded graph members tasks book → book.arrivals.length ≤ bound := by
  rcases exists_opsAt_bound sound feedforward members (graph.sockets.size + 1) with ⟨bound, bounded⟩
  refine ⟨graph.sockets.size * bound, fun base tasks book sourced seeded => ?_⟩
  let pairsAt (index : Nat) := (book.opsAt ⟨index⟩).map fun op => ((⟨index⟩ : SocketId), op.id)
  have within : book.arrivals.map (fun arrival => (arrival.socket, arrival.op.id)) ⊆
      (List.range graph.sockets.size).flatMap pairsAt := by
    intro pair member
    rcases List.mem_map.mp member with ⟨arrival, arrived, rfl⟩
    rcases (sourced.arrived arrival arrived).1 with ⟨held, found⟩
    refine List.mem_flatMap.mpr ⟨_, List.mem_range.mpr (Array.getElem?_eq_some_iff.mp found).1, ?_⟩
    exact List.mem_map.mpr ⟨arrival.op, Book.mem_opsAt.mpr arrived, rfl⟩
  have each : ∀ index ∈ List.range graph.sockets.size, (pairsAt index).length ≤ bound := by
    intro index _
    rw [List.length_map]
    exact bounded base tasks book sourced seeded ⟨index⟩ (Nat.lt_succ_of_le (rank_le_size graph _))
  have few := (sourced.once.subperm within).length_le
  rw [List.length_map] at few
  refine few.trans ((length_flatMap_le each).trans_eq ?_)
  rw [List.length_range]

end Wiring.Build
