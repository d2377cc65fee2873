import Mathlib.Data.List.Perm.Basic
import Wiring.Proofs.Build.Coverage
import Wiring.Proofs.Build.Start

/-!
Contract: a build that returns a report has done everything and nothing else.

Owns: `Diligent` and `Orderly`, which join the invariants of a build and hold along its whole work, the first one
whatever the methods return; and `Closure`, what this says about a report: the ops at the sockets are closed under
placeholders, links and firings, each of them is derived from these, and no firing is missed or repeated.
-/

namespace Wiring.Build

variable {graph : Graph} {members : List ComponentId} {base : List (ComputationId × List OpId)} {book : Book}

/-! ### The invariant along the work -/

/-- What a build has recorded and what it has still to do. -/
structure Diligent (graph : Graph) (members : List ComponentId) (base : List (ComputationId × List OpId))
    (tasks : List Task) (book : Book) : Prop where
  recorded : Recorded graph base book
  duties : Duties graph tasks book
  seeded : Seeded graph members tasks book
  marked : Marked graph members tasks book
  covered : Covered graph members tasks book

/-- The same for methods that only create ops, whose ops have a reason. -/
structure Orderly (graph : Graph) (members : List ComponentId) (base : List (ComputationId × List OpId))
    (tasks : List Task) (book : Book) : Prop extends Diligent graph members base tasks book where
  traced : Traced graph base tasks book

theorem Diligent.move (sound : Graph.Sound graph) {before later : List Task × Book} (move : Move graph before later)
    (diligent : Diligent graph members base before.1 before.2) : Diligent graph members base later.1 later.2 where
  recorded := diligent.recorded.move move
  duties := diligent.duties.move move
  seeded := diligent.seeded.move move
  marked := diligent.marked.move sound move
  covered := diligent.covered.move sound move diligent.duties.served

theorem Diligent.start (fresh : book.Fresh graph members) (history : book.history = base) :
    Diligent graph members base (initialTasks members) book where
  recorded := .start fresh history
  duties := .start fresh
  seeded := .start fresh
  marked := .start fresh
  covered := .start fresh

theorem Orderly.move (sound : Graph.Sound graph) (creates : CreatesOps graph) {before later : List Task × Book}
    (move : Move graph before later) (orderly : Orderly graph members base before.1 before.2) :
    Orderly graph members base later.1 later.2 where
  toDiligent := orderly.toDiligent.move sound move
  traced := orderly.traced.move sound creates move

/-- The work preserves the invariant. -/
theorem Orderly.moves (sound : Graph.Sound graph) (creates : CreatesOps graph) {before later : List Task × Book}
    (moves : Relation.ReflTransGen (Move graph) before later)
    (orderly : Orderly graph members base before.1 before.2) : Orderly graph members base later.1 later.2 := by
  induction moves with
  | refl => exact orderly
  | tail _ last inductionHypothesis => exact inductionHypothesis.move sound creates last

/-- A build begins in order. -/
theorem Orderly.start (fresh : book.Fresh graph members) (history : book.history = base) :
    Orderly graph members base (initialTasks members) book where
  toDiligent := .start fresh history
  traced := .start fresh history

/-! ### What a report says -/

/-- The ops of a report are closed under placeholders, links and firings, and all of them come from these. -/
structure Closure (graph : Graph) (members : List ComponentId) (report : Report) (account : Account) : Prop where
  /-- One placeholder for each space that is bound to a socket of a member. -/
  placeholders : account.placeholders.map Placeholder.binding = members.flatMap (bindings graph)
  apart : (account.placeholders.map fun placed => placed.op.id).Nodup
  placed : ∀ placed ∈ account.placeholders, placed.op ∈ report.opsAt placed.socket ∧
    report.log.get? placed.op.id = some (placeholder placed.component placed.op.space)
  linked : ∀ source held target, graph.socket? source = some held → .socket target ∈ held.outgoing →
    ∀ op ∈ report.opsAt source, op ∈ report.opsAt target
  /-- A computation of a complete member fires once for each combination of ops at its inputs. -/
  fired : ∀ id computation, graph.computation? id = some computation → computation.owner ∈ members →
    computation.owner ∉ report.incomplete →
    ((account.firings.filter fun firing => firing.computation = id).map Firing.inputs).Perm
      (combinations (computation.inputs.map report.opsAt))
  /-- A computation of an incomplete member does not fire. -/
  unfired : ∀ id computation, graph.computation? id = some computation →
    computation.owner ∈ report.incomplete → ∀ firing ∈ account.firings, firing.computation ≠ id
  /-- A firing runs the method on ops at the inputs, and what it returns arrives at the outputs. -/
  ran : ∀ firing ∈ account.firings, ∃ computation before later,
    graph.computation? firing.computation = some computation ∧ Fires graph before firing later ∧
    before.Grows later ∧ later.Grows report.log ∧
    List.Forall₂ (fun socket op => op ∈ report.opsAt socket) computation.inputs firing.inputs ∧
    List.Forall₂ (fun socket op => op ∈ report.opsAt socket) computation.outputs firing.outputs
  once : (account.firings.map Firing.key).Nodup
  derived : ∀ socket, ∀ op ∈ report.opsAt socket, Derived graph account socket op
  distinct : ∀ socket, ((report.opsAt socket).map DataOp.id).Nodup

/-! ### Combinations -/

theorem nodup_combinations {lists : List (List DataOp)} (each : ∀ list ∈ lists, list.Nodup) :
    (combinations lists).Nodup := by
  induction lists with
  | nil => exact List.nodup_singleton _
  | cons list rest inductionHypothesis =>
      have others := inductionHypothesis fun other member => each other (List.mem_cons_of_mem list member)
      unfold combinations
      rw [List.nodup_flatMap]
      constructor
      · intro op _
        exact others.map fun _ _ same => (List.cons.inj same).2
      · refine (each list List.mem_cons_self).imp fun differ ops inFirst inSecond => ?_
        rcases List.mem_map.mp inFirst with ⟨_, -, rfl⟩
        rcases List.mem_map.mp inSecond with ⟨_, -, same⟩
        exact differ (List.cons.inj same).1.symm

theorem eq_of_ids {log : OpLog} {first second : List DataOp} (hasFirst : ∀ op ∈ first, log.Has op)
    (hasSecond : ∀ op ∈ second, log.Has op) (same : first.map DataOp.id = second.map DataOp.id) :
    first = second := by
  induction first generalizing second with
  | nil =>
      cases second with
      | nil => rfl
      | cons op rest => cases same
  | cons op rest inductionHypothesis =>
      cases second with
      | nil => cases same
      | cons other others =>
          rw [List.map_cons, List.map_cons] at same
          rcases List.cons.inj same with ⟨sameId, sameIds⟩
          have restSame := inductionHypothesis (fun op member => hasFirst op (List.mem_cons_of_mem _ member))
            (fun op member => hasSecond op (List.mem_cons_of_mem _ member)) sameIds
          rw [OpLog.Has.eq_of_id (hasFirst op List.mem_cons_self) (hasSecond other List.mem_cons_self) sameId,
            restSame]

/-! ### The end of the work -/

/-- A firing has an op for each output of its computation. -/
theorem Recorded.length_outputs (recorded : Recorded graph base book) (sound : Graph.Sound graph) {firing : Firing}
    (isFiring : firing ∈ book.account.firings) {computation : Computation}
    (found : graph.computation? firing.computation = some computation) :
    computation.outputs.length = firing.outputs.length := by
  rcases recorded.ran firing isFiring with ⟨before, later, other, node, method, registry, calls, more, otherFound,
    nodeFound, chosen, ran⟩
  obtain rfl := Option.some.inj (found.symm.trans otherFound)
  rcases (sound.computations.bound _ _ found).node with ⟨owner, known, ownerFound, -, knownChosen, -, outputs⟩
  obtain rfl := Option.some.inj (nodeFound.symm.trans ownerFound)
  obtain rfl := Option.some.inj (chosen.symm.trans knownChosen)
  rw [outputs, Method.length_apply ran]

namespace Diligent

variable (diligent : Diligent graph members base [] book)

include diligent

/-- What a complete member can fire on, it has fired on, or on ops of the same identifiers. -/
theorem exists_key (done : book.arrivals.length ≤ book.served) {id : ComputationId} {computation : Computation}
    (found : graph.computation? id = some computation) (member : computation.owner ∈ members)
    (complete : book.complete computation.owner = true) {inputs : List DataOp}
    (each : AtInputs book computation.inputs inputs) :
    ∃ firing ∈ book.account.firings, firing.key = (id, inputs.map DataOp.id) := by
  have fired : (id, inputs.map DataOp.id) ∈ book.fired := by
    rcases (diligent.covered.fires id computation inputs found member complete each).done with
      fired | ⟨position, socket, op, unserved, held, -⟩
    · exact fired
    · have below := (List.getElem?_eq_some_iff.mp held).1
      omega
  rw [diligent.recorded.fired, List.mem_reverse] at fired
  exact List.mem_map.mp fired

/-- Links have passed on all ops. -/
theorem passed (done : book.arrivals.length ≤ book.served) {source target : SocketId} {held : Socket}
    (found : graph.socket? source = some held) (linked : .socket target ∈ held.outgoing) {op : DataOp}
    (member : op ∈ book.opsAt source) : book.Knows target op.id := by
  rcases List.mem_iff_getElem?.mp (Book.mem_opsAt.mp member) with ⟨position, next⟩
  have served := Nat.lt_of_lt_of_le (List.getElem?_eq_some_iff.mp next).1 done
  exact (diligent.duties.linked position _ served next held target found linked).done

/-- A member stays incomplete for want of an op at one of its inputs. -/
theorem incomplete_iff {id : ComponentId} (member : id ∈ members) {node : Component}
    (found : graph.component? id = some node) :
    book.complete id = false ↔ ∃ input ∈ node.inputs, book.opsAt input = [] := by
  have listed {input : SocketId} (isInput : input ∈ node.inputs) : input ∈ node.sockets :=
    List.mem_append_left _ (List.mem_append_left _ isInput)
  constructor
  · intro incomplete
    rcases (diligent.marked.checked id member node found incomplete).done with ⟨input, isInput, unresolved⟩
    rw [diligent.marked.space id member node found input (listed isInput)] at unresolved
    exact ⟨input, isInput, List.head?_eq_none_iff.mp (Option.map_eq_none_iff.mp unresolved)⟩
  · rintro ⟨input, isInput, none⟩
    cases complete : book.complete id with
    | false => rfl
    | true =>
        have resolved := diligent.marked.resolved id member node found complete input isInput
        rw [diligent.marked.space id member node found input (listed isInput), none] at resolved
        cases resolved

end Diligent

namespace Orderly

variable (orderly : Orderly graph members base [] book)

include orderly

/-- What a complete member can fire on, it has fired on. -/
theorem exists_firing (done : book.arrivals.length ≤ book.served) {id : ComputationId} {computation : Computation}
    (found : graph.computation? id = some computation) (member : computation.owner ∈ members)
    (complete : book.complete computation.owner = true) {inputs : List DataOp}
    (each : AtInputs book computation.inputs inputs) :
    ∃ firing ∈ book.account.firings, firing.computation = id ∧ firing.inputs = inputs := by
  rcases orderly.exists_key done found member complete each with ⟨firing, isFiring, same⟩
  rcases Prod.mk.inj same with ⟨sameId, sameIds⟩
  rcases orderly.traced.firings firing isFiring with ⟨other, justified⟩
  have has {inputs : List SocketId} {ops : List DataOp} (each : AtInputs book inputs ops) :
      ∀ op ∈ ops, book.log.Has op := by
    intro op isInput
    rcases each.of_mem isInput with ⟨socket, arrived⟩
    exact orderly.traced.has arrived
  exact ⟨firing, isFiring, sameId, eq_of_ids (has justified.inputs) (has each) sameIds⟩

/-- The firings of a computation of a complete member are the combinations of ops at its inputs. -/
theorem firings_perm (done : book.arrivals.length ≤ book.served) {id : ComputationId} {computation : Computation}
    (found : graph.computation? id = some computation) (member : computation.owner ∈ members)
    (complete : book.complete computation.owner = true) :
    ((book.account.firings.filter fun firing => firing.computation = id).map Firing.inputs).Perm
      (combinations (computation.inputs.map book.opsAt)) := by
  have distinct : ((book.account.firings.filter fun firing => firing.computation = id).map Firing.inputs).Nodup := by
    have here := orderly.traced.fresh.sublist
      ((List.filter_sublist (p := fun firing : Firing => decide (firing.computation = id))).map _)
    have keys : ((book.account.firings.filter fun firing => firing.computation = id).map Firing.key) =
        ((book.account.firings.filter fun firing => firing.computation = id).map Firing.inputs).map
          fun inputs => (id, inputs.map DataOp.id) := by
      rw [List.map_map]
      refine List.map_congr_left fun firing isFiring => ?_
      exact congrArg (·, firing.inputs.map DataOp.id) (of_decide_eq_true (List.mem_filter.mp isFiring).2)
    rw [keys] at here
    exact here.of_map _
  have combined : (combinations (computation.inputs.map book.opsAt)).Nodup := by
    refine nodup_combinations fun list isList => ?_
    rcases List.mem_map.mp isList with ⟨socket, -, rfl⟩
    exact orderly.traced.once.nodup_opsAt socket
  refine (List.perm_ext_iff_of_nodup distinct combined).mpr fun inputs => ?_
  rw [mem_combinations_opsAt, List.mem_map]
  constructor
  · rintro ⟨firing, isFiring, rfl⟩
    rcases List.mem_filter.mp isFiring with ⟨isFiring, same⟩
    rcases orderly.traced.firings firing isFiring with ⟨other, justified⟩
    have otherFound := justified.found
    rw [of_decide_eq_true same, found] at otherFound
    obtain rfl := Option.some.inj otherFound
    exact justified.inputs
  · intro each
    rcases orderly.exists_firing done found member complete each with ⟨firing, isFiring, same, inputsSame⟩
    exact ⟨firing, List.mem_filter.mpr ⟨isFiring, decide_eq_true same⟩, inputsSame⟩

/-- The ops that a firing returns are at the outputs of its computation. -/
theorem outputs_arrive (sound : Graph.Sound graph) {firing : Firing} (isFiring : firing ∈ book.account.firings)
    {computation : Computation} (justified : Justified graph book firing computation) :
    List.Forall₂ (fun socket op => op ∈ book.opsAt socket) computation.outputs firing.outputs := by
  rw [List.forall₂_iff_zip]
  refine ⟨orderly.recorded.length_outputs sound isFiring justified.found, fun {socket op} returned => ?_⟩
  rcases (orderly.duties.due socket op (.output firing computation socket op isFiring justified.found returned)).done
    with ⟨other, arrived, same⟩
  exact orderly.traced.mem_opsAt_of_id (justified.outputs op (List.of_mem_zip returned).2) arrived same

/-- Placeholders are at their sockets. -/
theorem placeholder_arrives {placed : Placeholder} (member : placed ∈ book.account.placeholders) :
    placed.op ∈ book.opsAt placed.socket := by
  rcases (orderly.duties.due _ _ (.placeholder placed member)).done with ⟨other, arrived, same⟩
  exact orderly.traced.mem_opsAt_of_id ⟨_, orderly.traced.placed placed member, rfl⟩ arrived same

end Orderly

/-! ### Reports -/

/-- For a reachable graph, methods that only create ops and hooks that only register variables, a build that
returns a report has put one placeholder for each bound space, has passed every op along every link, and has
fired every computation of a complete member once for each combination of ops at its inputs and no computation
of an incomplete one; every op at a socket is derived from these, none is there twice, and a member socket has
the space of its first op. -/
theorem run_closure {hooks : HookRunner} {fuel : Nat} {root : ComponentId} {config : BuildConfig}
    {session final : Session} {report : Report} (reachable : session.graph.Reachable)
    (creates : CreatesOps session.graph) (registers : hooks.Registers session.graph)
    (ran : (run hooks fuel root config).run session = (.ok report, final)) :
    ∃ members account, session.graph.subtree root = .ok members ∧
      Closure session.graph members report account ∧
      (∀ id ∈ members, ∀ node, session.graph.component? id = some node →
        (id ∈ report.incomplete ↔ ∃ input ∈ node.inputs, report.opsAt input = []) ∧
        ∀ socket ∈ node.sockets, final.graph.spaceOf socket = report.spaceOf? socket) ∧
      firedEvents final.trace = firedEvents session.trace ++ account.firings.map Firing.key := by
  have sound := reachable.sound
  rcases run_built sound registers ran with ⟨built⟩
  have orderly := (Orderly.start built.fresh built.history).moves sound creates built.finishes.1
  have done := built.finishes.2
  have incomplete {id : ComponentId} (member : id ∈ built.members) :
      id ∈ report.incomplete ↔ built.finish.complete id = false :=
    (built.incomplete id).trans (and_iff_right member)
  have opsAt : report.opsAt = built.finish.opsAt := funext built.opsAt
  refine ⟨built.members, built.finish.account, built.listed, ?_, ?_, ?_⟩
  · refine ⟨?_, orderly.traced.apart, ?_, ?_, ?_, ?_, ?_, orderly.traced.fresh, ?_, ?_⟩
    · have seeded := orderly.seeded
      unfold Seeded at seeded
      rw [← seeded]
      exact (List.append_nil _).symm
    · intro placed member
      rw [opsAt, built.log]
      exact ⟨orderly.placeholder_arrives member, orderly.traced.placed placed member⟩
    · intro source held target found link op member
      rw [opsAt] at member ⊢
      rcases orderly.passed done found link member with ⟨other, arrived, same⟩
      exact orderly.traced.mem_opsAt_of_id (orderly.traced.has member) arrived same
    · intro id computation found member complete
      rw [opsAt]
      rw [incomplete member, Bool.not_eq_false] at complete
      exact orderly.firings_perm done found member complete
    · intro id computation found member firing isFiring same
      rcases orderly.traced.firings firing isFiring with ⟨other, justified⟩
      have otherFound := justified.found
      rw [same, found] at otherFound
      obtain rfl := Option.some.inj otherFound
      have complete := justified.complete
      rw [((built.incomplete _).mp member).2] at complete
      cases complete
    · intro firing isFiring
      rcases orderly.traced.firings firing isFiring with ⟨computation, justified⟩
      rcases justified.ran with ⟨before, later, fires, growing, grown⟩
      rw [opsAt, built.log]
      exact ⟨computation, before, later, justified.found, fires, growing, grown, justified.inputs,
        orderly.outputs_arrive sound isFiring justified⟩
    · intro socket op member
      rw [opsAt] at member
      exact orderly.traced.derived member
    · intro socket
      rw [opsAt]
      exact orderly.traced.once.nodup_ids socket
  · intro id member node found
    rw [incomplete member, opsAt, built.space]
    refine ⟨orderly.incomplete_iff member found, fun socket listed => ?_⟩
    rw [orderly.marked.space id member node found socket listed, Report.spaceOf?, opsAt]
  · rw [built.trace, orderly.traced.history]

/-- A method that makes one op out of its inputs. -/
def relaying (inputs : Nat) : Method where
  name := "relay"
  inputs
  outputs := 1
  run := fun context given => do
    let op ← context.record "relay" (given.map DataOp.id) (.box {})
    return [op]

theorem relaying_creates (inputs : Nat) : (relaying inputs).CreatesOps := by
  intro context given
  refine (Recording.Creates.record context _ _ _).bind fun op => ?_
  exact .pure fun other member => List.mem_append_left _ member

/-- A component with one space for one of its inputs and two for the other, linked to a component outside. -/
def summed : GraphM Unit := do
  let sum ← Graph.create { scope := "sum" }
  let _ ← Graph.defineInputs sum ["left", "right"] (some (.box {}))
  Graph.connect sum (.space (.box { element := .int })) (.socket (.named "right"))
  let _ ← Graph.addSockets sum ["out"] (some .output) false
  Graph.register sum (relaying 2)
  let _ ← Graph.compute sum ["left", "right"] ["out"] none {}
  let sink ← Graph.create { scope := "sink" }
  let _ ← Graph.addSockets sink ["in"] (some .input) false
  Graph.connect sum (.socket (.named "out")) (.component sink)

theorem keeps_summed : Keeps Reaches summed := by
  refine Keeps.bind (Reaches.create _) fun sum => ?_
  refine Keeps.bind (Reaches.defineInputs sum _ _) fun _ => ?_
  refine Keeps.bind (Reaches.connect sum _ _) fun _ => ?_
  refine Keeps.bind (Reaches.addSockets sum _ _ _) fun _ => ?_
  refine Keeps.bind (Reaches.register sum _) fun _ => ?_
  refine Keeps.bind (Reaches.compute sum _ _ _ _) fun _ => ?_
  refine Keeps.bind (Reaches.create _) fun sink => ?_
  refine Keeps.bind (Reaches.addSockets sink _ _ _) fun _ => ?_
  exact Reaches.connect sum _ _

theorem reachable_summed : (after summed {}).Reachable :=
  (Graph.reachable_empty {}).reaches (keeps_summed {})

theorem summed_creates : CreatesOps (after summed {}) := by
  intro id node found method registered
  have all : (after summed {}).components.toList.flatMap Component.methods = [relaying 2] := rfl
  have listed : method ∈ (after summed {}).components.toList.flatMap Component.methods :=
    List.mem_flatMap.mpr ⟨node, Array.mem_toList_iff.mpr (Array.mem_of_getElem? found), registered⟩
  rw [all] at listed
  rw [List.mem_singleton.mp listed]
  exact relaying_creates 2

/-- Hooks that register a variable. -/
def biased : HookRunner := fun _ id _ =>
  Session.ofGraph (do let _ ← Graph.getVariable id "bias" { shape := some [some 2] })

theorem biased_registers (graph : Graph) : biased.Registers graph := by
  intro id node hook _ _ spaces given
  exact ⟨Keeps.bind (Graph.keeps_getVariable id _ _) (fun _ => Keeps.pure _) given.graph, rfl⟩

theorem run_closure_summed : ∃ report final account,
    (run biased 60 ⟨0⟩ {}).run { graph := after summed {} } = (.ok report, final) ∧
    Closure (after summed {}) [⟨0⟩] report account ∧ account.placeholders.length = 3 ∧
    account.firings.length = 2 := by
  have general (graph : Graph) (reachable : graph.Reachable) (creates : CreatesOps graph)
      (succeeds : (outcome (run biased 60 ⟨0⟩ {}) { graph }).isOk = true)
      (listed : (graph.subtree ⟨0⟩).toOption = some [⟨0⟩])
      (bound : (List.flatMap (bindings graph) [⟨0⟩]).length = 3)
      (events : (firedEvents (after (run biased 60 ⟨0⟩ {}) { graph }).trace).length = 2) :
      ∃ report final account, (run biased 60 ⟨0⟩ {}).run { graph } = (.ok report, final) ∧
        Closure graph [⟨0⟩] report account ∧ account.placeholders.length = 3 ∧ account.firings.length = 2 := by
    cases answered : outcome (run biased 60 ⟨0⟩ {}) { graph } with
    | error stop =>
        rw [answered] at succeeds
        cases succeeds
    | ok report =>
        have ran : (run biased 60 ⟨0⟩ {}).run { graph } = (.ok report, after (run biased 60 ⟨0⟩ {}) { graph }) := by
          rw [run_eq, answered]
        rcases run_closure reachable creates (biased_registers _) ran with
          ⟨members, account, known, closure, -, history⟩
        have known : graph.subtree ⟨0⟩ = .ok members := known
        rw [known] at listed
        obtain rfl := Option.some.inj listed
        rw [← closure.placeholders, List.length_map] at bound
        rw [history, List.length_append, List.length_map] at events
        exact ⟨report, _, account, ran, closure, bound, (Nat.zero_add _).symm.trans events⟩
  exact general (after summed {}) reachable_summed summed_creates (by decide +kernel) (by decide +kernel)
    (by decide +kernel) (by decide +kernel)

end Wiring.Build
