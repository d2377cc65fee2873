import Wiring.Proofs.Build.Runs
import Wiring.Proofs.Build.Start
import Wiring.Proofs.Histories

/-!
Contract: builds follow the tales of their hooks.

Owns: `Permitted`, the tasks that fire only computations of complete components; that every task is one beat,
whatever its outcome, and gives rise to such tasks, where hooks do operations on the graph; `Underway`, which work
keeps; and the tale of the work of a build and of a whole build.
-/

namespace Wiring.Build

open Wiring.Graph

variable {hooks : HookRunner} {state final : BuildState} {α β : Type}

/-- A step writes the events into the trace. -/
def Tells (before later : BuildState) (events : List Event) : Prop :=
  later.session.trace.toList = before.session.trace.toList ++ events

theorem Tells.trans {first second third : BuildState} {events more : List Event} (tells : Tells first second events)
    (tellsMore : Tells second third more) : Tells first third (events ++ more) := by
  unfold Tells at tells tellsMore ⊢
  rw [tellsMore, tells, List.append_assoc]

/-! ### Tasks that are permitted -/

/-- What is fired belongs to a component that is complete. -/
def Permitted (graph : Graph) : Task → Prop
  | .wake socket => ∃ held, graph.socket? socket = some held ∧ graph.isComplete held.owner = true
  | .fireSources id => graph.isComplete id = true
  | .fire id | .fireWith id _ =>
      ∃ computation, graph.computation? id = some computation ∧ graph.isComplete computation.owner = true
  | _ => True

/-- Complete components stay complete, and what belongs to them stays theirs. -/
structure Onward (before later : Graph) : Prop where
  complete : ∀ id, before.isComplete id = true → later.isComplete id = true
  socket : ∀ id socket, before.socket? id = some socket →
    ∃ new, later.socket? id = some new ∧ new.owner = socket.owner
  computation : ∀ id computation, before.computation? id = some computation →
    later.computation? id = some computation

theorem Onward.of_stays {before later : Graph} (stays : before.Stays later) : Onward before later where
  complete _ was := stays.complete ▸ was
  socket := stays.socket
  computation := stays.computation

theorem Onward.trans {first second third : Graph} (left : Onward first second) (right : Onward second third) :
    Onward first third where
  complete id was := right.complete id (left.complete id was)
  socket id socket held := by
    rcases left.socket id socket held with ⟨middle, middleHeld, owner⟩
    rcases right.socket id middle middleHeld with ⟨new, newHeld, ownerToo⟩
    exact ⟨new, newHeld, ownerToo.trans owner⟩
  computation id computation found := right.computation id computation (left.computation id computation found)

theorem Permitted.later {before later : Graph} (onward : Onward before later) {task : Task}
    (permitted : Permitted before task) : Permitted later task := by
  have fires {id : ComputationId} (permitted : ∃ computation, before.computation? id = some computation ∧
      before.isComplete computation.owner = true) :
      ∃ computation, later.computation? id = some computation ∧ later.isComplete computation.owner = true := by
    rcases permitted with ⟨computation, found, complete⟩
    exact ⟨computation, onward.computation id computation found, onward.complete _ complete⟩
  cases task with
  | wake socket =>
      rcases permitted with ⟨held, found, complete⟩
      rcases onward.socket socket held found with ⟨new, newFound, owner⟩
      exact ⟨new, newFound, owner ▸ onward.complete _ complete⟩
  | fireSources id => exact onward.complete id permitted
  | fire id => exact fires permitted
  | fireWith id inputs => exact fires permitted
  | _ => trivial

/-! ### What one task tells -/

/-- What a task does to the trace and the marks, for each outcome. -/
inductive Told (hooks : HookRunner) (before later : BuildState) : Except Stop (List Task) → List Event → Prop where
  | ok (tasks : List Task) (events : List Event) (beat : Beat before.graph events later.graph)
      (onward : Onward before.graph later.graph) (permitted : ∀ task ∈ tasks, Permitted later.graph task) :
      Told hooks before later (.ok tasks) events
  | error (stop : Stop) (events : List Event) (beat : Beat before.graph events later.graph) :
      Told hooks before later (.error stop) events
  /-- A hook was run, and its error is that of the task. -/
  | fails (call : Call) (given : Session) (stop : Stop) (incomplete : before.graph.isComplete call.component = false)
      (pending : before.graph.isHookDone call.component = false)
      (has : before.graph.hasHook call.component = true)
      (marked : Completed call.component false before.graph later.graph) (trace : given.trace = later.session.trace)
      (stopped : outcome (hooks call.hook call.component call.spaces) given = .error stop) :
      Told hooks before later (.error stop) [call.started]

/-- A task that touches neither marks nor trace. -/
def Quiet (before later : BuildState) : Prop :=
  before.graph.Stays later.graph ∧ later.session.trace = before.session.trace

instance : IsPreorder BuildState Quiet where
  refl state := ⟨.refl state.graph, rfl⟩
  trans _ _ _ first second := ⟨first.1.trans second.1, second.2.trans first.2⟩

theorem Quiet.tells {before later : BuildState} (quiet : Quiet before later) : Tells before later [] := by
  rw [Tells, quiet.2, List.append_nil]

/-- A quiet task is a beat. -/
theorem Quiet.told {before later : BuildState} (quiet : Quiet before later) {answer : Except Stop (List Task)}
    (permitted : ∀ tasks, answer = .ok tasks → ∀ task ∈ tasks, Permitted later.graph task) :
    ∃ events, Tells before later events ∧ Told hooks before later answer events := by
  refine ⟨[], quiet.tells, ?_⟩
  cases answer with
  | ok tasks => exact .ok tasks [] (.quiet quiet.1) (.of_stays quiet.1) (permitted tasks rfl)
  | error stop => exact .error stop [] (.quiet quiet.1)

namespace Quiet

theorem of_graph {step : GraphM α} (stays : Keeps Stays step) : Keeps Quiet (ofGraph step) :=
  fun state => ⟨stays state.graph, rfl⟩

theorem ask (question : Graph → Except Error α) : Keeps Quiet (Build.ask question) :=
  of_graph (Keeps.query question)

theorem deliver (socket : SocketId) (op : DataOp) : Keeps Quiet (Build.deliver socket op) := by
  intro state
  refine Keeps.get_bind_of ?_
  split
  · exact Keeps.pure _ _
  refine Keeps.bind_of (ask _ state) fun target _ => Keeps.bind_of ?_ fun _ _ => ?_
  · exact ⟨.refl _, rfl⟩
  · split
    · exact Keeps.pure _ _
    · refine Keeps.bind (of_graph ?_) (fun _ => ?_) _
      · exact Stays.structural.editSocket socket fun _ => rfl
      · split
        · exact Keeps.pure _
        · exact Keeps.pure _

theorem forward (socket : SocketId) (op : DataOp) (connection : Connection) :
    Keeps Quiet (Build.forward socket op connection) := by
  cases connection with
  | socket target => exact Keeps.pure _
  | space space => exact Keeps.pure _
  | computation id =>
      refine Keeps.bind (ask _) fun computation => Keeps.bind (ask _) fun owner => ?_
      split
      · exact Keeps.pure _
      split
      · exact Keeps.pure _
      · refine Keeps.bind (of_graph ?_) fun _ => Keeps.pure _
        refine Stays.structural.editComponent computation.owner ?_
        exact ⟨fun _ => rfl, fun _ => rfl, fun _ => rfl, fun _ has => has⟩

theorem runMethod (recording : Recording α) : Keeps Quiet (Build.runMethod recording) := by
  intro state
  refine Keeps.get_bind_of ?_
  split
  · exact Keeps.bind_of ⟨.refl _, rfl⟩ fun _ _ => Keeps.pure _ _
  · exact Keeps.throw _ _

theorem serve : Keeps Quiet Build.serve := by
  intro state
  refine Keeps.get_bind_of ?_
  split
  · exact Keeps.pure _ _
  · exact Keeps.bind_of ⟨.refl _, rfl⟩ fun _ _ => Keeps.bind (ask _) (fun _ => Keeps.pure _) _

end Quiet

/-! ### Completion -/

/-- The marks after a hook, or where there is none to run. -/
theorem completed_of_stays {graph middle : Graph} {id : ComponentId} {node : Component}
    (found : graph.component? id = some node) (stays : (graph.changeComponent id Component.markComplete).Stays middle) :
    Completed id node.hookDone graph middle where
  complete := stays.complete.trans (isComplete_changeComponent found Component.markComplete)
  hookDone := stays.hookDone.trans (isHookDone_changeComponent found Component.markComplete)
  hook other has := stays.hook other (hasHook_changeComponent Component.markComplete (fun _ has => has) other has)
  computation other computation known := stays.computation other computation known

theorem Completed.ready {graph middle : Graph} {id : ComponentId} {done : Bool}
    (marked : Completed id done graph middle) {node : Component} (found : middle.component? id = some node) :
    Completed id true graph (middle.changeComponent id Component.markReady) where
  complete := by
    rw [isComplete_changeComponent found]
    show Function.update middle.isComplete id node.complete = _
    rw [← isComplete_eq found, Function.update_eq_self, marked.complete]
  hookDone := by
    rw [isHookDone_changeComponent found, marked.hookDone, Function.update_idem]
    rfl
  hook other has := hasHook_changeComponent Component.markReady (fun _ has => has) other (marked.hook other has)
  computation other computation known := marked.computation other computation known

theorem onward_of_stays {graph middle : Graph} {id : ComponentId} {node : Component}
    (found : graph.component? id = some node) (stays : (graph.changeComponent id Component.markComplete).Stays middle) :
    Onward graph middle where
  complete other was := by
    rw [(completed_of_stays found stays).complete, Function.update_apply]
    split
    · rfl
    · exact was
  socket other socket held := stays.socket other socket held
  computation other computation known := stays.computation other computation known

theorem Onward.ready {graph middle : Graph} (onward : Onward graph middle) {id : ComponentId} {node : Component}
    (found : middle.component? id = some node) : Onward graph (middle.changeComponent id Component.markReady) := by
  refine onward.trans ⟨fun other was => ?_, fun _ socket held => ⟨socket, held, rfl⟩, fun _ _ known => known⟩
  rw [isComplete_changeComponent found]
  show Function.update middle.isComplete id node.complete other = true
  rw [← isComplete_eq found, Function.update_eq_self]
  exact was

/-- What a completed component waited for belongs to it. -/
theorem permitted_ready {graph : Graph} {id : ComponentId} {node : Component} (waiting : WaitingSound graph)
    (found : graph.component? id = some node) (complete : graph.isComplete id = true) :
    ∀ task ∈ node.deferred.map Task.wake ++ [.fireSources id],
      Permitted (graph.changeComponent id Component.markReady) task := by
  have still : (graph.changeComponent id Component.markReady).isComplete id = true :=
    (Onward.of_stays (.refl graph)).ready found |>.complete id complete
  intro task member
  rcases List.mem_append.mp member with wakes | sources
  · rcases List.mem_map.mp wakes with ⟨socket, waits, rfl⟩
    rcases waiting id socket (deferredOf_eq found ▸ waits) with ⟨held, heldFound, owned⟩
    exact ⟨held, heldFound, owned ▸ still⟩
  · rw [List.mem_singleton.mp sources]
    exact still

theorem sound_markComplete {graph : Graph} (sound : Sound graph) {id : ComponentId} {node : Component}
    (found : graph.component? id = some node) : Sound (graph.changeComponent id Component.markComplete) := by
  refine sound.change (.state _ (wiring_changeComponent _ id _ fun _ => rfl) fun owner socket waits => .inl ?_)
  rw [deferredOf_changeComponent found] at waits
  exact (show Function.update graph.deferredOf id node.deferred = graph.deferredOf by
    rw [← deferredOf_eq found, Function.update_eq_self]) ▸ waits

/-- How a check goes on once the hook has run through, or where there is none to run. -/
theorem told_of_ready {id : ComponentId} {node : Component} (found : state.graph.component? id = some node)
    {middle : BuildState} (ready : (check hooks id).run state = (getReady id).run middle)
    (stays : (state.graph.changeComponent id Component.markComplete).Stays middle.graph) (sound : Sound middle.graph)
    (events : List Event) (trace : middle.session.trace.toList = state.session.trace.toList ++ events)
    (beat : ∀ later, Completed id true state.graph later → Beat state.graph events later) :
    ∃ events, Tells state (after (check hooks id) state) events ∧
      Told hooks state (after (check hooks id) state) (outcome (check hooks id) state) events := by
  have marked : (state.graph.changeComponent id Component.markComplete).component? id = some node.markComplete := by
    rw [component?_changeComponent, if_pos rfl, found]
    rfl
  rcases stays.component id _ marked with ⟨new, newFound⟩
  have ready := ready.trans (run_getReady newFound)
  rw [after_of_run ready, outcome_of_run ready]
  have completed := completed_of_stays found stays
  have complete : middle.graph.isComplete id = true := by
    rw [completed.complete, Function.update_self]
  refine ⟨events, trace, .ok _ _ (beat _ (completed.ready newFound)) ?_ ?_⟩
  · exact (onward_of_stays found stays).ready newFound
  · exact permitted_ready sound.waiting newFound complete

theorem check_told (hooksEdit : hooks.Edits) (sound : Sound state.graph) (id : ComponentId) :
    ∃ events, Tells state (after (check hooks id) state) events ∧
      Told hooks state (after (check hooks id) state) (outcome (check hooks id) state) events := by
  rcases run_check state id with ⟨answer, ran, none⟩ | ⟨node, spaces, found, incomplete, -, ran⟩
  · rw [after_of_run (ran hooks), outcome_of_run (ran hooks)]
    refine Quiet.told (Std.Refl.refl state) fun tasks same task member => ?_
    rw [none tasks same] at member
    cases member
  have ran := (ran hooks).trans (run_completing found spaces)
  have incompleteAt : state.graph.isComplete id = false := (isComplete_eq found).trans incomplete
  generalize opening : { withGraph state (state.graph.changeComponent id Component.markComplete) with
    completed := state.completed.push id } = opened at ran
  have openedGraph : opened.graph = state.graph.changeComponent id Component.markComplete := by rw [← opening]; rfl
  have openedTrace : opened.session.trace = state.session.trace := by rw [← opening]; rfl
  have soundOpened : Sound opened.graph := openedGraph ▸ sound_markComplete sound found
  by_cases settled : node.hook = none ∨ node.hookDone = true
  · rw [runHook_settled settled] at ran
    refine told_of_ready found ran (openedGraph ▸ .refl _) soundOpened [] ?_ fun later marked => ?_
    · rw [openedTrace, List.append_nil]
    refine .completes id incompleteAt ?_ marked
    rw [hasHook_eq found, isHookDone_eq found]
    exact settled.imp_left fun none => by rw [none]; rfl
  · rcases not_or.mp settled with ⟨some, pending⟩
    rcases Option.ne_none_iff_exists'.mp some with ⟨hook, chosen⟩
    have pending : node.hookDone = false := Bool.not_eq_true _ ▸ pending
    have pendingAt : state.graph.isHookDone id = false := (isHookDone_eq found).trans pending
    let call : Call := ⟨id, hook, Keyed.ofList spaces⟩
    rcases hooksEdit hook id (Keyed.ofList spaces) (calling opened.session call) with ⟨edits, trace⟩
    have edits : opened.graph.Edits (after (hooks hook id (Keyed.ofList spaces)) (calling opened.session call)).graph :=
      edits
    have openedCall : (calling opened.session call).trace = state.session.trace.push call.started := by
      show opened.session.trace.push call.started = _
      rw [openedTrace]
    cases answered : outcome (hooks hook id (Keyed.ofList spaces)) (calling opened.session call) with
    | error stop =>
        have ran := ran.trans (run_bind_error
          (run_runHook_error opened call chosen pending answered) _)
        rw [after_of_run ran, outcome_of_run ran]
        refine ⟨[call.started], ?_,
          .fails call (calling opened.session call) stop incompleteAt pendingAt ?_ ?_ ?_ answered⟩
        · show (after (hooks hook id (Keyed.ofList spaces)) (calling opened.session call)).trace.toList = _
          rw [trace, openedCall, Array.toList_push]
        · rw [hasHook_eq found, chosen]
          rfl
        · have marked := completed_of_stays found (openedGraph ▸ edits.stays)
          rwa [pending] at marked
        · exact trace.symm
    | ok =>
        have ran := ran.trans (run_bind_ok
          (run_runHook_ok opened call chosen pending answered) _)
        refine told_of_ready found ran (openedGraph ▸ edits.stays) (soundOpened.changes edits.reaches.changes)
          [call.started, .hookFinished id] ?_ fun later marked => ?_
        · show ((after (hooks hook id (Keyed.ofList spaces)) (calling opened.session call)).trace.push
            (.hookFinished id)).toList = _
          rw [trace, openedCall, Array.toList_push, Array.toList_push, List.append_assoc]
          rfl
        · exact .calls id hook _ incompleteAt pendingAt marked

/-! ### Tasks -/

theorem Quiet.firing (graph : Graph) (id : ComputationId) (inputs : List DataOp) :
    Keeps Quiet (Build.firing graph id inputs) := by
  refine Keeps.bind (ask _) fun computation => Keeps.bind (ask _) fun owner => ?_
  split
  · exact Keeps.throw _
  · exact Keeps.bind (runMethod _) fun outputs => Keeps.pure _

/-- What a task gives rise to is permitted whatever the graph is like. -/
abbrev Plain (step : BuildM (List Task)) : Prop :=
  Answers (fun tasks : List Task => ∀ task ∈ tasks, ∀ graph, Permitted graph task) step

theorem plain_map (make : β → Task) (permitted : ∀ item graph, Permitted graph (make item)) (items : List β) :
    Plain (pure (items.map make)) := by
  refine Answers.pure fun task member graph => ?_
  rcases List.mem_map.mp member with ⟨item, -, rfl⟩
  exact permitted item graph

theorem plain_deliver (socket : SocketId) (op : DataOp) : Plain (deliver socket op) := by
  have nothing : Plain (pure []) := Answers.pure fun _ member => nomatch member
  refine Answers.bind fun state => ?_
  split
  · exact nothing
  refine Answers.bind fun target => Answers.bind fun _ => ?_
  split
  · exact nothing
  refine Answers.bind fun _ => ?_
  split
  · exact plain_map .check (fun _ _ => trivial) [target.owner]
  · exact nothing

theorem plain_firing (graph : Graph) (id : ComputationId) (inputs : List DataOp) : Plain (firing graph id inputs) := by
  refine Answers.bind fun computation => Answers.bind fun owner => ?_
  split
  · exact Answers.throw _
  · refine Answers.bind fun outputs => ?_
    exact plain_map (fun output : SocketId × DataOp => .deliver output.1 output.2) (fun _ _ => trivial) _

theorem Quiet.told_of_plain {step : BuildM (List Task)} (quiet : Keeps Quiet step) (plain : Plain step) :
    ∃ events, Tells state (after step state) events ∧
      Told hooks state (after step state) (outcome step state) events :=
  (quiet state).told fun tasks answered task member => plain state tasks answered task member _

/-- Firing on one combination writes one event, also where the method fails. -/
theorem fireWith_told {id : ComputationId} {inputs : List DataOp}
    (permitted : Permitted state.graph (.fireWith id inputs)) :
    ∃ events, Tells state (after (fireWith id inputs) state) events ∧
      Told hooks state (after (fireWith id inputs) state) (outcome (fireWith id inputs) state) events := by
  by_cases known : (id, inputs.map DataOp.id) ∈ state.fired
  · have ran : (fireWith id inputs).run state = (.ok [], state) := by
      unfold fireWith
      rw [run_bind_ok (run_get state)]
      simp only [if_pos known]
      rfl
    rw [after_of_run ran, outcome_of_run ran]
    exact Quiet.told_of_plain (Keeps.pure []) (plain_map .check (fun _ _ => trivial) [])
  · rcases permitted with ⟨computation, found, complete⟩
    have same : (after (fireWith id inputs) state).graph = state.graph := Eq.symm (keeps_fireWith id inputs state)
    have ran := (run_fireWith known).trans (run_eq _ _)
    have beat := Beat.fires id computation (inputs.map DataOp.id) found complete
    refine ⟨[.fired id (inputs.map DataOp.id)], ?_, ?_⟩
    · rw [after_of_run ran, Tells, (Quiet.firing state.graph id inputs _).2]
      exact Array.toList_push
    · cases answered : outcome (fireWith id inputs) state with
      | error stop => exact .error stop _ (same ▸ beat)
      | ok tasks =>
          refine .ok tasks _ (same ▸ beat) (same ▸ .of_stays (.refl _)) fun task member => ?_
          exact plain_firing _ id inputs _ tasks ((outcome_of_run ran).symm.trans answered) task member _

/-- A quiet task gives rise to what is permitted already. -/
theorem Quiet.told_of_permits {step : BuildM (List Task)} (quiet : Keeps Quiet step)
    (permits : ∀ tasks, outcome step state = .ok tasks → ∀ task ∈ tasks, Permitted state.graph task) :
    ∃ events, Tells state (after step state) events ∧
      Told hooks state (after step state) (outcome step state) events :=
  (quiet state).told fun tasks answered task member =>
    (permits tasks answered task member).later (.of_stays (quiet state).1)

/-- A computation is only fired if its component is complete. -/
theorem forward_permits {socket : SocketId} {op : DataOp} {connection : Connection} {tasks : List Task}
    (answered : outcome (forward socket op connection) state = .ok tasks) :
    ∀ task ∈ tasks, Permitted state.graph task := by
  intro task member
  cases connection with
  | socket target =>
      obtain rfl : [Task.deliver target op] = tasks := Except.ok.inj answered
      rw [List.mem_singleton.mp member]
      trivial
  | space space =>
      obtain rfl : [] = tasks := Except.ok.inj answered
      cases member
  | computation id =>
      rcases of_ask_bind answered with ⟨computation, held, answered⟩
      rcases of_ask_bind answered with ⟨owner, ownerHeld, answered⟩
      by_cases complete : owner.complete = true
      · rw [if_pos complete] at answered
        obtain rfl := Except.ok.inj answered
        rw [List.mem_singleton.mp member]
        exact ⟨computation, heldComputation_eq_ok.mp held,
          (isComplete_eq (heldComponent_eq_ok.mp ownerHeld)).trans complete⟩
      · rw [if_neg complete] at answered
        have none : Plain (do
            if socket ∈ owner.deferred then return []
            ofGraph (Graph.editComponent computation.owner (Component.defer socket))
            return []) := by
          split
          · exact plain_map .check (fun _ _ => trivial) []
          · exact Answers.bind fun _ => plain_map .check (fun _ _ => trivial) []
        exact none state tasks answered task member _

/-- Every task is one beat, whatever its outcome. -/
theorem perform_told (hooksEdit : hooks.Edits) (sound : Sound state.graph) {task : Task}
    (permitted : Permitted state.graph task) :
    ∃ events, Tells state (after (perform hooks task) state) events ∧
      Told hooks state (after (perform hooks task) state) (outcome (perform hooks task) state) events := by
  cases task with
  | seed id =>
      refine Quiet.told_of_plain ?_ ?_
      · exact Keeps.bind (Quiet.ask _) fun _ => Keeps.pure _
      · exact Answers.bind fun node => plain_map (.seedSocket id) (fun _ _ => trivial) node.sockets
  | seedSocket id socket =>
      refine Quiet.told_of_plain ?_ ?_
      · exact Keeps.bind (Quiet.ask _) fun _ => Keeps.pure _
      · exact Answers.bind fun target => plain_map (.place id socket) (fun _ _ => trivial) _
  | place id socket space =>
      refine Quiet.told_of_plain ?_ ?_
      · intro state
        refine Keeps.get_bind_of ?_
        exact Keeps.bind_of ⟨.refl _, rfl⟩ fun _ _ => Keeps.pure _ _
      · exact Answers.bind fun state => Answers.bind fun _ => plain_map (.deliver socket) (fun _ _ => trivial) [_]
  | deliver socket op => exact Quiet.told_of_plain (.deliver socket op) (plain_deliver socket op)
  | check id => exact check_told hooksEdit sound id
  | forward socket op connection =>
      exact Quiet.told_of_permits (.forward socket op connection) fun tasks => forward_permits
  | wake socket =>
      refine Quiet.told_of_permits (Keeps.bind (Quiet.ask _) fun _ => Keeps.pure _) fun tasks answered task member => ?_
      rcases of_ask_bind answered with ⟨target, held, answered⟩
      obtain rfl := Except.ok.inj answered
      rcases List.mem_map.mp member with ⟨id, reads, rfl⟩
      have found := heldSocket_eq_ok.mp held
      rcases permitted with ⟨known, knownHeld, complete⟩
      obtain rfl := Option.some.inj (knownHeld.symm.trans found)
      rcases sound.reader found (mem_computationEntries.mp reads) with ⟨computation, computationFound, owned⟩
      exact ⟨computation, computationFound, owned ▸ complete⟩
  | fireSources id =>
      refine Quiet.told_of_permits (Keeps.bind (Quiet.ask _) fun _ => Keeps.pure _) fun tasks answered task member => ?_
      rcases of_ask_bind answered with ⟨node, held, answered⟩
      obtain rfl := Except.ok.inj answered
      rcases List.mem_map.mp member with ⟨source, isSource, rfl⟩
      rcases sound.source (heldComponent_eq_ok.mp held) isSource with ⟨computation, found, owned⟩
      exact ⟨computation, found, owned ▸ permitted⟩
  | fire id =>
      refine Quiet.told_of_permits
        (Keeps.bind (Quiet.ask _) fun _ => Keeps.bind Keeps.get fun _ => Keeps.pure _) fun tasks answered task member => ?_
      rcases of_ask_bind answered with ⟨computation, held, answered⟩
      obtain rfl := Except.ok.inj answered
      rcases List.mem_map.mp member with ⟨inputs, -, rfl⟩
      exact permitted
  | fireWith id inputs => exact fireWith_told permitted

/-! ### The work of a build -/

/-- What a build itself edits is a change. -/
theorem changes_of_wiring (before later : Graph) (same : later.wiring = before.wiring) (_ : before.SameVariables later)
    (waiting : ∀ owner, ∀ socket ∈ later.deferredOf owner,
      socket ∈ before.deferredOf owner ∨ before.MayWait owner socket) : Changes before later :=
  .single (.state later same waiting)

section HooksReach

variable (hooksReach : ∀ hook id spaces given, Reaches given.graph (after (hooks hook id spaces) given).graph)
include hooksReach

theorem changes_of_reaches {task : Task} (fed : Fed state.graph task) :
    Changes state.graph (after (perform hooks task) state).graph :=
  perform_of changes_of_wiring (fun hook id spaces given => (hooksReach hook id spaces given).changes) fed

theorem changes_work (fuel : Nat) {tasks : List Task} (fed : ∀ task ∈ tasks, Fed state.graph task) :
    Changes state.graph (after (work hooks fuel tasks) state).graph :=
  work_of changes_of_wiring (fun _ _ changes _ _ => Changes.feeds changes)
    (fun hook id spaces given => (hooksReach hook id spaces given).changes) fuel fed

end HooksReach

theorem changes_perform (hooksEdit : hooks.Edits) {task : Task} (fed : Fed state.graph task) :
    Changes state.graph (after (perform hooks task) state).graph :=
  changes_of_reaches (fun hook id spaces given => (hooksEdit hook id spaces given).1.reaches) fed

/-- Arrivals are only passed on. -/
theorem permitted_serve (state : BuildState) (tasks : List Task) (served : outcome serve state = .ok (some tasks)) :
    ∀ task ∈ tasks, Permitted (after serve state).graph task := by
  have answers : Answers (fun answer : Option (List Task) =>
      ∀ tasks, answer = some tasks → ∀ task ∈ tasks, ∀ graph, Permitted graph task) serve := by
    refine Answers.bind fun state => ?_
    split
    · exact Answers.pure fun _ same => nomatch same
    · refine Answers.bind fun _ => Answers.bind fun source => Answers.pure fun tasks same task member graph => ?_
      obtain rfl := Option.some.inj same
      rcases List.mem_map.mp member with ⟨connection, -, rfl⟩
      trivial
  exact fun task member => answers state _ served tasks rfl task member _

/-- Tasks that may come up in a sound graph. -/
structure Underway (graph : Graph) (tasks : List Task) : Prop where
  sound : Sound graph
  permitted : ∀ task ∈ tasks, Permitted graph task
  fed : ∀ task ∈ tasks, Fed graph task

namespace Underway

theorem initial {graph : Graph} (sound : Sound graph) (members : List ComponentId) :
    Underway graph (initialTasks members) where
  sound := sound
  permitted task member := by
    rcases mem_initialTasks member with ⟨id, -, rfl⟩ | ⟨id, -, rfl⟩
    · trivial
    · trivial
  fed := fed_initialTasks members graph

theorem serve (underway : Underway state.graph []) {tasks : List Task}
    (served : outcome Build.serve state = .ok (some tasks)) : Underway (after Build.serve state).graph tasks where
  sound := (serve_graph state).symm ▸ underway.sound
  permitted := permitted_serve state tasks served
  fed := (serve_graph state).symm ▸ serve_fed served

theorem perform (hooksEdit : hooks.Edits) {task : Task} {waiting more : List Task}
    (underway : Underway state.graph (task :: waiting)) (performed : outcome (Build.perform hooks task) state = .ok more) :
    Underway (after (Build.perform hooks task) state).graph (more ++ waiting) := by
  have changes := changes_perform hooksEdit (underway.fed task List.mem_cons_self)
  rcases perform_told hooksEdit underway.sound (underway.permitted task List.mem_cons_self) with ⟨events, -, told⟩
  rw [performed] at told
  refine ⟨underway.sound.changes changes, fun other member => ?_, fun other member => ?_⟩
  · cases told with
    | ok _ _ _ onward permitted =>
        rcases List.mem_append.mp member with new | old
        · exact permitted other new
        · exact (underway.permitted other (List.mem_cons_of_mem task old)).later onward
  · rcases List.mem_append.mp member with new | old
    · exact answers_perform hooks task state more performed other new _
    · exact Fed.later (fun _ _ changes _ _ => Changes.feeds changes) changes
        (underway.fed other (List.mem_cons_of_mem task old))

end Underway

/-- The tale of the work of a build. It breaks off only if the work stops with the error of a hook. -/
theorem work_tells (state : BuildState) (hooksEdit : hooks.Edits) (fuel : Nat) {tasks : List Task}
    (underway : Underway state.graph tasks) :
    ∃ events ending, Tells state (after (work hooks fuel tasks) state) events ∧
      Tale state.graph events (after (work hooks fuel tasks) state).graph ending ∧
      ∀ call, ending = some call → ∃ given stop,
        given.trace = (after (work hooks fuel tasks) state).session.trace ∧
        outcome (hooks call.hook call.component call.spaces) given = .error stop ∧
        outcome (work hooks fuel tasks) state = .error stop := by
  induction fuel generalizing state tasks with
  | zero => exact ⟨[], none, (List.append_nil _).symm, .done _, fun _ same => nomatch same⟩
  | succ fuel inductionHypothesis =>
      cases tasks with
      | nil =>
          have quiet : Quiet state (after serve state) := Quiet.serve state
          cases served : outcome serve state with
          | error stop =>
              have ran : (work hooks (fuel + 1) []).run state = (.error stop, after serve state) :=
                run_bind_error (by rw [run_eq, served]) _
              rw [after_of_run ran]
              exact ⟨[] ++ [], none, quiet.tells, .beat (.quiet quiet.1) (.done _), fun _ same => nomatch same⟩
          | ok answer =>
              have ran : (work hooks (fuel + 1) []).run state = _ :=
                run_bind_ok (show serve.run state = (.ok answer, after serve state) by rw [run_eq, served]) _
              cases answer with
              | none =>
                  rw [after_of_run (ran.trans (run_pure _ _))]
                  exact ⟨[] ++ [], none, quiet.tells, .beat (.quiet quiet.1) (.done _), fun _ same => nomatch same⟩
              | some more =>
                  have ran := ran.trans (run_eq (work hooks fuel more) (after serve state))
                  rw [after_of_run ran, outcome_of_run ran]
                  rcases inductionHypothesis (after serve state) (underway.serve served) with
                    ⟨events, ending, tells, tale, ends⟩
                  exact ⟨[] ++ events, ending, quiet.tells.trans tells, .beat (.quiet quiet.1) tale, ends⟩
      | cons task waiting =>
          rcases perform_told hooksEdit underway.sound (underway.permitted task List.mem_cons_self) with
            ⟨events, tells, told⟩
          have onward {more : List Task} := @underway.perform hooks state hooksEdit task waiting more
          generalize middle : after (perform hooks task) state = done at tells told onward
          generalize answered : outcome (perform hooks task) state = answer at told onward
          have performed : (perform hooks task).run state = (answer, done) := by rw [run_eq, answered, middle]
          cases told with
          | error stop _ beat =>
              have ran : (work hooks (fuel + 1) (task :: waiting)).run state = (.error stop, done) :=
                run_bind_error performed _
              rw [after_of_run ran]
              exact ⟨events ++ [], none, tells.trans (List.append_nil _).symm, .beat beat (.done _),
                fun _ same => nomatch same⟩
          | fails call given stop incomplete pending has marked trace stopped =>
              have ran : (work hooks (fuel + 1) (task :: waiting)).run state = (.error stop, done) :=
                run_bind_error performed _
              rw [after_of_run ran, outcome_of_run ran]
              refine ⟨_, some call, tells, .fails call incomplete pending has marked, ?_⟩
              intro other same
              obtain rfl := Option.some.inj same
              exact ⟨given, stop, trace, stopped, rfl⟩
          | ok more _ beat =>
              have ran : (work hooks (fuel + 1) (task :: waiting)).run state = _ := run_bind_ok performed _
              have ran := ran.trans (run_eq (work hooks fuel (more ++ waiting)) done)
              rw [after_of_run ran, outcome_of_run ran]
              rcases inductionHypothesis done (onward rfl) with ⟨rest, ending, tellsRest, tale, ends⟩
              exact ⟨events ++ rest, ending, tells.trans tellsRest, .beat beat tale, ends⟩

/-! ### A whole build -/

/-- Nothing but the marks of completion differs, and these only at members. -/
structure Clears (members : List ComponentId) (before later : Graph) : Prop where
  others : ∀ id ∉ members, later.isComplete id = before.isComplete id
  hookDone : later.isHookDone = before.isHookDone
  hook : ∀ id, before.hasHook id = true → later.hasHook id = true
  computation : ∀ id computation, before.computation? id = some computation →
    later.computation? id = some computation

instance (members : List ComponentId) : IsPreorder Graph (Clears members) where
  refl _ := ⟨fun _ _ => rfl, rfl, fun _ has => has, fun _ _ found => found⟩
  trans _ _ _ first second := ⟨fun id other => (second.others id other).trans (first.others id other),
    second.hookDone.trans first.hookDone, fun id has => second.hook id (first.hook id has),
    fun id computation found => second.computation id computation (first.computation id computation found)⟩

theorem Clears.of_stays {members : List ComponentId} {before later : Graph} (stays : before.Stays later) :
    Clears members before later :=
  ⟨fun _ _ => by rw [stays.complete], stays.hookDone, stays.hook, stays.computation⟩

theorem clears_reset (members : List ComponentId) : Keeps (Clears members) (members.forM reset) := by
  have each (id : ComponentId) (member : id ∈ members) : Keeps (Clears members) (reset id) := by
    refine Keeps.bind (Keeps.query _) fun node => Keeps.bind (Keeps.forM (fun socket => ?_) node.sockets) fun _ => ?_
    · have stays : Keeps Stays (Graph.editSocket socket Socket.clear) :=
        Stays.structural.editSocket socket fun _ => rfl
      exact fun graph => .of_stays (stays graph)
    · intro graph
      refine Keeps.query_bind_of fun node held => ?_
      have found := heldComponent_eq_ok.mp held
      refine ⟨fun other notMember => ?_, ?_, ?_, fun _ _ known => known⟩
      · show (graph.changeComponent id Component.clear).isComplete other = _
        rw [isComplete_changeComponent found, Function.update_of_ne]
        rintro rfl
        exact notMember member
      · show (graph.changeComponent id Component.clear).isHookDone = _
        rw [isHookDone_changeComponent found]
        show Function.update graph.isHookDone id node.hookDone = _
        rw [← isHookDone_eq found, Function.update_eq_self]
      · exact hasHook_changeComponent Component.clear fun _ has => has
  exact Keeps.forM_of_mem each

/-- What a whole build does, in terms of the graph in which its work begins. -/
structure Recounted (hooks : HookRunner) (root : ComponentId) (session final : Session) (answer : Except Stop Report)
    (members : List ComponentId) (opened : Graph) (events : List Event) (ending : Option Call) : Prop where
  listed : (session.graph.subtree root).toOption.getD [] = members
  clears : Clears members session.graph opened
  cleared : ∀ id ∈ members, opened.isComplete id = false
  trace : final.trace.toList = session.trace.toList ++ .buildStarted root :: events
  tale : Tale opened events final.graph ending
  stopped : ∀ call, ending = some call → ∃ given stop, given.trace = final.trace ∧
    outcome (hooks call.hook call.component call.spaces) given = .error stop ∧ answer = .error stop

/-- A build tells a tale, whatever its outcome. -/
theorem run_tells (hooksEdit : hooks.Edits) {session final : Session} (sound : Sound session.graph) {fuel : Nat}
    {root : ComponentId} {config : BuildConfig} {answer : Except Stop Report}
    (ran : (run hooks fuel root config).run session = (answer, final)) :
    ∃ members opened events ending, Recounted hooks root session final answer members opened events ending := by
  cases listed : session.graph.subtree root with
  | error error =>
      rw [run_unlisted listed] at ran
      obtain ⟨rfl, rfl⟩ := Prod.mk.inj ran
      refine ⟨[], session.graph, [], none, ⟨?_, Std.Refl.refl _, ?_, Array.toList_push, .done _, ?_⟩⟩
      · rw [listed]
        rfl
      · exact fun _ member => nomatch member
      · exact fun _ same => nomatch same
  | ok members =>
      have exist : ∀ member ∈ members, ∃ node, session.graph.component? member = some node :=
        fun member isMember => subtree_found sound.tree listed isMember
      have cleared := run_resets members sound.sockets exist
      rw [run_conclude listed cleared] at ran
      have soundOpened := sound.wiped members
      have incomplete : ∀ id ∈ members, (session.graph.wiped members).isComplete id = false :=
        fun id member => (isComplete_wiped _ _ id).trans (if_pos member)
      generalize session.graph.wiped members = opened at cleared ran soundOpened incomplete
      have underway : Underway (startState session root opened).graph (initialTasks members) :=
        .initial soundOpened members
      rcases work_tells (startState session root opened) hooksEdit fuel underway with
        ⟨events, ending, tells, tale, stopped⟩
      have answered := outcome_of_run ran
      have ended := (after_conclude config members _ _ _).symm.trans (after_of_run ran)
      refine ⟨members, opened, events, ending, ⟨?_, ?_, incomplete, ?_, ended ▸ tale, ?_⟩⟩
      · rw [listed]
        rfl
      · rw [← after_of_run cleared]
        exact clears_reset members session.graph
      · rw [← ended, tells]
        show (session.trace.push (.buildStarted root)).toList ++ events = _
        rw [Array.toList_push, List.append_assoc]
        rfl
      · intro call same
        rcases stopped call same with ⟨given, stop, trace, error, workStopped⟩
        refine ⟨given, stop, trace.trans (congrArg Session.trace ended), error, ?_⟩
        rw [← answered, workStopped]
        rfl

end Wiring.Build
