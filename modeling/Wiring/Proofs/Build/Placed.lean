import Wiring.Execution
import Wiring.Proofs.Build.Keeps
import Wiring.Proofs.Build.Start
import Wiring.Proofs.Build.Termination
import Wiring.Proofs.Graph.Placed
import Wiring.Proofs.Keyed

/-!
Contract: builds of a part of a graph, wherever it stands.

Owns: that every task of a build does to a part in its place what it does to the part on its own, and so does the
whole work and the build of a subtree; the ops that arrive are the same, with the spaces that the part's spaces stand
for. Hooks that look at spaces come to the same verdict.

Does not own: which parts there are.
-/

namespace Wiring

/-- Hooks that are run by the same means as everything else. -/
def Execution.hooksOf (execute : ComponentId → Operation → SessionM Answer) : HookRunner :=
  fun hook id spaces => Execution.runHook (execute id) spaces hook

namespace Placement

open Wiring.Graph Build Execution

variable (place : Placement)

def arrival (given : Arrival) : Arrival :=
  ⟨place.socket given.socket, place.op given.op⟩

def firing (given : ComputationId × List OpId) : ComputationId × List OpId :=
  (place.computation given.1, given.2)

def task : Task → Task
  | .seed id => .seed (place.component id)
  | .seedSocket id socket => .seedSocket (place.component id) (place.socket socket)
  | .place id socket space => .place (place.component id) (place.socket socket) (place.space space)
  | .deliver socket op => .deliver (place.socket socket) (place.op op)
  | .check id => .check (place.component id)
  | .forward socket op connection => .forward (place.socket socket) (place.op op) (place.connection connection)
  | .wake socket => .wake (place.socket socket)
  | .fireSources id => .fireSources (place.component id)
  | .fire id => .fire (place.computation id)
  | .fireWith id inputs => .fireWith (place.computation id) (inputs.map place.op)

/-- The same has happened in the build of the whole as in that of the part. -/
structure InStep (state other : BuildState) : Prop where
  graph : place.Holds state.session.graph other.session.graph
  log : other.log = place.log state.log
  arrivals : other.arrivals = state.arrivals.map place.arrival
  served : other.served = state.served
  fired : other.fired = state.fired.map place.firing
  completed : other.completed = state.completed.map place.component

def spaces (given : Keyed Space) : Keyed Space :=
  Keyed.mapValues (fun _ => place.space) given

/-- Sessions whose graphs correspond. -/
def Meets (session other : Session) : Prop :=
  place.Holds session.graph other.graph

section

variable {place} {α β : Type} {agree : α → β → Prop}

/-! ### Steps of a graph within sessions and builds -/

theorem echo_stopOnError {answer : Except Error α} {other : Except Error β} (echo : Echo agree answer other) :
    Echo agree (Session.stopOnError answer) (Session.stopOnError other) := by
  cases echo with
  | ok agrees => exact .ok agrees
  | error same => exact .error same

theorem follows_ofGraph {step : GraphM α} {stepToo : GraphM β} {session sessionToo : Session}
    (follows : Follows place.Holds agree step stepToo session.graph sessionToo.graph) :
    Follows place.Meets agree (Session.ofGraph step) (Session.ofGraph stepToo) session sessionToo :=
  ⟨echo_stopOnError follows.answers, follows.leaves⟩

theorem InStep.ofSession {step : SessionM α} {stepToo : SessionM β} {state other : BuildState}
    (inStep : place.InStep state other) (follows : Follows place.Meets agree step stepToo state.session other.session) :
    Follows place.InStep agree (Build.ofSession step) (Build.ofSession stepToo) state other :=
  ⟨follows.answers, { inStep with graph := follows.leaves }⟩

theorem InStep.ofGraph {step : GraphM α} {stepToo : GraphM β} {state other : BuildState}
    (inStep : place.InStep state other)
    (follows : Follows place.Holds agree step stepToo state.session.graph other.session.graph) :
    Follows place.InStep agree (Build.ofGraph step) (Build.ofGraph stepToo) state other :=
  inStep.ofSession (follows_ofGraph follows)

theorem InStep.ask {question questionToo : _} {state other : BuildState} (inStep : place.InStep state other)
    (echo : Echo agree (question state.session.graph) (questionToo other.session.graph)) :
    Follows place.InStep agree (Build.ask question) (Build.ask questionToo) state other :=
  inStep.ofGraph (follows_query inStep.graph echo)

/-! ### Arrivals -/

theorem opsAt_map (arrivals : Array Arrival) (socket : SocketId) :
    opsAt (arrivals.map place.arrival) (place.socket socket) = (opsAt arrivals socket).map place.op := by
  unfold opsAt
  rw [Array.toList_map, List.filter_map, List.map_map, List.map_map]
  refine congrArg (List.map _) (List.filter_congr fun arrival _ => ?_)
  exact decide_eq_decide.mpr place.socket_inj

theorem known_map (ops : List DataOp) (id : OpId) :
    ((ops.map place.op).any fun known => known.id = id) = ops.any fun known => known.id = id := by
  rw [List.any_map]
  rfl

theorem combinations_map (lists : List (List DataOp)) :
    combinations (lists.map (List.map place.op)) = (combinations lists).map (List.map place.op) := by
  induction lists with
  | nil => rfl
  | cons ops rest inductionHypothesis =>
      rw [List.map_cons, combinations, combinations, inductionHypothesis, List.flatMap_map, List.map_flatMap]
      refine List.flatMap_congr fun op _ => ?_
      rw [List.map_map, List.map_map]
      rfl

/-! ### Hooks -/

/-- A check of the space of one socket, if there is one. -/
theorem echo_check {passes : Space → Bool} (same : ∀ space, passes (place.space space) = passes space)
    (refusal : Space → Error) (kind : ∀ space other, (refusal space).kind = (refusal other).kind) (key : String)
    (given : Keyed Space) {next nextToo : Except Error Unit} (rest : Echo (Any Unit Unit) next nextToo) :
    Echo (Any Unit Unit)
      (match Keyed.get? given key with
        | some space => if (!passes space) = true then .error (refusal space) else next
        | none => next)
      (match Keyed.get? (place.spaces given) key with
        | some space => if (!passes space) = true then .error (refusal space) else nextToo
        | none => nextToo) := by
  rw [show Keyed.get? (place.spaces given) key = (Keyed.get? given key).map place.space from
    Keyed.get?_mapValues _ _ _]
  cases Keyed.get? given key with
  | none => exact rest
  | some space =>
      dsimp only [Option.map_some]
      rw [same]
      split
      · exact .error (congrArg some (kind _ _))
      · exact rest

/-- Hooks that look at spaces come to the same verdict on spaces that they cannot tell apart. -/
theorem echo_checkInputs (given : Keyed Space) :
    Echo (Any Unit Unit) (Exploration.checkInputs given) (Exploration.checkInputs (place.spaces given)) :=
  echo_check place.isBoxOf Error.switchNotBool (fun _ _ => rfl) "use_exploration" given
    (echo_check place.hasBatchRank Error.actionsWithoutBatchRank (fun _ _ => rfl) "actions" given (.ok trivial))

/-! ### Firings -/

/-- A computation that is not split calls its method once. -/
theorem apply_unsplit (method : Method) {settings : Settings} (unsplit : settings.splitOps = false)
    (context : MethodContext) (inputs : List DataOp) : method.apply settings context inputs =
      method.call { context with key := if settings.passKey then some "" else none } inputs := by
  unfold Method.apply Method.splits
  rw [unsplit, Bool.and_false, Bool.false_and]
  exact if_neg Bool.false_ne_true

theorem echo_call {method : Method} (carries : place.Carries method) {context contextToo : MethodContext}
    (owner : contextToo.component = place.component context.component) (inputs : List DataOp)
    {recorder recorderToo : Recorder} (logs : recorderToo.log = place.log recorder.log) :
    Echo (fun made madeToo => madeToo.1 = made.1.map place.op ∧ madeToo.2.log = place.log made.2.log)
      (method.call context inputs recorder) (method.call contextToo (inputs.map place.op) recorderToo) := by
  refine (carries context contextToo owner inputs recorder recorderToo logs).bind fun made madeToo same => ?_
  obtain ⟨returned, log⟩ := made
  obtain ⟨returnedToo, logToo⟩ := madeToo
  obtain ⟨rfl, logs⟩ := same
  dsimp only
  rw [List.length_map]
  split
  · exact .ok ⟨rfl, logs⟩
  · exact .error rfl

theorem echo_apply {method : Method} (carries : place.Carries method) {settings : Settings}
    (unsplit : settings.splitOps = false) {context contextToo : MethodContext}
    (owner : contextToo.component = place.component context.component) (inputs : List DataOp)
    {recorder recorderToo : Recorder} (logs : recorderToo.log = place.log recorder.log) :
    Echo (fun made madeToo => madeToo.1 = made.1.map place.op ∧ madeToo.2.log = place.log made.2.log)
      (method.apply settings context inputs recorder)
      (method.apply settings contextToo (inputs.map place.op) recorderToo) := by
  rw [apply_unsplit method unsplit, apply_unsplit method unsplit]
  refine echo_call carries ?_ inputs logs
  exact owner

/-! ### Tasks -/

/-- The spaces of the in-sockets, as far as they are known. -/
theorem echo_inputSpaces {part whole : Graph} (holds : place.Holds part whole) (ids : List SocketId) :
    Echo (fun spaces same => same = spaces.map place.spaces) (inputSpaces? part ids)
      (inputSpaces? whole (ids.map place.socket)) := by
  induction ids with
  | nil => exact .ok rfl
  | cons id rest inductionHypothesis =>
      refine (echo_heldSocket holds id).bind fun socket other same => ?_
      subst same
      dsimp only [Placement.port]
      cases socket.space with
      | none => exact .ok rfl
      | some space =>
          refine inductionHypothesis.bind fun spaces same equal => ?_
          subst equal
          cases spaces with
          | none => exact .ok rfl
          | some spaces => exact .ok rfl

variable {state other : BuildState} (inStep : place.InStep state other)
include inStep

theorem follows_deliver (socket : SocketId) (op : DataOp) :
    Follows place.InStep (fun tasks same => same = tasks.map place.task) (deliver socket op)
      (deliver (place.socket socket) (place.op op)) state other := by
  refine (Follows.get inStep).bind fun before beforeToo held _ inStep => ?_
  rw [held.arrivals, opsAt_map, known_map]
  show Follows _ _ (if ((opsAt before.arrivals socket).any fun known => known.id = op.id) = true then _ else _)
    (if ((opsAt before.arrivals socket).any fun known => known.id = op.id) = true then _ else _) _ _
  split
  · exact .pure inStep rfl
  refine (inStep.ask (echo_heldSocket inStep.graph socket)).bind fun target targetToo same _ _ => ?_
  subst same
  have arrived : place.InStep { before with arrivals := before.arrivals.push ⟨socket, op⟩ }
      { beforeToo with arrivals := (before.arrivals.map place.arrival).push ⟨place.socket socket, place.op op⟩ } :=
    { held with arrivals := by rw [Array.map_push]; rfl }
  refine (Follows.set arrived).bind fun _ _ _ _ inStep => ?_
  rw [show (place.port target).space.isSome = target.space.isSome from Option.isSome_map]
  split
  · exact .pure inStep rfl
  refine (inStep.ofGraph (follows_editSocket inStep.graph socket fun socket => ?_)).bind fun _ _ _ _ inStep => ?_
  · rfl
  show Follows _ _ _ (if target.isInterfaceInput = true then _ else _) _ _
  split
  · exact .pure inStep rfl
  · exact .pure inStep rfl

theorem InStep.follows_runHook (execute executeToo : ComponentId → Operation → SessionM Answer) (id : ComponentId)
    {node nodeToo : Component} (stands : place.Node node nodeToo) (spaces : Keyed Space) :
    Follows place.InStep (Any Unit Unit) (Build.runHook (hooksOf execute) id node spaces)
      (Build.runHook (hooksOf executeToo) (place.component id) nodeToo (place.spaces spaces)) state other := by
  unfold Build.runHook
  rw [stands.hook, stands.hookDone]
  rcases stands.looks with none | looking
  · rw [none]
    exact .pure inStep trivial
  rw [looking]
  dsimp only
  split
  · exact .pure inStep trivial
  refine inStep.ofSession ?_
  have recorded {session sessionToo : Session} (event eventToo : Event) (meets : place.Meets session sessionToo) :
      Follows place.Meets (Any Unit Unit) (Session.record event) (Session.record eventToo) session sessionToo :=
    .modify meets
  refine (recorded _ _ inStep.graph).bind fun _ _ _ _ meets => ?_
  have judged {session sessionToo : Session} (meets : place.Meets session sessionToo) :
      Follows place.Meets (Any Unit Unit) (Execution.ask fun _ => Exploration.checkInputs spaces)
        (Execution.ask fun _ => Exploration.checkInputs (place.spaces spaces)) session sessionToo :=
    follows_ofGraph (follows_query meets (echo_checkInputs spaces))
  refine (judged meets).bind fun _ _ _ _ meets => ?_
  exact recorded _ _ meets

theorem follows_check (execute executeToo : ComponentId → Operation → SessionM Answer) (id : ComponentId) :
    Follows place.InStep (fun tasks same => same = tasks.map place.task) (check (hooksOf execute) id)
      (check (hooksOf executeToo) (place.component id)) state other := by
  refine (inStep.ask (echo_heldComponent inStep.graph id)).bind fun node nodeToo stands _ inStep => ?_
  rw [stands.complete]
  split
  · exact .pure inStep rfl
  rw [stands.inputs]
  refine (inStep.ask (echo_inputSpaces inStep.graph node.inputs)).bind fun spaces same equal _ inStep => ?_
  subst equal
  cases spaces with
  | none => exact .pure inStep rfl
  | some spaces =>
      refine (inStep.ofGraph (follows_editComponent inStep.graph id fun _ _ _ stands => ?_)).bind
        fun _ _ _ _ inStep => ?_
      · exact { stands with complete := rfl }
      have noted {state other : BuildState} (inStep : place.InStep state other) :
          Follows place.InStep (Any Unit Unit)
            (modify fun state => { state with completed := state.completed.push id } : BuildM Unit)
            (modify fun state => { state with completed := state.completed.push (place.component id) } : BuildM Unit)
            state other :=
        .modify { inStep with completed := by rw [inStep.completed, Array.map_push] }
      refine (noted inStep).bind fun _ _ _ _ inStep => ?_
      have ordered : Keyed.ofList (place.spaces spaces) = place.spaces (Keyed.ofList spaces) :=
        (Keyed.mapValues_ofList _ spaces).symm
      rw [ordered]
      refine (inStep.follows_runHook execute executeToo id stands _).bind fun _ _ _ _ inStep => ?_
      refine (inStep.ask (echo_heldComponent inStep.graph id)).bind fun waiting waitingToo stands _ inStep => ?_
      refine (inStep.ofGraph (follows_editComponent inStep.graph id fun _ _ _ stands => ?_)).bind
        fun _ _ _ _ inStep => .pure inStep ?_
      · exact { stands with hookDone := rfl, deferred := rfl }
      rw [stands.deferred, List.map_append, List.map_map, List.map_map]
      rfl

theorem follows_forward (socket : SocketId) (op : DataOp) (connection : Connection) :
    Follows place.InStep (fun tasks same => same = tasks.map place.task) (forward socket op connection)
      (forward (place.socket socket) (place.op op) (place.connection connection)) state other := by
  cases connection with
  | socket target => exact .pure inStep rfl
  | space given => exact .pure inStep rfl
  | computation id =>
      refine (inStep.ask (echo_heldComputation inStep.graph id)).bind fun work workToo works _ inStep => ?_
      obtain ⟨rfl, -⟩ := works
      refine (inStep.ask (echo_heldComponent inStep.graph work.owner)).bind fun owner ownerToo stands _ inStep => ?_
      rw [stands.complete]
      split
      · exact .pure inStep rfl
      have waits : place.socket socket ∈ ownerToo.deferred ↔ socket ∈ owner.deferred := by
        rw [stands.deferred]
        exact List.mem_map_of_injective fun _ _ => place.socket_inj.mp
      by_cases waiting : socket ∈ owner.deferred
      · rw [if_pos waiting, if_pos (waits.mpr waiting)]
        exact .pure inStep rfl
      rw [if_neg waiting, if_neg (mt waits.mp waiting)]
      refine (inStep.ofGraph (follows_editComponent inStep.graph work.owner fun _ _ _ stands => ?_)).bind
        fun _ _ _ _ inStep => .pure inStep rfl
      exact { stands with deferred := by rw [stands.deferred, List.map_append]; rfl }

theorem InStep.follows_runMethod {run runToo : Recording (List DataOp)}
    (echoes : ∀ recorder recorderToo, recorderToo.log = place.log recorder.log →
      Echo (fun made madeToo => madeToo.1 = made.1.map place.op ∧ madeToo.2.log = place.log made.2.log)
        (run recorder) (runToo recorderToo)) :
    Follows place.InStep (fun outputs same => same = outputs.map place.op) (runMethod run) (runMethod runToo)
      state other := by
  refine (Follows.get inStep).bind fun before beforeToo held _ inStep => ?_
  have echo := echoes { log := before.log, calls := before.session.calls }
    { log := beforeToo.log, calls := beforeToo.session.calls } held.log
  generalize run { log := before.log, calls := before.session.calls } = answer at echo ⊢
  generalize runToo { log := beforeToo.log, calls := beforeToo.session.calls } = answerToo at echo ⊢
  cases echo with
  | error same => exact .throw inStep (congrArg some (Option.some.inj same))
  | @ok made madeToo agrees =>
      refine (Follows.set ?_).bind fun _ _ _ _ inStep => .pure inStep agrees.1
      exact { held with log := agrees.2 }

/-- Whether a firing took place is the same in both, since different computations have different places. -/
theorem InStep.mem_fired (firing : ComputationId × List OpId) :
    place.firing firing ∈ other.fired ↔ firing ∈ state.fired := by
  rw [inStep.fired]
  refine List.mem_map_of_injective fun left right same => ?_
  exact Prod.ext (place.computation_inj.mp (congrArg Prod.fst same)) (congrArg (fun firing => firing.2) same)

theorem follows_fireWith (id : ComputationId) (inputs : List DataOp) :
    Follows place.InStep (fun tasks same => same = tasks.map place.task) (fireWith id inputs)
      (fireWith (place.computation id) (inputs.map place.op)) state other := by
  refine (Follows.get inStep).bind fun before beforeToo held _ inStep => ?_
  have ids : (inputs.map place.op).map DataOp.id = inputs.map DataOp.id := by
    rw [List.map_map]
    rfl
  rw [ids]
  have known := held.mem_fired (id, inputs.map DataOp.id)
  show Follows _ _ (if (id, inputs.map DataOp.id) ∈ before.fired then _ else _)
    (if place.firing (id, inputs.map DataOp.id) ∈ beforeToo.fired then _ else _) _ _
  by_cases fired : (id, inputs.map DataOp.id) ∈ before.fired
  · rw [if_pos fired, if_pos (known.mpr fired)]
    exact .pure inStep rfl
  rw [if_neg fired, if_neg (mt known.mp fired)]
  have noted : place.InStep { before with fired := (id, inputs.map DataOp.id) :: before.fired }
      { beforeToo with fired := place.firing (id, inputs.map DataOp.id) :: beforeToo.fired } :=
    { held with fired := by rw [held.fired, List.map_cons] }
  refine (Follows.set noted).bind fun _ _ _ _ inStep => ?_
  have recorded {state other : BuildState} (event eventToo : Event) (inStep : place.InStep state other) :
      Follows place.InStep (Any Unit Unit) (Build.ofSession (Session.record event))
        (Build.ofSession (Session.record eventToo)) state other :=
    inStep.ofSession (.modify inStep.graph)
  refine (recorded _ _ inStep).bind fun _ _ _ _ inStep => ?_
  refine (inStep.ask (echo_heldComputation inStep.graph id)).bind fun work workToo works _ inStep => ?_
  obtain ⟨rfl, unsplit⟩ := works
  refine (inStep.ask (echo_heldComponent inStep.graph work.owner)).bind fun owner ownerToo stands _ inStep => ?_
  rw [show ownerToo.method? (place.work work).method = owner.method? work.method from
    congrArg (List.find? fun known : Method => known.name = work.method) stands.methods]
  cases found : owner.method? work.method with
  | none => exact .throw inStep rfl
  | some method =>
      have carries := stands.carried method (List.mem_of_find?_eq_some found)
      refine (inStep.follows_runMethod fun recorder recorderToo logs =>
        echo_apply carries unsplit rfl inputs logs).bind fun outputs same equal _ inStep => .pure inStep ?_
      subst equal
      show List.map _ ((work.outputs.map place.socket).zip _) = _
      rw [List.zip_map, List.map_map, List.map_map]
      rfl

theorem follows_perform (execute executeToo : ComponentId → Operation → SessionM Answer) (task : Task) :
    Follows place.InStep (fun tasks same => same = tasks.map place.task) (perform (hooksOf execute) task)
      (perform (hooksOf executeToo) (place.task task)) state other := by
  cases task with
  | seed id =>
      refine (inStep.ask (echo_heldComponent inStep.graph id)).bind fun node nodeToo stands _ inStep =>
        .pure inStep ?_
      rw [stands.sockets, List.map_map, List.map_map]
      rfl
  | seedSocket id socket =>
      refine (inStep.ask (echo_heldSocket inStep.graph socket)).bind fun target same equal _ inStep =>
        .pure inStep ?_
      subst equal
      show List.map _ (List.filterMap _ (target.incoming.map place.connection)) = _
      rw [List.filterMap_map, List.map_map, List.map_filterMap, List.map_filterMap]
      refine List.filterMap_congr fun connection _ => ?_
      cases connection <;> rfl
  | place id socket space =>
      refine (Follows.get inStep).bind fun before beforeToo held _ inStep => ?_
      have pushed : place.InStep
          { before with log := (before.log.push ⟨"placeholder", some id, [], space⟩).2 }
          { beforeToo with
            log := (beforeToo.log.push ⟨"placeholder", some (place.component id), [], place.space space⟩).2 } :=
        { held with log := by rw [held.log]; simp [OpLog.push, OpLog.size, log, record] }
      refine (Follows.set pushed).bind fun _ _ _ _ inStep => .pure inStep ?_
      show [Task.deliver (place.socket socket) ⟨⟨beforeToo.log.size⟩, place.space space⟩] =
        [Task.deliver (place.socket socket) ⟨⟨before.log.size⟩, place.space space⟩]
      rw [held.log]
      simp [OpLog.size, log]
  | deliver socket op => exact follows_deliver inStep socket op
  | check id => exact follows_check inStep execute executeToo id
  | forward socket op connection => exact follows_forward inStep socket op connection
  | wake socket =>
      refine (inStep.ask (echo_heldSocket inStep.graph socket)).bind fun target same equal _ inStep =>
        .pure inStep ?_
      subst equal
      show List.map _ (List.filterMap _ (target.outgoing.map place.connection)) = _
      rw [List.filterMap_map, List.map_map, List.map_filterMap, List.map_filterMap]
      refine List.filterMap_congr fun connection _ => ?_
      cases connection <;> rfl
  | fireSources id =>
      refine (inStep.ask (echo_heldComponent inStep.graph id)).bind fun node nodeToo stands _ inStep =>
        .pure inStep ?_
      rw [stands.sources, List.map_map, List.map_map]
      rfl
  | fire id =>
      refine (inStep.ask (echo_heldComputation inStep.graph id)).bind fun work workToo works _ inStep => ?_
      obtain ⟨rfl, -⟩ := works
      refine (Follows.get inStep).bind fun before beforeToo held _ inStep => .pure inStep ?_
      show List.map _ (combinations ((work.inputs.map place.socket).map _)) = _
      have lists : (work.inputs.map place.socket).map (opsAt beforeToo.arrivals) =
          (work.inputs.map (opsAt before.arrivals)).map (List.map place.op) := by
        rw [List.map_map, List.map_map]
        refine List.map_congr_left fun socket _ => ?_
        show opsAt beforeToo.arrivals (place.socket socket) = _
        rw [held.arrivals, opsAt_map]
        rfl
      rw [lists, combinations_map, List.map_map, List.map_map]
      rfl
  | fireWith id inputs => exact follows_fireWith inStep id inputs

theorem follows_serve :
    Follows place.InStep (fun tasks same => same = tasks.map (List.map place.task)) serve serve state other := by
  refine (Follows.get inStep).bind fun before beforeToo held _ inStep => ?_
  rw [held.arrivals, held.served, Array.getElem?_map]
  cases before.arrivals[before.served]? with
  | none => exact .pure inStep rfl
  | some arrival =>
      have counted : place.InStep { before with served := before.served + 1 }
          { beforeToo with
            arrivals := before.arrivals.map place.arrival
            served := before.served + 1 } :=
        { held with
          arrivals := rfl
          served := rfl }
      refine (Follows.set counted).bind fun _ _ _ _ inStep => ?_
      refine (inStep.ask (echo_heldSocket inStep.graph arrival.socket)).bind fun source same equal _ inStep =>
        .pure inStep ?_
      subst equal
      show some (List.map _ (source.outgoing.map place.connection)) = some _
      rw [List.map_map, List.map_map]
      rfl

theorem follows_work (execute executeToo : ComponentId → Operation → SessionM Answer) (fuel : Nat) (tasks : List Task) :
    Follows place.InStep (Any Unit Unit) (Build.work (hooksOf execute) fuel tasks)
      (Build.work (hooksOf executeToo) fuel (tasks.map place.task)) state other := by
  induction fuel generalizing tasks state other with
  | zero => exact .throw inStep rfl
  | succ fuel inductionHypothesis =>
      cases tasks with
      | nil =>
          refine (follows_serve inStep).bind fun served same equal _ inStep => ?_
          subst equal
          cases served with
          | none => exact .pure inStep trivial
          | some tasks => exact inductionHypothesis inStep tasks
      | cons task waiting =>
          refine (follows_perform inStep execute executeToo task).bind fun tasks same equal _ inStep => ?_
          subst equal
          rw [← List.map_append]
          exact inductionHypothesis inStep (tasks ++ waiting)

/-- Fuel that the part does not need makes no difference to the whole. -/
theorem follows_work_of_le (execute executeToo : ComponentId → Operation → SessionM Answer) {fuel enough : Nat}
    (most : fuel ≤ enough) {tasks : List Task}
    (returned : outcome (Build.work (hooksOf execute) fuel tasks) state ≠ .error .exhausted) :
    Follows place.InStep (Any Unit Unit) (Build.work (hooksOf execute) fuel tasks)
      (Build.work (hooksOf executeToo) enough (tasks.map place.task)) state other := by
  have follows := follows_work inStep execute executeToo fuel tasks
  have returnedToo : outcome (Build.work (hooksOf executeToo) fuel (tasks.map place.task)) other ≠ .error .exhausted := by
    have answers := follows.answers
    intro cut
    rw [cut] at answers
    generalize outcome (Build.work (hooksOf execute) fuel tasks) state = answer at answers returned
    cases answers with
    | @error stop _ same =>
        cases stop with
        | exhausted => exact returned rfl
        | failed error => cases same
  have same := work_of_le most returnedToo
  refine ⟨?_, ?_⟩
  · rw [outcome, outcome, same]
    exact follows.answers
  · rw [after, after, same]
    exact follows.leaves

end

/-! ### The build of a subtree -/

section

variable {place} {part whole : Graph} (holds : place.Holds part whole)

variable (place) in
def report (given : Report) : Report where
  log := place.log given.log
  arrivals := given.arrivals.map place.arrival
  completed := given.completed.map place.component
  incomplete := given.incomplete.map place.component

theorem opsAt_report (given : Report) (socket : SocketId) :
    (place.report given).opsAt (place.socket socket) = (given.opsAt socket).map place.op :=
  opsAt_map _ _

include holds

theorem visits_place {waiting visited : List ComponentId} (visits : part.Visits waiting visited) :
    whole.Visits (waiting.map place.component) (visited.map place.component) := by
  refine visits.map place.component fun id node found => ?_
  rcases (echo_heldComponent holds id).of_ok (heldComponent_eq_ok.mpr found) with ⟨other, heldToo, stands⟩
  exact ⟨other, heldComponent_eq_ok.mp heldToo, stands.children⟩

theorem subtree_place {root : ComponentId} {members : List ComponentId} (listed : part.subtree root = .ok members) :
    whole.subtree (place.component root) = .ok (members.map place.component) := by
  rcases except_bind_eq_ok.mp listed with ⟨node, found, descended⟩
  rcases (echo_component holds root).of_ok found with ⟨other, foundToo, -⟩
  rcases descend_eq_ok.mp descended with ⟨visits, bounded⟩
  refine except_bind_eq_ok.mpr ⟨other, foundToo, descend_eq_ok.mpr ⟨visits_place holds visits, ?_⟩⟩
  rw [List.length_map, holds.components.size]
  exact bounded.trans (Nat.le_add_left _ _)

theorem follows_reset (id : ComponentId) :
    Follows place.Holds (Any Unit Unit) (reset id) (reset (place.component id)) part whole := by
  refine (follows_query holds (echo_heldComponent holds id)).bind fun node other stands _ holds => ?_
  rw [stands.sockets]
  have cleared : Follows place.Holds (Any Unit Unit)
      (node.sockets.forM fun socket => editSocket socket fun socket => { socket with space := none })
      ((node.sockets.map place.socket).forM fun socket => editSocket socket fun socket => { socket with space := none })
      _ _ :=
    follows_editSockets holds fun _ => rfl
  refine cleared.bind fun _ _ _ _ holds => ?_
  exact follows_editComponent holds id fun _ _ _ stands =>
    { stands with
      complete := rfl
      deferred := rfl }

theorem follows_resets (members : List ComponentId) :
    Follows place.Holds (Any Unit Unit) (members.forM reset) ((members.map place.component).forM reset) part whole := by
  refine .forM (forall₂_map place.component members) (fun id idToo part whole same holds => ?_) holds
  rw [same]
  exact follows_reset holds id

end

section

variable {place}

/-- The members that are not complete, as a list of their places. -/
theorem incomplete_place (members : List ComponentId) {states statesToo : List Component}
    (stand : List.Forall₂ place.Node states statesToo) :
    (((members.map place.component).zip statesToo).filter fun member => !member.2.complete).map Prod.fst =
      (((members.zip states).filter fun member => !member.2.complete).map Prod.fst).map place.component := by
  induction stand generalizing members with
  | nil => simp
  | cons head _ inductionHypothesis =>
      cases members with
      | nil => rfl
      | cons id members =>
          rw [List.map_cons, List.zip_cons_cons, List.zip_cons_cons, List.filter_cons, List.filter_cons, head.complete]
          split
          · rw [List.map_cons, List.map_cons, List.map_cons, inductionHypothesis]
          · exact inductionHypothesis members

theorem follows_conclude (config : BuildConfig) (members : List ComponentId) {state other : BuildState}
    (inStep : place.InStep state other) {result resultToo : Except Stop Unit}
    (echo : Echo (Any Unit Unit) result resultToo) {session sessionToo : Session} (meets : place.Meets session sessionToo) :
    Follows place.Meets (fun given same => same = place.report given) (conclude config members result state)
      (conclude config (members.map place.component) resultToo other) session sessionToo := by
  cases echo with
  | error same => exact .throw meets same
  | ok =>
      have asked : Echo (List.Forall₂ place.Node) (members.mapM session.graph.heldComponent)
          ((members.map place.component).mapM sessionToo.graph.heldComponent) := by
        refine .mapM (forall₂_map place.component members) fun id idToo same => ?_
        rw [same]
        exact echo_heldComponent meets id
      refine (follows_ofGraph (follows_query meets asked)).bind fun states statesToo stand _ meets => ?_
      have places := incomplete_place members stand
      have empty := congrArg List.isEmpty places
      rw [List.isEmpty_map, List.isEmpty_map, List.isEmpty_map] at empty
      dsimp only
      rw [empty]
      by_cases refused : (!((members.zip states).filter fun member => !member.2.complete).isEmpty &&
          !config.allowIncomplete) = true
      · rw [if_pos refused, if_pos refused]
        exact .throw meets rfl
      · rw [if_neg refused, if_neg refused]
        refine .pure meets ?_
        rw [places, inStep.log, inStep.arrivals, inStep.completed, Array.toList_map]
        rfl

/-- A build of the part that comes to an end tells how the build of the whole ends, with any hooks and with as much
fuel or more. -/
theorem follows_run (execute executeToo : ComponentId → Operation → SessionM Answer) {fuel enough : Nat}
    (most : fuel ≤ enough) {root : ComponentId} {members : List ComponentId} {config : BuildConfig}
    {session sessionToo : Session} (meets : place.Meets session sessionToo)
    (listed : session.graph.subtree root = .ok members)
    (cleared : (outcome (members.forM reset) session.graph).isOk = true)
    (returned : outcome (run (hooksOf execute) fuel root config) session ≠ .error .exhausted) :
    Follows place.Meets (fun given same => same = place.report given) (run (hooksOf execute) fuel root config)
      (run (hooksOf executeToo) enough (place.component root) config) session sessionToo := by
  have resets := follows_resets meets members
  rcases resets.of_isOk cleared with ⟨⟨⟩, ⟨⟩, answered, answeredToo, -⟩
  have opened := run_of_outcome answered
  have openedToo := run_of_outcome answeredToo
  have listedToo := subtree_place meets listed
  have inStep : place.InStep (startState session root (after (members.forM reset) session.graph))
      (startState sessionToo (place.component root)
        (after ((members.map place.component).forM reset) sessionToo.graph)) := by
    constructor
    case graph => exact resets.leaves
    all_goals simp [startState, log]
  have returns : outcome (Build.work (hooksOf execute) fuel (initialTasks members))
      (startState session root (after (members.forM reset) session.graph)) ≠ .error .exhausted := by
    intro cut
    rw [outcome, run_conclude listed opened, cut] at returned
    exact returned rfl
  have tasks : initialTasks (members.map place.component) = (initialTasks members).map place.task := by
    unfold initialTasks
    rw [List.map_append, List.map_map, List.map_map, List.map_map, List.map_map]
    rfl
  have worked := follows_work_of_le inStep execute executeToo most returns
  rw [← tasks] at worked
  have concluded := follows_conclude config members worked.leaves worked.answers worked.leaves.graph
  refine ⟨?_, ?_⟩
  · rw [outcome, outcome, run_conclude listed opened, run_conclude listedToo openedToo]
    exact concluded.answers
  · rw [after, after, run_conclude listed opened, run_conclude listedToo openedToo]
    exact concluded.leaves

end

end Placement

end Wiring
