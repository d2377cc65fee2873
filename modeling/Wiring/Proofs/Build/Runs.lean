import Wiring.Proofs.Build.Moves
import Wiring.Proofs.Build.Tale

/-!
Contract: how the parts of a build run, whatever their outcome.

Owns: questions and edits within a build, hooks that are run and hooks that are not, checks, and firings, each as
an equation for its run.
-/

namespace Wiring.Build

open Wiring.Graph

variable {hooks : HookRunner} {state : BuildState} {α β : Type}

/-! ### Questions and edits -/

theorem run_ask_ok {question : Graph → Except Error α} {value : α} (answered : question state.graph = .ok value)
    (next : α → BuildM β) : (ask question >>= next).run state = (next value).run state :=
  run_bind_ok (show (ask question).run state = (.ok value, state) from
    congrArg (fun answer => (Session.stopOnError answer, state)) answered) next

theorem run_ask_error {question : Graph → Except Error α} {error : Error}
    (answered : question state.graph = .error error) (next : α → BuildM β) :
    (ask question >>= next).run state = (.error (.failed error), state) :=
  run_bind_error (show (ask question).run state = (.error (.failed error), state) from
    congrArg (fun answer => (Session.stopOnError answer, state)) answered) next

theorem run_editComponent_bind {id : ComponentId} {node : Component} (found : state.graph.component? id = some node)
    (change : Component → Component) (next : PUnit → BuildM β) :
    (ofGraph (Graph.editComponent id change) >>= next).run state =
      (next ⟨⟩).run (withGraph state (state.graph.changeComponent id change)) := by
  refine run_bind_ok ?_ next
  show (Session.stopOnError (outcome (Graph.editComponent id change) state.graph),
    withGraph state (after (Graph.editComponent id change) state.graph)) = _
  rw [outcome_of_run (run_editComponent found change), after_of_run (run_editComponent found change)]
  rfl

theorem run_editSocket_bind {id : SocketId} {socket : Socket} (held : state.graph.socket? id = some socket)
    (change : Socket → Socket) (next : PUnit → BuildM β) :
    (ofGraph (Graph.editSocket id change) >>= next).run state =
      (next ⟨⟩).run (withGraph state (state.graph.changeSocket id change)) := by
  refine run_bind_ok ?_ next
  show (Session.stopOnError (outcome (Graph.editSocket id change) state.graph),
    withGraph state (after (Graph.editSocket id change) state.graph)) = _
  rw [outcome_of_run (run_editSocket held change), after_of_run (run_editSocket held change)]
  rfl

/-- What follows on the hook of a component that has become complete. -/
def getReady (id : ComponentId) : BuildM (List Task) := do
  let waiting ← ask (·.heldComponent id)
  ofGraph (Graph.editComponent id Component.markReady)
  return waiting.deferred.map .wake ++ [.fireSources id]

theorem run_getReady {id : ComponentId} {node : Component} (found : state.graph.component? id = some node) :
    (getReady id).run state = (.ok (node.deferred.map .wake ++ [.fireSources id]),
      withGraph state (state.graph.changeComponent id Component.markReady)) := by
  unfold getReady
  rw [run_ask_ok (heldComponent_eq_ok.mpr found), run_editComponent_bind found]
  rfl

/-- The state with another session. -/
def withSession (state : BuildState) (session : Session) : BuildState :=
  { state with session }

/-- The session in which a hook is run. -/
def calling (session : Session) (call : Call) : Session :=
  { session with trace := session.trace.push call.started }

theorem runHook_settled {id : ComponentId} {node : Component} (settled : node.hook = none ∨ node.hookDone = true)
    (spaces : Keyed Space) : runHook hooks id node spaces = pure ⟨⟩ := by
  unfold runHook
  rcases settled with none | done
  · rw [none]
  · cases node.hook with
    | none => rfl
    | some hook => simp only [if_pos done]

/-- A hook that is still to be run is run between the two records of it. -/
theorem run_runHook (state : BuildState) (call : Call) {node : Component} (chosen : node.hook = some call.hook)
    (pending : node.hookDone = false) :
    let ran := (hooks call.hook call.component call.spaces >>= fun _ =>
      Session.record (.hookFinished call.component)).run (calling state.session call)
    (runHook hooks call.component node call.spaces).run state = (ran.1, withSession state ran.2) := by
  unfold runHook
  simp only [chosen, if_neg (Bool.eq_false_iff.mp pending)]
  exact run_ofSession _ state

theorem run_runHook_ok (state : BuildState) (call : Call) {node : Component} (chosen : node.hook = some call.hook)
    (pending : node.hookDone = false)
    (answered : outcome (hooks call.hook call.component call.spaces) (calling state.session call) = .ok ⟨⟩) :
    let session := after (hooks call.hook call.component call.spaces) (calling state.session call)
    (runHook hooks call.component node call.spaces).run state = (.ok ⟨⟩,
      withSession state { session with trace := session.trace.push (.hookFinished call.component) }) := by
  intro session
  have hook : (hooks call.hook call.component call.spaces).run (calling state.session call) = (.ok ⟨⟩, session) := by
    rw [run_eq, answered]
  rw [run_runHook state call chosen pending, run_bind_ok hook]
  rfl

theorem run_runHook_error (state : BuildState) (call : Call) {node : Component} (chosen : node.hook = some call.hook)
    (pending : node.hookDone = false) {stop : Stop}
    (answered : outcome (hooks call.hook call.component call.spaces) (calling state.session call) = .error stop) :
    (runHook hooks call.component node call.spaces).run state = (.error stop,
      withSession state (after (hooks call.hook call.component call.spaces) (calling state.session call))) := by
  have hook : (hooks call.hook call.component call.spaces).run (calling state.session call) =
      (.error stop, after (hooks call.hook call.component call.spaces) (calling state.session call)) := by
    rw [run_eq, answered]
  rw [run_runHook state call chosen pending, run_bind_error hook]

/-- The rest of a check after it has found that the component becomes complete. -/
def completing (hooks : HookRunner) (id : ComponentId) (node : Component) (spaces : List (String × Space)) :
    BuildM (List Task) := do
  ofGraph (Graph.editComponent id Component.markComplete)
  modify fun state => { state with completed := state.completed.push id }
  runHook hooks id node (Keyed.ofList spaces)
  getReady id

section Check

variable {id : ComponentId} {node : Component} (found : state.graph.component? id = some node)
include found

theorem run_check_complete (complete : node.complete = true) (hooks : HookRunner) :
    (check hooks id).run state = (.ok [], state) := by
  unfold check
  rw [run_ask_ok (heldComponent_eq_ok.mpr found), if_pos complete]
  rfl

variable (incomplete : node.complete = false)
include incomplete

theorem run_check_error {error : Error} (known : inputSpaces? state.graph node.inputs = .error error)
    (hooks : HookRunner) : (check hooks id).run state = (.error (.failed error), state) := by
  unfold check
  rw [run_ask_ok (heldComponent_eq_ok.mpr found), if_neg (Bool.eq_false_iff.mp incomplete)]
  exact run_ask_error known _

theorem run_check_unready (known : inputSpaces? state.graph node.inputs = .ok none) (hooks : HookRunner) :
    (check hooks id).run state = (.ok [], state) := by
  unfold check
  rw [run_ask_ok (heldComponent_eq_ok.mpr found), if_neg (Bool.eq_false_iff.mp incomplete)]
  exact (run_ask_ok known _).trans rfl

theorem run_check_ready {spaces : List (String × Space)}
    (known : inputSpaces? state.graph node.inputs = .ok (some spaces)) (hooks : HookRunner) :
    (check hooks id).run state = (completing hooks id node spaces).run state := by
  unfold check
  rw [run_ask_ok (heldComponent_eq_ok.mpr found), if_neg (Bool.eq_false_iff.mp incomplete)]
  exact (run_ask_ok known _).trans rfl

end Check

/-- A check either leaves everything as it is or completes the component. -/
theorem run_check (state : BuildState) (id : ComponentId) :
    (∃ answer, (∀ hooks, (check hooks id).run state = (answer, state)) ∧
        ∀ tasks, answer = .ok tasks → tasks = []) ∨
      ∃ node spaces, state.graph.component? id = some node ∧ node.complete = false ∧
        inputSpaces? state.graph node.inputs = .ok (some spaces) ∧
        ∀ hooks, (check hooks id).run state = (completing hooks id node spaces).run state := by
  cases held : state.graph.heldComponent id with
  | error error => exact .inl ⟨_, fun _ => run_ask_error held _, fun _ same => nomatch same⟩
  | ok node =>
      have found := heldComponent_eq_ok.mp held
      cases complete : node.complete with
      | true => exact .inl ⟨_, run_check_complete found complete, fun _ same => (Except.ok.inj same).symm⟩
      | false =>
          cases known : inputSpaces? state.graph node.inputs with
          | error error => exact .inl ⟨_, run_check_error found complete known, fun _ same => nomatch same⟩
          | ok spaces =>
              cases spaces with
              | none => exact .inl ⟨_, run_check_unready found complete known, fun _ same => (Except.ok.inj same).symm⟩
              | some spaces =>
                  exact .inr ⟨node, spaces, found, complete, known, run_check_ready found complete known⟩

theorem run_completing {id : ComponentId} {node : Component} (found : state.graph.component? id = some node)
    (spaces : List (String × Space)) :
    (completing hooks id node spaces).run state = (runHook hooks id node (Keyed.ofList spaces) >>= fun _ =>
      getReady id).run { withGraph state (state.graph.changeComponent id Component.markComplete) with
        completed := state.completed.push id } := by
  unfold completing
  rw [run_editComponent_bind found]
  rfl

/-- No hook is run if there is none, or if it has run before. -/
theorem run_completing_settled {id : ComponentId} {node : Component} (found : state.graph.component? id = some node)
    (settled : node.hook = none ∨ node.hookDone = true) (spaces : List (String × Space)) :
    (completing hooks id node spaces).run state = (.ok (node.deferred.map .wake ++ [.fireSources id]),
      { withGraph state ((state.graph.changeComponent id Component.markComplete).changeComponent id
          Component.markReady) with completed := state.completed.push id }) := by
  rw [run_completing found, runHook_settled settled]
  refine (run_bind_ok (run_pure _ _) _).trans ?_
  have marked : (state.graph.changeComponent id Component.markComplete).component? id = some node.markComplete := by
    rw [component?_changeComponent, if_pos rfl, found]
    rfl
  have ready (given : BuildState) (same : given.graph = state.graph.changeComponent id Component.markComplete) :=
    run_getReady (show given.graph.component? id = some node.markComplete from same ▸ marked)
  exact ready _ rfl

/-! ### Firings -/

theorem of_ask_bind {question : Graph → Except Error α} {next : α → BuildM β} {answer : β}
    (answered : outcome (ask question >>= next) state = .ok answer) :
    ∃ value, question state.graph = .ok value ∧ outcome (next value) state = .ok answer := by
  rcases of_ask_bind_ok (show (ask question >>= next).run state = (.ok answer, after (ask question >>= next) state) by
    rw [run_eq, answered]) with ⟨value, known, ran⟩
  exact ⟨value, known, outcome_of_run ran⟩

/-- The firing itself, after it has been written into the trace. -/
def firing (graph : Graph) (id : ComputationId) (inputs : List DataOp) : BuildM (List Task) := do
  let computation ← ask (·.heldComputation id)
  let owner ← ask (·.heldComponent computation.owner)
  match owner.method? computation.method with
  | none => throw (.failed (.methodMissing computation.method owner.name))
  | some method => do
      let outputs ← runMethod (method.apply computation.settings (contextOf graph computation.owner owner) inputs)
      return (computation.outputs.zip outputs).map fun output => .deliver output.1 output.2

theorem run_runMethod {recording : Recording α} {value : α} {recorder : Recorder}
    (recorded : recording { log := state.log, calls := state.session.calls } = .ok (value, recorder)) :
    (runMethod recording).run state = (.ok value,
      { state with log := recorder.log, session := { state.session with calls := recorder.calls } }) := by
  unfold runMethod
  rw [run_bind_ok (run_get state), recorded]
  rfl

theorem run_runMethod_error {recording : Recording α} {error : Error}
    (recorded : recording { log := state.log, calls := state.session.calls } = .error error) :
    (runMethod recording).run state = (.error (.failed error), state) := by
  unfold runMethod
  rw [run_bind_ok (run_get state), recorded]
  rfl

theorem run_fireWith {id : ComputationId} {inputs : List DataOp} (fresh : (id, inputs.map DataOp.id) ∉ state.fired) :
    (fireWith id inputs).run state = (firing state.graph id inputs).run
      (withSession { state with fired := (id, inputs.map DataOp.id) :: state.fired }
        { state.session with trace := state.session.trace.push (.fired id (inputs.map DataOp.id)) }) := by
  unfold fireWith
  rw [run_bind_ok (run_get state)]
  simp only [if_neg fresh]
  rw [run_bind_ok (run_set state _)]
  rfl

theorem run_firing {graph : Graph} {id : ComputationId} {computation : Computation} {owner : Component} {method : Method}
    {inputs outputs : List DataOp} {recorder : Recorder} (found : state.graph.computation? id = some computation)
    (ownerFound : state.graph.component? computation.owner = some owner)
    (chosen : owner.method? computation.method = some method)
    (applied : method.apply computation.settings (contextOf graph computation.owner owner) inputs
      { log := state.log, calls := state.session.calls } = .ok (outputs, recorder)) :
    (firing graph id inputs).run state =
      (.ok ((computation.outputs.zip outputs).map fun output => .deliver output.1 output.2),
        { state with log := recorder.log, session := { state.session with calls := recorder.calls } }) := by
  unfold firing
  rw [run_ask_ok (heldComputation_eq_ok.mpr found), run_ask_ok (heldComponent_eq_ok.mpr ownerFound), chosen]
  exact run_bind_ok (run_runMethod applied) _

theorem run_firing_error {graph : Graph} {id : ComputationId} {computation : Computation} {owner : Component}
    {method : Method} {inputs : List DataOp} {error : Error} (found : state.graph.computation? id = some computation)
    (ownerFound : state.graph.component? computation.owner = some owner)
    (chosen : owner.method? computation.method = some method)
    (applied : method.apply computation.settings (contextOf graph computation.owner owner) inputs
      { log := state.log, calls := state.session.calls } = .error error) :
    (firing graph id inputs).run state = (.error (.failed error), state) := by
  unfold firing
  rw [run_ask_ok (heldComputation_eq_ok.mpr found), run_ask_ok (heldComponent_eq_ok.mpr ownerFound), chosen]
  exact run_bind_error (run_runMethod_error applied) _

/-- A firing that succeeds: it took place before, or the method of the computation returns. -/
inductive FiredWith (id : ComputationId) (inputs : List DataOp) (state : BuildState) : List Task → BuildState → Prop where
  | known (known : (id, inputs.map DataOp.id) ∈ state.fired) : FiredWith id inputs state [] state
  | returns (computation : Computation) (owner : Component) (method : Method) (outputs : List DataOp)
      (recorder : Recorder) (fresh : (id, inputs.map DataOp.id) ∉ state.fired)
      (found : state.graph.computation? id = some computation)
      (ownerFound : state.graph.component? computation.owner = some owner)
      (chosen : owner.method? computation.method = some method)
      (applied : method.apply computation.settings (contextOf state.graph computation.owner owner) inputs
        { log := state.log, calls := state.session.calls } = .ok (outputs, recorder)) :
      FiredWith id inputs state ((computation.outputs.zip outputs).map fun output => .deliver output.1 output.2)
        { state with
          log := recorder.log
          fired := (id, inputs.map DataOp.id) :: state.fired
          session := { state.session with
            calls := recorder.calls
            trace := state.session.trace.push (.fired id (inputs.map DataOp.id)) } }

theorem run_fireWith_known {id : ComputationId} {inputs : List DataOp} (known : (id, inputs.map DataOp.id) ∈ state.fired) :
    (fireWith id inputs).run state = (.ok [], state) := by
  unfold fireWith
  rw [run_bind_ok (run_get state)]
  simp only [if_pos known]
  rfl

theorem run_fireWith_ok {id : ComputationId} {inputs : List DataOp} {tasks : List Task} {final : BuildState} :
    (fireWith id inputs).run state = (.ok tasks, final) ↔ FiredWith id inputs state tasks final := by
  constructor
  · intro ran
    by_cases known : (id, inputs.map DataOp.id) ∈ state.fired
    · obtain ⟨rfl, rfl⟩ := of_run_pure ((run_fireWith_known known).symm.trans ran)
      exact .known known
    · rw [run_fireWith known] at ran
      rcases of_ask_bind_ok ran with ⟨computation, held, ran⟩
      rcases of_ask_bind_ok ran with ⟨owner, ownerHeld, ran⟩
      cases chosen : owner.method? computation.method with
      | none =>
          rw [chosen] at ran
          cases congrArg Prod.fst ran
      | some method =>
          rw [chosen] at ran
          rcases of_run_bind_ok ran with ⟨outputs, middle, methodRan, ran⟩
          rcases of_run_pure ran with ⟨rfl, rfl⟩
          rcases runMethod_ok methodRan with ⟨recorder, applied, rfl⟩
          exact .returns computation owner method outputs recorder known (heldComputation_eq_ok.mp held)
            (heldComponent_eq_ok.mp ownerHeld) chosen applied
  · intro fired
    cases fired with
    | known known => exact run_fireWith_known known
    | returns computation owner method outputs recorder fresh found ownerFound chosen applied =>
        rw [run_fireWith fresh]
        exact run_firing found ownerFound chosen applied

end Wiring.Build
