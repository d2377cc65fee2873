import Wiring.Proofs.Build.Closure
import Wiring.Proofs.Build.Confined
import Wiring.Proofs.Build.Runs
import Wiring.Proofs.Graph.Overlay

/-!
Contract: building again.

Owns: `again`, the state of a second build next to that of the first one, with the variables and hook marks that
the first one leaves in the end; that every task which succeeds in the first build does the same in the second
one, without a hook; and that a build which returned a report returns it again and leaves the graph alone.
-/

namespace Wiring

open Relation (ReflTransGen)

/-- The hooks call no methods. -/
def HookRunner.KeepsCalls (hooks : HookRunner) : Prop :=
  ∀ hook id spaces given, (after (hooks hook id spaces) given).calls = given.calls

/-- From one trace to the other there are only firings. -/
def FiresOnly (before later : Array Event) : Prop :=
  ∃ events, later.toList = before.toList ++ events ∧ ∀ event ∈ events, ∃ id inputs, event = .fired id inputs

theorem FiresOnly.refl (trace : Array Event) : FiresOnly trace trace :=
  ⟨[], (List.append_nil _).symm, fun _ member => nomatch member⟩

theorem FiresOnly.trans {first second third : Array Event} (left : FiresOnly first second)
    (right : FiresOnly second third) : FiresOnly first third := by
  rcases left with ⟨events, same, fires⟩
  rcases right with ⟨more, sameToo, firesToo⟩
  refine ⟨events ++ more, by rw [sameToo, same, List.append_assoc], fun event member => ?_⟩
  exact (List.mem_append.mp member).elim (fires event) (firesToo event)

theorem FiresOnly.push (trace : Array Event) (id : ComputationId) (inputs : List OpId) :
    FiresOnly trace (trace.push (.fired id inputs)) :=
  ⟨[.fired id inputs], Array.toList_push, fun _ member => ⟨id, inputs, List.mem_singleton.mp member⟩⟩

/-- The state of a second build, which takes the variables from the end of the first one. -/
def BuildState.again (kept : Graph) (trace : Array Event) (state : BuildState) : BuildState :=
  { state with session := {
      graph := state.graph.withVariablesOf kept
      calls := state.session.calls
      trace } }

@[simp] theorem BuildState.again_arrivals (kept : Graph) (trace : Array Event) (state : BuildState) :
    (state.again kept trace).arrivals = state.arrivals := rfl

namespace Build

open Wiring.Graph

variable {hooks others : HookRunner} {graph kept : Graph} {members : List ComponentId} {account : Account}
  {state final : BuildState} {tasks : List Task} {task : Task}

/-! ### Checks -/

/-- A hook that runs through, or is not run, only registers variables. -/
theorem runHook_registers (registers : hooks.Registers graph) (keepsCalls : hooks.KeepsCalls)
    (wired : state.graph.wiring = graph.wiring) {id : ComponentId} {node : Component} {spaces : Keyed Space}
    (found : state.graph.component? id = some node) {answer : Unit} {marked : BuildState}
    (ran : (runHook hooks id node spaces).run marked = (.ok answer, final)) :
    ∃ session : Session, Graph.Registers id marked.graph session.graph ∧
      session.calls = marked.session.calls ∧ final = withSession marked session := by
  by_cases settled : node.hook = none ∨ node.hookDone = true
  · rw [runHook_settled settled] at ran
    rcases of_run_pure ran with ⟨-, rfl⟩
    exact ⟨_, Std.Refl.refl _, rfl, rfl⟩
  rcases not_or.mp settled with ⟨some, pending⟩
  rcases Option.ne_none_iff_exists'.mp some with ⟨hook, chosen⟩
  have pending : node.hookDone = false := Bool.not_eq_true _ ▸ pending
  rcases Graph.component?_of_wiring wired found with ⟨old, oldFound, same⟩
  have oldHook : old.hook = .some hook := (Component.fields_of_wiring same).2.2.2.2.2.2.symm.trans chosen
  let call : Call := ⟨id, hook, spaces⟩
  rcases registers id old hook oldFound oldHook spaces (calling marked.session call) with ⟨registered, -⟩
  have calls := keepsCalls hook id spaces (calling marked.session call)
  cases answered : outcome (hooks hook id spaces) (calling marked.session call) with
  | error stop =>
      have failed := run_runHook_error marked call chosen pending answered
      cases congrArg Prod.fst (failed.symm.trans ran)
  | ok =>
      have done := (run_runHook_ok marked call chosen pending answered).symm.trans ran
      have ended := (congrArg Prod.snd done).symm
      generalize after (hooks hook id spaces) (calling marked.session call) = session at registered calls ended
      exact ⟨{ session with trace := session.trace.push (.hookFinished id) }, registered, calls, ended⟩

/-- A check that succeeds does nothing, or it completes the component. -/
inductive Checked (id : ComponentId) (state : BuildState) (node : Component) : List Task → BuildState → Prop where
  | complete (complete : node.complete = true) : Checked id state node [] state
  | unready (incomplete : node.complete = false) (known : inputSpaces? state.graph node.inputs = .ok none) :
      Checked id state node [] state
  | ready (spaces : List (String × Space)) (session : Session) (incomplete : node.complete = false)
      (known : inputSpaces? state.graph node.inputs = .ok (some spaces))
      (registered : Graph.Registers id (state.graph.changeComponent id Component.markComplete) session.graph)
      (calls : session.calls = state.session.calls) :
      Checked id state node (node.deferred.map .wake ++ [.fireSources id])
        { state with
          session := { session with graph := session.graph.changeComponent id Component.markReady }
          completed := state.completed.push id }

theorem check_ok (registers : hooks.Registers graph) (keepsCalls : hooks.KeepsCalls)
    (wired : state.graph.wiring = graph.wiring) {id : ComponentId}
    (ran : (check hooks id).run state = (.ok tasks, final)) :
    ∃ node, state.graph.component? id = some node ∧ Checked id state node tasks final := by
  rcases of_ask_bind_ok ran with ⟨node, held, -⟩
  have found := heldComponent_eq_ok.mp held
  refine ⟨node, found, ?_⟩
  cases complete : node.complete with
  | true =>
      obtain ⟨rfl, rfl⟩ := of_run_pure ((run_check_complete found complete hooks).symm.trans ran)
      exact .complete complete
  | false =>
      cases known : inputSpaces? state.graph node.inputs with
      | error error => cases congrArg Prod.fst ((run_check_error found complete known hooks).symm.trans ran)
      | ok spaces =>
          cases spaces with
          | none =>
              obtain ⟨rfl, rfl⟩ := of_run_pure ((run_check_unready found complete known hooks).symm.trans ran)
              exact .unready complete known
          | some spaces =>
              rw [run_check_ready found complete known hooks, run_completing found] at ran
              rcases of_run_bind_ok ran with ⟨_, middle, hookRan, ran⟩
              rcases runHook_registers registers keepsCalls wired found hookRan with ⟨session, registered, calls, rfl⟩
              have markedFound : (state.graph.changeComponent id Component.markComplete).component? id =
                  some node.markComplete := by
                rw [component?_changeComponent, if_pos rfl, found]
                rfl
              rcases registered.component?_own markedFound with ⟨registry, newFound⟩
              have ready := ran.symm.trans
                (run_getReady (show (withSession _ session).graph.component? id = some _ from newFound))
              rcases Prod.mk.inj ready with ⟨answered, rfl⟩
              obtain rfl := Except.ok.inj answered
              exact .ready spaces session complete known registered calls

/-! ### Tasks -/

/-- What a task does to variables in the first build, and that it does the same in the second one if the first one
goes on to leave the variables of complete components as they are. -/
structure Repeats (graph : Graph) (step : BuildM (List Task)) (state : BuildState) (tasks : List Task)
    (final : BuildState) : Prop where
  stays : VariablesStay state.graph final.graph
  again : ∀ kept trace, kept.wiring = graph.wiring → VariablesStay final.graph kept →
    ∃ later, FiresOnly trace later ∧ step.run (state.again kept trace) = (.ok tasks, final.again kept later)

/-- A task that fires nothing and leaves components alone. -/
theorem Repeats.of_components {step : BuildM (List Task)} (same : final.graph.components = state.graph.components)
    (again : ∀ kept trace, kept.wiring = graph.wiring →
      step.run (state.again kept trace) = (.ok tasks, final.again kept trace)) :
    Repeats graph step state tasks final where
  stays _ node found complete := ⟨node, by rw [Graph.component?, same]; exact found, complete, rfl, rfl⟩
  again kept trace keptWired _ := ⟨trace, .refl trace, again kept trace keptWired⟩

/-- The component in the second build. -/
theorem component?_again (wired : state.graph.wiring = graph.wiring) (keptWired : kept.wiring = graph.wiring)
    {id : ComponentId} {node : Component} (found : state.graph.component? id = some node) (trace : Array Event) :
    ∃ old, kept.component? id = some old ∧
      (state.again kept trace).graph.component? id = some (node.withVariablesOf old) := by
  rcases Graph.component?_of_wiring (wired.trans keptWired.symm) found with ⟨old, known, -⟩
  exact ⟨old, known, component?_withVariablesOf_some found known⟩

theorem inputSpaces_withVariablesOf (graph kept : Graph) (inputs : List SocketId) :
    inputSpaces? (graph.withVariablesOf kept) inputs = inputSpaces? graph inputs := by
  induction inputs with
  | nil => rfl
  | cons id rest inductionHypothesis =>
      unfold inputSpaces?
      rw [inductionHypothesis]
      rfl

theorem deliver_repeats {socket : SocketId} {op : DataOp} (ran : (deliver socket op).run state = (.ok tasks, final)) :
    Repeats graph (deliver socket op) state tasks final := by
  have ran := of_get_bind_ok ran
  by_cases known : ((opsAt state.arrivals socket).any fun known => known.id = op.id) = true
  · rw [if_pos known] at ran
    rcases of_run_pure ran with ⟨rfl, rfl⟩
    refine .of_components rfl fun kept trace _ => ?_
    unfold deliver
    rw [run_bind_ok (run_get _), BuildState.again_arrivals, if_pos known]
    rfl
  rw [if_neg known] at ran
  rcases of_ask_bind_ok ran with ⟨target, held, ran⟩
  have ran := of_set_bind_ok ran
  have heldAgain (kept : Graph) (trace : Array Event) :
      (state.again kept trace).graph.heldSocket socket = .ok target := held
  by_cases resolved : target.space.isSome = true
  · rw [if_pos resolved] at ran
    rcases of_run_pure ran with ⟨rfl, rfl⟩
    refine .of_components rfl fun kept trace _ => ?_
    unfold deliver
    rw [run_bind_ok (run_get _), BuildState.again_arrivals, if_neg known, run_ask_ok (heldAgain kept trace),
      run_bind_ok (run_set _ _), if_pos resolved]
    rfl
  · rw [if_neg resolved] at ran
    have found := heldSocket_eq_ok.mp held
    rcases of_editSocket_bind_ok ran with ⟨_, -, ran⟩
    have begin (kept : Graph) (trace : Array Event) : (deliver socket op).run (state.again kept trace) =
        (if target.isInterfaceInput then pure [.check target.owner] else pure [] : BuildM (List Task)).run
          ((withGraph { state with arrivals := state.arrivals.push ⟨socket, op⟩ }
            (state.graph.changeSocket socket (Socket.takeSpace op.space))).again kept trace) := by
      unfold deliver
      rw [run_bind_ok (run_get _), BuildState.again_arrivals, if_neg known, run_ask_ok (heldAgain kept trace),
        run_bind_ok (run_set _ _), if_neg resolved]
      have foundAgain : (BuildState.graph { state.again kept trace with
          arrivals := state.arrivals.push ⟨socket, op⟩ }).socket? socket = some target := found
      exact (run_editSocket_bind foundAgain (Socket.takeSpace op.space) _).trans rfl
    by_cases isInput : target.isInterfaceInput = true
    · rw [if_pos isInput] at ran
      rcases of_run_pure ran with ⟨rfl, rfl⟩
      refine .of_components rfl fun kept trace _ => (begin kept trace).trans ?_
      rw [if_pos isInput]
      rfl
    · rw [if_neg isInput] at ran
      rcases of_run_pure ran with ⟨rfl, rfl⟩
      refine .of_components rfl fun kept trace _ => (begin kept trace).trans ?_
      rw [if_neg isInput]
      rfl

/-- The second build completes the component without its hook, which is done in the end. -/
theorem check_repeats (registers : hooks.Registers graph) (keepsCalls : hooks.KeepsCalls)
    (wired : state.graph.wiring = graph.wiring) {id : ComponentId}
    (ran : (check hooks id).run state = (.ok tasks, final)) : Repeats graph (check others id) state tasks final := by
  rcases check_ok registers keepsCalls wired ran with ⟨node, found, checked⟩
  cases checked with
  | complete complete =>
      refine .of_components rfl fun kept trace keptWired => ?_
      rcases component?_again wired keptWired found trace with ⟨old, -, foundAgain⟩
      exact run_check_complete foundAgain complete others
  | unready incomplete known =>
      refine .of_components rfl fun kept trace keptWired => ?_
      rcases component?_again wired keptWired found trace with ⟨old, -, foundAgain⟩
      exact run_check_unready foundAgain incomplete ((inputSpaces_withVariablesOf _ _ _).trans known) others
  | ready spaces session incomplete known registered calls =>
      refine ⟨registered.variablesStay_ready found incomplete, fun kept trace keptWired stays => ?_⟩
      rcases component?_again wired keptWired found trace with ⟨old, oldFound, foundAgain⟩
      have done : old.hookDone = true := by
        rcases registered.component?_ready found with ⟨registry, readyFound⟩
        rcases stays id _ readyFound rfl with ⟨new, newKept, -, -, hookDone⟩
        obtain rfl := Option.some.inj (oldFound.symm.trans newKept)
        exact hookDone
      have knownAgain : inputSpaces? (state.again kept trace).graph (node.withVariablesOf old).inputs =
          .ok (some spaces) := (inputSpaces_withVariablesOf _ _ _).trans known
      have graphs := registered.withVariablesOf_ready found oldFound done
      refine ⟨trace, .refl trace, ?_⟩
      rw [run_check_ready foundAgain incomplete knownAgain others, run_completing_settled foundAgain (.inr done)]
      show _ = (Except.ok _, { state with
        session := ⟨(session.graph.changeComponent id Component.markReady).withVariablesOf kept, session.calls, trace⟩
        completed := state.completed.push id })
      rw [← graphs, calls]
      rfl

/-- An op waits for the same component. -/
theorem forward_repeats (wired : state.graph.wiring = graph.wiring) {socket : SocketId} {op : DataOp}
    {connection : Connection} (ran : (forward socket op connection).run state = (.ok tasks, final)) :
    Repeats graph (forward socket op connection) state tasks final := by
  cases connection with
  | socket target =>
      rcases of_run_pure ran with ⟨rfl, rfl⟩
      exact .of_components rfl fun kept trace keptWired => rfl
  | space space =>
      rcases of_run_pure ran with ⟨rfl, rfl⟩
      exact .of_components rfl fun kept trace keptWired => rfl
  | computation id =>
      rcases of_ask_bind_ok ran with ⟨computation, held, ran⟩
      rcases of_ask_bind_ok ran with ⟨owner, ownerHeld, ran⟩
      have ownerFound := heldComponent_eq_ok.mp ownerHeld
      have begin (kept : Graph) (trace : Array Event) {old : Component}
          (foundAgain : (state.again kept trace).graph.component? computation.owner = some (owner.withVariablesOf old)) :
          (forward socket op (.computation id)).run (state.again kept trace) =
            (if owner.complete then pure [.fire id] else if socket ∈ owner.deferred then pure [] else do
              ofGraph (Graph.editComponent computation.owner (Component.defer socket))
              return [] : BuildM (List Task)).run (state.again kept trace) := by
        have heldAgain : (state.again kept trace).graph.heldComputation id = .ok computation := held
        unfold forward
        rw [run_ask_ok heldAgain, run_ask_ok (heldComponent_eq_ok.mpr foundAgain)]
        rfl
      by_cases complete : owner.complete = true
      · rw [if_pos complete] at ran
        rcases of_run_pure ran with ⟨rfl, rfl⟩
        refine .of_components rfl fun kept trace keptWired => ?_
        rcases component?_again wired keptWired ownerFound trace with ⟨old, -, foundAgain⟩
        rw [begin kept trace foundAgain, if_pos complete]
        rfl
      rw [if_neg complete] at ran
      by_cases waits : socket ∈ owner.deferred
      · rw [if_pos waits] at ran
        rcases of_run_pure ran with ⟨rfl, rfl⟩
        refine .of_components rfl fun kept trace keptWired => ?_
        rcases component?_again wired keptWired ownerFound trace with ⟨old, -, foundAgain⟩
        rw [begin kept trace foundAgain, if_neg complete, if_pos waits]
        rfl
      · rw [if_neg waits] at ran
        rcases of_editComponent_bind_ok ran with ⟨_, -, ran⟩
        rcases of_run_pure ran with ⟨rfl, rfl⟩
        refine ⟨VariablesStay.changeComponent fun _ _ complete => ⟨complete, rfl, rfl⟩, fun kept trace keptWired _ => ?_⟩
        rcases component?_again wired keptWired ownerFound trace with ⟨old, oldFound, foundAgain⟩
        refine ⟨trace, .refl trace, ?_⟩
        rw [begin kept trace foundAgain, if_neg complete, if_neg waits, run_editComponent_bind foundAgain]
        show (Except.ok [], withGraph _ ((state.graph.withVariablesOf kept).changeComponent _ _)) = _
        rw [changeComponent_withVariablesOf ownerFound oldFound _ rfl]
        rfl

/-- A computation of a complete component sees the same registry. -/
theorem fireWith_repeats (wired : state.graph.wiring = graph.wiring) {id : ComputationId} {inputs : List DataOp}
    (concerns : Concerns graph members (bookOf account state) (.fireWith id inputs))
    (ran : (fireWith id inputs).run state = (.ok tasks, final)) :
    Repeats graph (fireWith id inputs) state tasks final := by
  cases run_fireWith_ok.mp ran with
  | known known => exact .of_components rfl fun kept trace _ => run_fireWith_known known
  | returns computation owner method outputs recorder fresh found ownerFound chosen applied =>
      have complete : owner.complete = true := by
        rcases concerns with ⟨other, otherFound, -, complete⟩
        obtain rfl := Option.some.inj ((Graph.computation?_of_wiring wired id ▸ found).symm.trans otherFound)
        exact (isComplete_eq ownerFound).symm.trans complete
      refine ⟨Std.Refl.refl _, fun kept trace keptWired stays => ?_⟩
      rcases component?_again wired keptWired ownerFound trace with ⟨old, oldFound, foundAgain⟩
      have context : contextOf (state.again kept trace).graph computation.owner (owner.withVariablesOf old) =
          contextOf state.graph computation.owner owner := by
        rcases stays _ owner ownerFound complete with ⟨new, newKept, -, registry, -⟩
        obtain rfl := Option.some.inj (oldFound.symm.trans newKept)
        have kind : kept.backend.kind = state.graph.backend.kind := Graph.kind_of_wiring (keptWired.trans wired.symm)
        show MethodContext.mk computation.owner owner.name old.registry none kept.backend.kind = _
        rw [kind, registry]
        rfl
      refine ⟨trace.push (.fired id (inputs.map DataOp.id)), .push .., run_fireWith_ok.mpr ?_⟩
      exact .returns computation (owner.withVariablesOf old) method outputs recorder fresh found foundAgain chosen
        (context ▸ applied)

/-- A task that asks one question, to which the answer may differ in variables only. -/
theorem asks_repeats {α : Type} {question : Graph → Except Error α} {tasksOf : α → List Task}
    (again : ∀ value, question state.graph = .ok value → ∀ kept trace, kept.wiring = graph.wiring →
      ∃ other, question (state.again kept trace).graph = .ok other ∧ tasksOf other = tasksOf value)
    (ran : (ask question >>= fun value => pure (tasksOf value)).run state = (.ok tasks, final)) :
    Repeats graph (ask question >>= fun value => pure (tasksOf value)) state tasks final := by
  rcases of_ask_bind_ok ran with ⟨value, asked, ran⟩
  rcases of_run_pure ran with ⟨rfl, rfl⟩
  refine .of_components rfl fun kept trace keptWired => ?_
  rcases again value asked kept trace keptWired with ⟨other, askedAgain, same⟩
  rw [run_ask_ok askedAgain, ← same]
  rfl

/-- Every task that succeeds does the same again. -/
theorem perform_repeats (registers : hooks.Registers graph) (keepsCalls : hooks.KeepsCalls)
    (wired : state.graph.wiring = graph.wiring) (concerns : Concerns graph members (bookOf account state) task)
    (ran : (perform hooks task).run state = (.ok tasks, final)) :
    Repeats graph (perform others task) state tasks final := by
  cases task with
  | seed id =>
      refine asks_repeats (fun node held kept trace keptWired => ?_) ran
      rcases component?_again wired keptWired (heldComponent_eq_ok.mp held) trace with ⟨old, -, foundAgain⟩
      exact ⟨_, heldComponent_eq_ok.mpr foundAgain, rfl⟩
  | seedSocket id socket => exact asks_repeats (fun target held _ _ _ => ⟨target, held, rfl⟩) ran
  | place id socket space =>
      have ran := of_set_bind_ok (of_get_bind_ok ran)
      rcases of_run_pure ran with ⟨rfl, rfl⟩
      exact .of_components rfl fun kept trace _ => rfl
  | deliver socket op => exact deliver_repeats ran
  | check id => exact check_repeats registers keepsCalls wired ran
  | forward socket op connection => exact forward_repeats wired ran
  | wake socket => exact asks_repeats (fun target held _ _ _ => ⟨target, held, rfl⟩) ran
  | fireSources id =>
      refine asks_repeats (fun node held kept trace keptWired => ?_) ran
      rcases component?_again wired keptWired (heldComponent_eq_ok.mp held) trace with ⟨old, -, foundAgain⟩
      exact ⟨_, heldComponent_eq_ok.mpr foundAgain, rfl⟩
  | fire id =>
      rcases of_ask_bind_ok ran with ⟨computation, held, ran⟩
      have ran := of_get_bind_ok ran
      rcases of_run_pure ran with ⟨rfl, rfl⟩
      refine .of_components rfl fun kept trace _ => ?_
      have heldAgain : (state.again kept trace).graph.heldComputation id = .ok computation := held
      exact run_ask_ok heldAgain _
  | fireWith id inputs => exact fireWith_repeats wired concerns ran

/-! ### The work of a build -/

theorem serve_again {answer : Option (List Task)} (ran : serve.run state = (.ok answer, final)) (kept : Graph)
    (trace : Array Event) : serve.run (state.again kept trace) = (.ok answer, final.again kept trace) := by
  have ran := of_get_bind_ok ran
  unfold serve
  rw [run_bind_ok (run_get _)]
  have arrivals : (state.again kept trace).arrivals[(state.again kept trace).served]? =
      state.arrivals[state.served]? := rfl
  rw [arrivals]
  cases next : state.arrivals[state.served]? with
  | none =>
      rw [next] at ran
      rcases of_run_pure ran with ⟨rfl, rfl⟩
      rfl
  | some arrival =>
      rw [next] at ran
      rcases of_ask_bind_ok (of_set_bind_ok ran) with ⟨source, held, ran⟩
      rcases of_run_pure ran with ⟨rfl, rfl⟩
      refine (run_bind_ok (run_set _ _) _).trans ?_
      have heldAgain : (BuildState.graph { state.again kept trace with served := state.served + 1 }).heldSocket
          arrival.socket = .ok source := held
      exact run_ask_ok heldAgain _

/-- Work that succeeds is done again in the same way, up to the same state. -/
theorem work_again (others : HookRunner) (sound : Graph.Sound graph) (linked : LinkedInside graph members)
    (registers : hooks.Registers graph) (keepsCalls : hooks.KeepsCalls) {fuel : Nat} {answer : Unit}
    (wired : state.graph.wiring = graph.wiring) (confined : Confined graph members tasks (bookOf account state))
    (ran : (work hooks fuel tasks).run state = (.ok answer, final)) :
    final.graph.wiring = graph.wiring ∧ VariablesStay state.graph final.graph ∧ ∀ trace, ∃ later,
      FiresOnly trace later ∧
      (work others fuel tasks).run (state.again final.graph trace) = (.ok answer, final.again final.graph later) := by
  induction fuel generalizing account state tasks with
  | zero => cases congrArg Prod.fst ran
  | succ fuel inductionHypothesis =>
      cases tasks with
      | nil =>
          rcases of_run_bind_ok ran with ⟨served, middle, serving, rest⟩
          have servedAgain := serve_again serving final.graph
          rcases serve_ok wired serving with ⟨rfl, rfl, -⟩ | ⟨more, rfl, move, wiredAfter⟩
          · rcases of_run_pure rest with ⟨rfl, rfl⟩
            exact ⟨wired, Std.Refl.refl _, fun trace => ⟨trace, .refl trace, run_bind_ok (servedAgain trace) _⟩⟩
          · have moved := confined.move sound linked move
            rcases inductionHypothesis wiredAfter moved.1 rest with ⟨wiredLast, stays, again⟩
            have same : middle.graph = state.graph := by
              rw [← after_of_run serving]
              exact serve_graph state
            refine ⟨wiredLast, same ▸ stays, fun trace => ?_⟩
            rcases again trace with ⟨later, fires, againRan⟩
            exact ⟨later, fires, (run_bind_ok (servedAgain trace) _).trans againRan⟩
      | cons task waiting =>
          rcases of_run_bind_ok ran with ⟨more, middle, performed, ran⟩
          rcases perform_step wired registers performed with ⟨middleAccount, step, wiredAfter⟩
          have moved := confined.move sound linked (.task task waiting more _ _ step)
          rcases inductionHypothesis wiredAfter moved.1 ran with ⟨wiredLast, stays, again⟩
          have repeats : Repeats graph (perform others task) state more middle :=
            perform_repeats registers keepsCalls wired (confined.tasks task List.mem_cons_self) performed
          refine ⟨wiredLast, IsPreorder.toIsTrans.trans _ _ _ repeats.stays stays, fun trace => ?_⟩
          rcases repeats.again final.graph trace wiredLast stays with ⟨between, fires, onceMore⟩
          rcases again between with ⟨later, firesToo, rest⟩
          exact ⟨later, fires.trans firesToo, (run_bind_ok onceMore _).trans rest⟩

/-! ### The whole build -/

/-- Clearing the subtree after a build restores the graph in which its work began, apart from variables. -/
theorem wiped_again {start finish : BuildState} {later : Account} (opened : start.graph = graph.wiped members)
    (wired : finish.graph.wiring = graph.wiring)
    (untouched : Untouched graph members (bookOf account start) (bookOf later finish)) :
    finish.graph.wiped members = start.graph.withVariablesOf finish.graph := by
  have startWired : start.graph.wiring = graph.wiring := opened ▸ wiring_wiped graph members
  refine Graph.eq_of_wiring ?_ rfl (fun id new other newFound otherFound => ?_)
    (fun id new other newHeld otherHeld => ?_)
  · rw [wiring_wiped, wiring_withVariablesOf (wired.trans startWired.symm), wired, startWired]
  · rcases component?_of_wiring ((wiring_wiped finish.graph members).trans wired) newFound with ⟨node, found, -⟩
    rcases component?_of_wiring wired.symm found with ⟨last, lastFound, same⟩
    have startFound : start.graph.component? id = some (if id ∈ members then node.clear else node) :=
      opened ▸ component?_wiped_some found
    obtain rfl := Option.some.inj ((component?_wiped_some lastFound).symm.trans newFound)
    obtain rfl := Option.some.inj ((component?_withVariablesOf_some startFound lastFound).symm.trans otherFound)
    by_cases member : id ∈ members
    · rw [if_pos member, if_pos member]
      exact Component.eq_of_wiring same.symm rfl rfl rfl rfl
    · rw [if_neg member] at startFound ⊢
      rw [if_neg member]
      have complete : last.complete = node.complete :=
        (isComplete_eq lastFound).symm.trans ((untouched.complete id member).trans (isComplete_eq startFound))
      have deferred : last.deferred = node.deferred :=
        (deferredOf_eq lastFound).symm.trans ((untouched.deferred id member).trans (deferredOf_eq startFound))
      exact Component.eq_of_wiring same.symm rfl complete rfl deferred
  · rcases socket?_of_wiring ((wiring_wiped finish.graph members).trans wired) newHeld with ⟨socket, held, -⟩
    rcases socket?_of_wiring wired.symm held with ⟨last, lastHeld, same⟩
    have startHeld : start.graph.socket? id = some (if socket.owner ∈ members then socket.clear else socket) :=
      opened ▸ socket?_wiped_some held
    obtain rfl := Option.some.inj ((socket?_wiped_some lastHeld).symm.trans newHeld)
    obtain rfl := Option.some.inj (startHeld.symm.trans otherHeld)
    have owner : socket.owner = last.owner := (Socket.fields_of_wiring same).1
    by_cases member : socket.owner ∈ members
    · rw [if_pos member, if_pos (owner ▸ member)]
      exact Socket.eq_of_wiring same.symm rfl
    · rw [if_neg member] at startHeld ⊢
      rw [if_neg (owner ▸ member)]
      have outside : ¬ Inside graph members id := by
        rintro ⟨other, known, isMember⟩
        exact member (Option.some.inj (held.symm.trans known) ▸ isMember)
      have space : last.space = socket.space :=
        (spaceOf_eq lastHeld).symm.trans ((untouched.space id outside).trans (spaceOf_eq startHeld))
      exact Socket.eq_of_wiring same.symm space

theorem startState_again {session last : Session} {root : ComponentId} {opened reopened : Graph}
    (same : reopened = opened.withVariablesOf kept) : startState last root reopened =
      (startState session root opened).again kept (last.trace.push (.buildStarted root)) := by
  rw [same]
  rfl

/-- A build that does the same work on the same graph ends in the same way. -/
theorem conclude_again {config : BuildConfig} {answer : Unit} {session last : Session} {report : Report}
    (ran : (conclude config members (.ok answer) state).run session = (.ok report, last)) (kept : Graph)
    (trace : Array Event) {later : Session} (same : later.graph = session.graph) :
    (conclude config members (.ok answer) (state.again kept trace)).run later = (.ok report, later) := by
  rcases of_session_query_bind_ok ran with ⟨states, held, ran⟩
  have asked : (Session.ofGraph (query fun graph => members.mapM graph.heldComponent)).run later =
      (.ok states, later) := by
    have held : later.graph.heldComponent = session.graph.heldComponent ∧
        members.mapM session.graph.heldComponent = .ok states := ⟨congrArg Graph.heldComponent same, held⟩
    exact congrArg (fun answer => (Session.stopOnError answer, later)) (held.1 ▸ held.2)
  refine (run_bind_ok asked _).trans ?_
  dsimp only at ran ⊢
  split at ran
  · cases congrArg Prod.fst ran
  · next complete =>
      rw [if_neg complete]
      rcases of_run_pure ran with ⟨same, -⟩
      rw [← same]
      rfl

/-- For a reachable graph, a subtree that no link leaves and hooks that only register variables: a build that returned
a report returns it again, whatever hooks there are by then. It runs no hook and leaves the graph as it is. All that
a method can see are its settings, its inputs, the variables of its component, the kind of the backend and the record
of the build so far, and nothing else of the graph. -/
theorem run_again {fuel : Nat} {root : ComponentId} {config : BuildConfig} {session last : Session} {report : Report}
    (reachable : session.graph.Reachable) (enclosed : session.graph.Enclosed root)
    (registers : hooks.Registers session.graph) (keepsCalls : hooks.KeepsCalls)
    (ran : (run hooks fuel root config).run session = (.ok report, last)) (others : HookRunner) :
    ∃ events, (∀ event ∈ events, ∃ id inputs, event = .fired id inputs) ∧
      (run others fuel root config).run last =
        (.ok report, { last with trace := last.trace ++ (.buildStarted root :: events).toArray }) := by
  have sound := reachable.sound
  rcases of_run_ok sound ran with ⟨members, worked, listed, working, concluded, rfl⟩
  have startWired := wiring_startState session root members
  have confined := Confined.start (fresh_startState session sound root members)
  have linked := linkedInside sound enclosed listed
  rcases work_finishes registers startWired working with ⟨account, finishes, -⟩
  rcases work_again others sound linked registers keepsCalls startWired confined working with ⟨wired, -, again⟩
  have reopened : startState worked.session root (worked.session.graph.wiped members) =
      (startState session root (session.graph.wiped members)).again worked.graph
        (worked.session.trace.push (.buildStarted root)) :=
    startState_again (wiped_again rfl wired (confined.moves sound linked finishes.1).2)
  rcases again (worked.session.trace.push (.buildStarted root)) with ⟨later, ⟨events, fires, firings⟩, onceMore⟩
  have exist : ∀ member ∈ members, ∃ node, worked.graph.component? member = some node := by
    intro member isMember
    rcases subtree_found sound.tree listed isMember with ⟨node, found⟩
    rcases component?_of_wiring wired.symm found with ⟨other, otherFound, -⟩
    exact ⟨other, otherFound⟩
  have same : (worked.again worked.graph later).session = { worked.session with trace := later } := by
    show Session.mk _ _ _ = _
    rw [withVariablesOf_self]
    rfl
  have traces : later = worked.session.trace ++ (.buildStarted root :: events).toArray := by
    apply Array.toList_inj.mp
    rw [fires, Array.toList_push, Array.toList_append, List.append_assoc]
    rfl
  refine ⟨events, firings, ?_⟩
  rw [run_conclude (subtree_of_wiring wired listed) (run_resets members (sound.sockets.of_wiring wired) exist),
    reopened, outcome_of_run onceMore, after_of_run onceMore, same, ← traces]
  exact conclude_again concluded worked.graph later rfl

/-! ### A build with a hook, and the next one -/

theorem biased_keepsCalls : biased.KeepsCalls := by
  intro hook id spaces given
  unfold biased
  rw [after, Session.run_ofGraph]

/-- A component with a space for its input and a hook, which makes an op for its last part. -/
def hooked : GraphM Unit := do
  let whole ← create { scope := "whole" }
  let _ ← defineInputs whole ["input"] (some (.box {}))
  let _ ← addSockets whole ["output"] (some .output) false
  setHook whole (.script [])
  register whole (relaying 1)
  let _ ← compute whole ["input"] ["output"] none {}
  let part ← create { scope := "part" }
  let _ ← addSockets part ["start"] (some .input) false
  add whole part .nothing
  connect whole (.socket (.named "output")) (.component part)

theorem reachable_hooked : (after hooked {}).Reachable := by
  refine (reachable_empty {}).reaches ((?_ : Keeps Reaches hooked) {})
  refine Keeps.bind (Reaches.create _) fun whole => ?_
  refine Keeps.bind (Reaches.defineInputs whole _ _) fun _ => ?_
  refine Keeps.bind (Reaches.addSockets whole _ _ _) fun _ => ?_
  refine Keeps.bind (Reaches.setHook whole _) fun _ => ?_
  refine Keeps.bind (Reaches.register whole _) fun _ => ?_
  refine Keeps.bind (Reaches.compute whole _ _ _ _) fun _ => ?_
  refine Keeps.bind (Reaches.create _) fun part => ?_
  refine Keeps.bind (Reaches.addSockets part _ _ _) fun _ => ?_
  exact Keeps.bind (Reaches.add whole part _) fun _ => Reaches.connect whole _ _

/-- The first build runs the hook, which registers a variable, and the second one does not. -/
theorem run_again_hooked : ∃ report last events,
    (run biased 60 ⟨0⟩ {}).run { graph := after hooked {} } = (.ok report, last) ∧
    report.completed = [⟨0⟩, ⟨1⟩] ∧ (last.trace.toList.any fun event => event matches .hookStarted ..) = true ∧
    (last.graph.component? ⟨0⟩).map (fun node => node.registry.length) = some 1 ∧
    (∀ event ∈ events, ∃ id inputs, event = .fired id inputs) ∧
    (run biased 60 ⟨0⟩ {}).run last =
      (.ok report, { last with trace := last.trace ++ (.buildStarted ⟨0⟩ :: events).toArray }) := by
  have general (graph : Graph) (reachable : graph.Reachable)
      (holds : (graph.sockets.toList.all fun socket =>
        ((graph.subtree ⟨0⟩).toOption.getD []).contains socket.owner) = true)
      (completed : (outcome (run biased 60 ⟨0⟩ {}) { graph }).toOption.map Report.completed = some [⟨0⟩, ⟨1⟩])
      (starts : ((after (run biased 60 ⟨0⟩ {}) { graph }).trace.toList.any fun event =>
        event matches .hookStarted ..) = true)
      (registered : ((after (run biased 60 ⟨0⟩ {}) { graph }).graph.component? ⟨0⟩).map
        (fun node => node.registry.length) = some 1) :
      ∃ report last events, (run biased 60 ⟨0⟩ {}).run { graph } = (.ok report, last) ∧
        report.completed = [⟨0⟩, ⟨1⟩] ∧ (last.trace.toList.any fun event => event matches .hookStarted ..) = true ∧
        (last.graph.component? ⟨0⟩).map (fun node => node.registry.length) = some 1 ∧
        (∀ event ∈ events, ∃ id inputs, event = .fired id inputs) ∧ (run biased 60 ⟨0⟩ {}).run last =
          (.ok report, { last with trace := last.trace ++ (.buildStarted ⟨0⟩ :: events).toArray }) := by
    cases answered : outcome (run biased 60 ⟨0⟩ {}) { graph } with
    | error stop =>
        rw [answered] at completed
        cases completed
    | ok report =>
        rw [answered] at completed
        have ran : (run biased 60 ⟨0⟩ {}).run { graph } = (.ok report, after (run biased 60 ⟨0⟩ {}) { graph }) := by
          rw [run_eq, answered]
        have enclosed : graph.Enclosed ⟨0⟩ :=
          enclosed_of_holds fun id socket held => above_of_listed reachable.sound (check_socket holds held)
        rcases run_again reachable enclosed (biased_registers graph) biased_keepsCalls ran biased with
          ⟨events, firings, again⟩
        exact ⟨report, _, events, ran, Option.some.inj completed, starts, registered, firings, again⟩
  exact general (after hooked {}) reachable_hooked (by decide +kernel) (by decide +kernel) (by decide +kernel)
    (by decide +kernel)

end Build

end Wiring
