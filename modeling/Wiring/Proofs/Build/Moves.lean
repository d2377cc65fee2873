import Wiring.Proofs.Build.Book
import Wiring.Proofs.Graph.Operations.Variables

/-!
Contract: builds follow the steps of the book.

Owns: the book of the state of a build; that every task which succeeds is a step of the book, provided that
hooks only register variables; and that the work of a build which succeeds is a sequence of moves that
finishes.
-/

namespace Wiring

open Order (Preimage)

/-- The hooks of a graph only register variables on their own components. -/
def HookRunner.Registers (hooks : HookRunner) (graph : Graph) : Prop :=
  ∀ id node hook, graph.component? id = some node → node.hook = some hook → ∀ spaces given,
    Graph.Registers id given.graph (after (hooks hook id spaces) given).graph ∧
      (after (hooks hook id spaces) given).trace = given.trace

/-! ### The edits of a build -/

def Socket.takeSpace (space : Space) (socket : Socket) : Socket :=
  { socket with space := some space }

def Component.markComplete (node : Component) : Component :=
  { node with complete := true }

/-- The hook is done and no socket waits any more. -/
def Component.markReady (node : Component) : Component :=
  { node with hookDone := true, deferred := [] }

def Component.defer (socket : SocketId) (node : Component) : Component :=
  { node with deferred := node.deferred ++ [socket] }

namespace Graph

variable {graph later : Graph}

/-! ### Lookups in a graph of the same wiring -/

theorem component?_of_wiring (same : later.wiring = graph.wiring) {id : ComponentId} {node : Component}
    (found : later.component? id = some node) :
    ∃ old, graph.component? id = some old ∧ node.wiring = old.wiring :=
  exists_of_map_eq (componentView_of_wiring (fun _ => rfl) same id) found

theorem socket?_of_wiring (same : later.wiring = graph.wiring) {id : SocketId} {socket : Socket}
    (held : later.socket? id = some socket) :
    ∃ old, graph.socket? id = some old ∧ socket.wiring = old.wiring :=
  exists_of_map_eq (view_of_wiring (fun _ => rfl) same id) held

theorem kind_of_wiring (same : later.wiring = graph.wiring) : later.backend.kind = graph.backend.kind := by
  show later.wiring.backend.kind = graph.wiring.backend.kind
  rw [same]

end Graph

theorem Component.fields_of_wiring {left right : Component} (same : left.wiring = right.wiring) :
    left.name = right.name ∧ left.inputs = right.inputs ∧ left.outputs = right.outputs ∧
      left.internals = right.internals ∧ left.methods = right.methods ∧ left.sources = right.sources ∧
      left.hook = right.hook := by
  show left.wiring.name = right.wiring.name ∧ left.wiring.inputs = right.wiring.inputs ∧
    left.wiring.outputs = right.wiring.outputs ∧ left.wiring.internals = right.wiring.internals ∧
    left.wiring.methods = right.wiring.methods ∧ left.wiring.sources = right.wiring.sources ∧
    left.wiring.hook = right.wiring.hook
  rw [same]
  exact ⟨rfl, rfl, rfl, rfl, rfl, rfl, rfl⟩

theorem Socket.fields_of_wiring {left right : Socket} (same : left.wiring = right.wiring) :
    left.owner = right.owner ∧ left.incoming = right.incoming ∧ left.outgoing = right.outgoing ∧
      left.isInterfaceInput = right.isInterfaceInput := by
  show left.wiring.owner = right.wiring.owner ∧ left.wiring.incoming = right.wiring.incoming ∧
    left.wiring.outgoing = right.wiring.outgoing ∧ left.wiring.isInterfaceInput = right.wiring.isInterfaceInput
  rw [same]
  exact ⟨rfl, rfl, rfl, rfl⟩

namespace Build

/-- The book of a state, given what has happened. -/
def bookOf (account : Account) (state : BuildState) : Book where
  account
  log := state.log
  arrivals := state.arrivals.toList
  served := state.served
  fired := state.fired
  history := firedEvents state.session.trace
  space := state.graph.spaceOf
  complete := state.graph.isComplete
  deferred := state.graph.deferredOf

/-- The state of a build with another graph. -/
def withGraph (state : BuildState) (graph : Graph) : BuildState :=
  { state with session := { state.session with graph } }

variable {α β : Type}

/-! ### Runs of the parts -/

theorem of_ask_bind_ok {question : Graph → Except Error α} {next : α → BuildM β} {state final : BuildState}
    {answer : β} (ran : (ask question >>= next).run state = (.ok answer, final)) :
    ∃ value, question state.graph = .ok value ∧ (next value).run state = (.ok answer, final) := by
  rcases of_run_bind_ok ran with ⟨value, middle, asked, ran⟩
  have answered : Session.stopOnError (question state.graph) = .ok value := congrArg Prod.fst asked
  have same : state = middle := congrArg Prod.snd asked
  cases known : question state.graph with
  | error error =>
      rw [known] at answered
      cases answered
  | ok other =>
      rw [known] at answered
      cases answered
      exact ⟨value, rfl, same ▸ ran⟩

theorem of_get_bind_ok {next : BuildState → BuildM β} {state final : BuildState} {answer : β}
    (ran : (get >>= next).run state = (.ok answer, final)) : (next state).run state = (.ok answer, final) := by
  rwa [run_bind_ok (run_get state)] at ran

theorem of_set_bind_ok {next : PUnit → BuildM β} {state given final : BuildState} {answer : β}
    (ran : (set given >>= next).run state = (.ok answer, final)) :
    (next ⟨⟩).run given = (.ok answer, final) := by
  rwa [run_bind_ok (run_set state given)] at ran

/-- An edit that succeeds has found what it edits. -/
theorem of_editSocket_bind_ok {id : SocketId} {change : Socket → Socket} {next : PUnit → BuildM β}
    {state final : BuildState} {answer : β}
    (ran : (ofGraph (Graph.editSocket id change) >>= next).run state = (.ok answer, final)) :
    ∃ socket, state.graph.socket? id = some socket ∧
      (next ⟨⟩).run (withGraph state (state.graph.changeSocket id change)) = (.ok answer, final) := by
  rcases of_run_bind_ok ran with ⟨value, middle, edited, ran⟩
  cases held : state.graph.socket? id with
  | none =>
      have missing : state.graph.heldSocket id = .error (.dangling id.describe) := by
        unfold Graph.socket? at held
        unfold Graph.heldSocket
        rw [held]
      have failed : (Graph.editSocket id change).run state.graph = (.error (.dangling id.describe), state.graph) :=
        run_query_bind_error missing _
      have answered : Session.stopOnError (outcome (Graph.editSocket id change) state.graph) = .ok value :=
        congrArg Prod.fst edited
      rw [outcome_of_run failed] at answered
      cases answered
  | some socket =>
      have same : withGraph state (after (Graph.editSocket id change) state.graph) = middle :=
        congrArg Prod.snd edited
      rw [after_of_run (Graph.run_editSocket held change)] at same
      exact ⟨socket, rfl, same ▸ ran⟩

theorem of_editComponent_bind_ok {id : ComponentId} {change : Component → Component} {next : PUnit → BuildM β}
    {state final : BuildState} {answer : β}
    (ran : (ofGraph (Graph.editComponent id change) >>= next).run state = (.ok answer, final)) :
    ∃ node, state.graph.component? id = some node ∧
      (next ⟨⟩).run (withGraph state (state.graph.changeComponent id change)) = (.ok answer, final) := by
  rcases of_run_bind_ok ran with ⟨value, middle, edited, ran⟩
  cases found : state.graph.component? id with
  | none =>
      have missing : state.graph.heldComponent id = .error (.dangling id.describe) := by
        unfold Graph.component? at found
        unfold Graph.heldComponent
        rw [found]
      have failed :
          (Graph.editComponent id change).run state.graph = (.error (.dangling id.describe), state.graph) :=
        run_query_bind_error missing _
      have answered : Session.stopOnError (outcome (Graph.editComponent id change) state.graph) = .ok value :=
        congrArg Prod.fst edited
      rw [outcome_of_run failed] at answered
      cases answered
  | some node =>
      have same : withGraph state (after (Graph.editComponent id change) state.graph) = middle :=
        congrArg Prod.snd edited
      rw [after_of_run (Graph.run_editComponent found change)] at same
      exact ⟨node, rfl, same ▸ ran⟩

/-! ### The spaces of in-sockets -/

theorem inputSpaces_none {graph : Graph} {inputs : List SocketId}
    (answered : inputSpaces? graph inputs = .ok none) :
    ∃ input ∈ inputs, graph.spaceOf input = none := by
  induction inputs with
  | nil => cases answered
  | cons id rest inductionHypothesis =>
      rcases except_bind_eq_ok.mp answered with ⟨socket, held, answered⟩
      have found := Graph.heldSocket_eq_ok.mp held
      cases space : socket.space with
      | none => exact ⟨id, by simp, (Graph.spaceOf_eq found).trans space⟩
      | some known =>
          rw [space] at answered
          rcases except_bind_eq_ok.mp answered with ⟨others, restAnswered, same⟩
          cases others with
          | some others => cases same
          | none =>
              rcases inductionHypothesis restAnswered with ⟨input, member, unresolved⟩
              exact ⟨input, List.mem_cons_of_mem id member, unresolved⟩

theorem inputSpaces_some {graph : Graph} {inputs : List SocketId} {spaces : List (String × Space)}
    (answered : inputSpaces? graph inputs = .ok (some spaces)) :
    ∀ input ∈ inputs, (graph.spaceOf input).isSome := by
  induction inputs generalizing spaces with
  | nil => simp
  | cons id rest inductionHypothesis =>
      rcases except_bind_eq_ok.mp answered with ⟨socket, held, answered⟩
      have found := Graph.heldSocket_eq_ok.mp held
      cases space : socket.space with
      | none =>
          rw [space] at answered
          cases answered
      | some known =>
          rw [space] at answered
          rcases except_bind_eq_ok.mp answered with ⟨others, restAnswered, same⟩
          cases others with
          | none => cases same
          | some others =>
              intro input member
              rcases List.mem_cons.mp member with rfl | later
              · rw [Graph.spaceOf_eq found, space]
                rfl
              · exact inductionHypothesis restAnswered input later

/-! ### Tasks -/

variable {account : Account} {graph : Graph} {hooks : HookRunner} {state final : BuildState} {tasks : List Task}

theorem deliver_step (wired : state.graph.wiring = graph.wiring) {socket : SocketId} {op : DataOp}
    (ran : (deliver socket op).run state = (.ok tasks, final)) :
    Step graph (.deliver socket op) (bookOf account state) tasks (bookOf account final) ∧ final.graph.wiring = graph.wiring := by
  have ran := of_get_bind_ok ran
  by_cases isKnown : ((opsAt state.arrivals socket).any fun known => known.id = op.id) = true
  · rw [if_pos isKnown] at ran
    rcases of_run_pure ran with ⟨rfl, rfl⟩
    rcases List.any_eq_true.mp isKnown with ⟨other, member, same⟩
    exact ⟨.known socket op other _ member (of_decide_eq_true same), wired⟩
  · rw [if_neg isKnown] at ran
    have fresh : ∀ other ∈ (bookOf account state).opsAt socket, other.id ≠ op.id := by
      intro other member same
      exact isKnown (List.any_eq_true.mpr ⟨other, member, decide_eq_true same⟩)
    rcases of_ask_bind_ok ran with ⟨target, held, ran⟩
    have found := Graph.heldSocket_eq_ok.mp held
    rcases Graph.socket?_of_wiring wired found with ⟨old, oldFound, same⟩
    rcases Socket.fields_of_wiring same with ⟨owner, -, -, interface⟩
    have ran := of_set_bind_ok ran
    have arrived : (bookOf account { state with arrivals := state.arrivals.push ⟨socket, op⟩ }) =
        (bookOf account state).arrive socket op := by
      simp [bookOf, Book.arrive, BuildState.graph]
    cases space : target.space with
    | some known =>
        rw [space] at ran
        rcases of_run_pure ran with ⟨rfl, rfl⟩
        rw [arrived]
        refine ⟨.further socket op old known _ fresh oldFound ?_, wired⟩
        exact (Graph.spaceOf_eq found).trans space
    | none =>
        rw [space] at ran
        rcases of_editSocket_bind_ok ran with ⟨_, -, ran⟩
        have unresolved : (bookOf account state).space socket = none := (Graph.spaceOf_eq found).trans space
        have step := Step.first socket op old (bookOf account state) fresh oldFound unresolved
        have resolved : bookOf account (withGraph { state with arrivals := state.arrivals.push ⟨socket, op⟩ }
            (state.graph.changeSocket socket (Socket.takeSpace op.space))) =
            ((bookOf account state).arrive socket op).resolve socket op.space := by
          rw [← arrived]
          unfold bookOf Book.resolve
          congr 1
          exact Graph.spaceOf_changeSocket found (Socket.takeSpace op.space)
        have wiredAfter : (state.graph.changeSocket socket (Socket.takeSpace op.space)).wiring = graph.wiring :=
          (Graph.wiring_changeSocket state.graph socket (Socket.takeSpace op.space) fun _ => rfl).trans wired
        rw [← resolved, ← interface, ← owner] at step
        by_cases isInput : target.isInterfaceInput = true
        · rw [if_pos isInput] at ran
          rcases of_run_pure ran with ⟨rfl, rfl⟩
          rw [if_pos isInput] at step
          exact ⟨step, wiredAfter⟩
        · rw [if_neg isInput] at ran
          rcases of_run_pure ran with ⟨rfl, rfl⟩
          rw [if_neg isInput] at step
          exact ⟨step, wiredAfter⟩

/-- A hook that runs through only registers variables. -/
theorem runHook_ok (registers : hooks.Registers graph) {id : ComponentId} {node old : Component}
    {spaces : Keyed Space} (found : graph.component? id = some old) (same : node.hook = old.hook)
    {answer : Unit} (ran : (runHook hooks id node spaces).run state = (.ok answer, final)) :
    Graph.Registers id state.graph final.graph ∧
      bookOf account final = { bookOf account state with
        space := final.graph.spaceOf, complete := final.graph.isComplete, deferred := final.graph.deferredOf } := by
  have still (state : BuildState) : bookOf account state = { bookOf account state with
      space := state.graph.spaceOf, complete := state.graph.isComplete, deferred := state.graph.deferredOf } := rfl
  unfold runHook at ran
  cases chosen : node.hook with
  | none =>
      rw [chosen] at ran
      rcases of_run_pure ran with ⟨-, rfl⟩
      exact ⟨Std.Refl.refl _, still _⟩
  | some hook =>
      simp only [chosen] at ran
      by_cases done : node.hookDone = true
      · rw [if_pos done] at ran
        rcases of_run_pure ran with ⟨-, rfl⟩
        exact ⟨Std.Refl.refl _, still _⟩
      · rw [if_neg done] at ran
        have kept := registers id old hook found (same ▸ chosen) spaces
        have session : final = { state with session := final.session } ∧
            (Session.record (.hookStarted id hook spaces) >>= fun _ => hooks hook id spaces >>= fun _ =>
              Session.record (.hookFinished id)).run state.session = (.ok answer, final.session) := by
          rw [run_ofSession] at ran
          rcases Prod.mk.inj ran with ⟨answered, rfl⟩
          exact ⟨rfl, by rw [run_eq, answered]⟩
        rcases session with ⟨rest, sessionRan⟩
        rcases of_run_bind_ok sessionRan with ⟨_, started, recorded, sessionRan⟩
        have recorded : { state.session with trace := state.session.trace.push (.hookStarted id hook spaces) } =
            started := congrArg Prod.snd recorded
        rcases of_run_bind_ok sessionRan with ⟨_, finished, hookRan, ended⟩
        have ended : { finished with trace := finished.trace.push (.hookFinished id) } = final.session :=
          congrArg Prod.snd ended
        have hookKept := kept started
        rw [after_of_run hookRan, ← recorded] at hookKept
        rcases hookKept with ⟨registered, trace⟩
        have endGraph : final.session.graph = finished.graph := by rw [← ended]
        have endTrace : final.session.trace = finished.trace.push (.hookFinished id) := by rw [← ended]
        refine ⟨?_, ?_⟩
        · show Graph.Registers id state.session.graph final.session.graph
          rw [endGraph]
          exact registered
        · rw [rest]
          unfold bookOf
          congr 1
          show firedEvents final.session.trace = firedEvents state.session.trace
          rw [endTrace, trace]
          simp [firedEvents, Event.fired?]

/-- Marking a component as complete and running its hook leaves all other marks as they are. -/
theorem marks_of_completing {before middle : Graph} {id : ComponentId} {node : Component}
    (found : before.component? id = some node)
    (registered : Graph.Registers id (before.changeComponent id Component.markComplete) middle) :
    middle.spaceOf = before.spaceOf ∧ middle.isComplete = Function.update before.isComplete id true ∧
      middle.deferredOf = before.deferredOf := by
  rcases registered.marks with ⟨spaces, complete, deferred⟩
  refine ⟨spaces, ?_, ?_⟩
  · exact complete.trans (Graph.isComplete_changeComponent found Component.markComplete)
  · refine deferred.trans ((Graph.deferredOf_changeComponent found Component.markComplete).trans ?_)
    show Function.update before.deferredOf id node.deferred = before.deferredOf
    rw [← Graph.deferredOf_eq found, Function.update_eq_self]

/-- A change of what a component waits for. -/
theorem bookOf_changeComponent {id : ComponentId} {node : Component} (found : state.graph.component? id = some node)
    {change : Component → Component} (same : (change node).complete = node.complete) :
    bookOf account (withGraph state (state.graph.changeComponent id change)) =
      { bookOf account state with
        deferred := Function.update (bookOf account state).deferred id (change node).deferred } := by
  have marked : bookOf account (withGraph state (state.graph.changeComponent id change)) =
      { bookOf account state with
        complete := (state.graph.changeComponent id change).isComplete
        deferred := (state.graph.changeComponent id change).deferredOf } := rfl
  rw [marked, Graph.deferredOf_changeComponent found, Graph.isComplete_changeComponent found, same,
    ← Graph.isComplete_eq found, Function.update_eq_self]
  rfl

theorem check_step (wired : state.graph.wiring = graph.wiring) (registers : hooks.Registers graph)
    {id : ComponentId} (ran : (check hooks id).run state = (.ok tasks, final)) :
    Step graph (.check id) (bookOf account state) tasks (bookOf account final) ∧ final.graph.wiring = graph.wiring := by
  rcases of_ask_bind_ok ran with ⟨node, held, ran⟩
  have found := Graph.heldComponent_eq_ok.mp held
  rcases Graph.component?_of_wiring wired found with ⟨old, oldFound, same⟩
  rcases Component.fields_of_wiring same with ⟨-, inputs, -, -, -, -, hook⟩
  by_cases complete : node.complete = true
  · rw [if_pos complete] at ran
    rcases of_run_pure ran with ⟨rfl, rfl⟩
    exact ⟨.checked id _ ((Graph.isComplete_eq found).trans complete), wired⟩
  · rw [if_neg complete] at ran
    have incomplete : (bookOf account state).complete id = false :=
      (Graph.isComplete_eq found).trans (Bool.not_eq_true _ ▸ complete)
    rcases of_ask_bind_ok ran with ⟨known, answered, ran⟩
    cases known with
    | none =>
        rcases of_run_pure ran with ⟨rfl, rfl⟩
        rcases inputSpaces_none answered with ⟨input, member, unresolved⟩
        exact ⟨.unready id old input _ oldFound incomplete (inputs ▸ member) unresolved, wired⟩
    | some spaces =>
        have resolved := inputSpaces_some answered
        rcases of_editComponent_bind_ok ran with ⟨_, -, ran⟩
        rw [run_bind_ok (run_modify _ _)] at ran
        rcases of_run_bind_ok ran with ⟨_, afterHook, hookRan, ran⟩
        rcases runHook_ok registers oldFound hook hookRan with ⟨registered, hookBook⟩
        have registered : Graph.Registers id (state.graph.changeComponent id Component.markComplete)
            afterHook.graph := registered
        have hookBook : bookOf account afterHook = { bookOf account state with
            space := afterHook.graph.spaceOf, complete := afterHook.graph.isComplete,
            deferred := afterHook.graph.deferredOf } := hookBook
        rcases of_ask_bind_ok ran with ⟨waiting, waitingHeld, ran⟩
        have waitingFound := Graph.heldComponent_eq_ok.mp waitingHeld
        rcases of_editComponent_bind_ok ran with ⟨_, -, ran⟩
        rcases of_run_pure ran with ⟨rfl, same⟩
        have same : withGraph afterHook (afterHook.graph.changeComponent id Component.markReady) = final := same
        rcases marks_of_completing found registered with ⟨spacesSame, completeSame, deferredSame⟩
        have waitingDeferred : waiting.deferred = (bookOf account state).deferred id := by
          rw [← Graph.deferredOf_eq waitingFound, deferredSame]
          rfl
        have completes : bookOf account final = (bookOf account state).completeAt id := by
          rw [← same, bookOf_changeComponent waitingFound (by rfl), hookBook, spacesSame, completeSame, deferredSame]
          rfl
        have step := Step.completes id old (bookOf account state) oldFound incomplete
          fun input member => resolved input (inputs ▸ member)
        rw [← waitingDeferred, ← completes] at step
        refine ⟨step, ?_⟩
        rw [← same]
        show (afterHook.graph.changeComponent id Component.markReady).wiring = graph.wiring
        rw [Graph.wiring_changeComponent afterHook.graph id Component.markReady fun _ => rfl, registered.wiring,
          Graph.wiring_changeComponent state.graph id Component.markComplete fun _ => rfl, wired]

theorem forward_step (wired : state.graph.wiring = graph.wiring) {socket : SocketId} {op : DataOp}
    {connection : Connection} (ran : (forward socket op connection).run state = (.ok tasks, final)) :
    Step graph (.forward socket op connection) (bookOf account state) tasks (bookOf account final) ∧
      final.graph.wiring = graph.wiring := by
  cases connection with
  | socket target =>
      rcases of_run_pure ran with ⟨rfl, rfl⟩
      exact ⟨.link socket op target _, wired⟩
  | space space =>
      rcases of_run_pure ran with ⟨rfl, rfl⟩
      exact ⟨.bound socket op space _, wired⟩
  | computation id =>
      rcases of_ask_bind_ok ran with ⟨computation, held, ran⟩
      have found := Graph.computation?_of_wiring wired id ▸ Graph.heldComputation_eq_ok.mp held
      rcases of_ask_bind_ok ran with ⟨owner, ownerHeld, ran⟩
      have ownerFound := Graph.heldComponent_eq_ok.mp ownerHeld
      by_cases complete : owner.complete = true
      · rw [if_pos complete] at ran
        rcases of_run_pure ran with ⟨rfl, rfl⟩
        exact ⟨.ready socket op id computation _ found ((Graph.isComplete_eq ownerFound).trans complete), wired⟩
      · rw [if_neg complete] at ran
        have incomplete : (bookOf account state).complete computation.owner = false :=
          (Graph.isComplete_eq ownerFound).trans (Bool.not_eq_true _ ▸ complete)
        have deferred : (bookOf account state).deferred computation.owner = owner.deferred :=
          Graph.deferredOf_eq ownerFound
        by_cases waits : socket ∈ owner.deferred
        · rw [if_pos waits] at ran
          rcases of_run_pure ran with ⟨rfl, rfl⟩
          exact ⟨.waiting socket op id computation _ found incomplete (deferred ▸ waits), wired⟩
        · rw [if_neg waits] at ran
          rcases of_editComponent_bind_ok ran with ⟨_, -, ran⟩
          rcases of_run_pure ran with ⟨rfl, same⟩
          have same : withGraph state (state.graph.changeComponent computation.owner (Component.defer socket)) =
              final := same
          rw [← same]
          have step := Step.defer socket op id computation (bookOf account state) found incomplete (deferred ▸ waits)
          have defers : bookOf account (withGraph state
              (state.graph.changeComponent computation.owner (Component.defer socket))) =
              (bookOf account state).deferAt computation.owner socket := by
            rw [bookOf_changeComponent ownerFound (by rfl), Book.deferAt, deferred]
            rfl
          rw [← defers] at step
          refine ⟨step, ?_⟩
          exact (Graph.wiring_changeComponent state.graph computation.owner (Component.defer socket)
            fun _ => rfl).trans wired

/-- A run of a method changes the log and the number of calls. -/
theorem runMethod_ok {recording : Recording α} {value : α}
    (ran : (runMethod recording).run state = (.ok value, final)) :
    ∃ recorder, recording { log := state.log, calls := state.session.calls } = .ok (value, recorder) ∧
      final = { state with log := recorder.log, session := { state.session with calls := recorder.calls } } := by
  have ran := of_get_bind_ok ran
  cases recorded : recording { log := state.log, calls := state.session.calls } with
  | error error =>
      rw [recorded] at ran
      cases congrArg Prod.fst ran
  | ok answer =>
      rw [recorded] at ran
      have ran := of_set_bind_ok ran
      rcases of_run_pure ran with ⟨rfl, same⟩
      exact ⟨answer.2, rfl, same.symm⟩

theorem fireWith_step (wired : state.graph.wiring = graph.wiring) {id : ComputationId} {inputs : List DataOp}
    (ran : (fireWith id inputs).run state = (.ok tasks, final)) :
    ∃ later, Step graph (.fireWith id inputs) (bookOf account state) tasks (bookOf later final) ∧
      final.graph.wiring = graph.wiring := by
  have ran := of_get_bind_ok ran
  by_cases known : (id, inputs.map DataOp.id) ∈ state.fired
  · simp only [if_pos known] at ran
    rcases of_run_pure ran with ⟨rfl, rfl⟩
    exact ⟨account, .repeated id inputs _ known, wired⟩
  · simp only [if_neg known] at ran
    have ran := of_set_bind_ok ran
    rcases of_run_bind_ok ran with ⟨_, recorded, recording, ran⟩
    have recording : { state with
        fired := (id, inputs.map DataOp.id) :: state.fired
        session := { state.session with
          trace := state.session.trace.push (.fired id (inputs.map DataOp.id)) } } = recorded :=
      congrArg Prod.snd recording
    rw [← recording] at ran
    rcases of_ask_bind_ok ran with ⟨computation, held, ran⟩
    have found := Graph.computation?_of_wiring wired id ▸ Graph.heldComputation_eq_ok.mp held
    rcases of_ask_bind_ok ran with ⟨owner, ownerHeld, ran⟩
    have ownerFound : state.graph.component? computation.owner = some owner :=
      Graph.heldComponent_eq_ok.mp ownerHeld
    rcases Graph.component?_of_wiring wired ownerFound with ⟨old, oldFound, same⟩
    rcases Component.fields_of_wiring same with ⟨name, -, -, -, methods, -, -⟩
    cases chosen : owner.method? computation.method with
    | none =>
        rw [chosen] at ran
        cases congrArg Prod.fst ran
    | some method =>
        rw [chosen] at ran
        rcases of_run_bind_ok ran with ⟨outputs, middle, methodRan, ran⟩
        rcases of_run_pure ran with ⟨rfl, rfl⟩
        rcases runMethod_ok methodRan with ⟨recorder, applied, rfl⟩
        have context : contextOf state.graph computation.owner owner =
            contextOf graph computation.owner { old with registry := owner.registry } := by
          unfold contextOf
          rw [name, Graph.kind_of_wiring wired]
        have fires : Fires graph state.log ⟨id, inputs, outputs⟩ recorder.log := by
          refine ⟨computation, old, method, owner.registry, state.session.calls, recorder.calls, found, oldFound,
            ?_, ?_⟩
          · rw [← chosen, Component.method?, Component.method?, methods]
          · rw [← context]
            exact applied
        have step := Step.fires ⟨id, inputs, outputs⟩ computation (bookOf account state) recorder.log known found fires
        refine ⟨account.fire ⟨id, inputs, outputs⟩, ?_, wired⟩
        convert step using 1
        unfold bookOf Book.fire
        congr 1
        simp [firedEvents, Event.fired?, Firing.key]

/-- Every task that succeeds is a step of the book and leaves the wiring alone. -/
theorem perform_step (wired : state.graph.wiring = graph.wiring) (registers : hooks.Registers graph)
    {task : Task} (ran : (perform hooks task).run state = (.ok tasks, final)) :
    ∃ later, Step graph task (bookOf account state) tasks (bookOf later final) ∧
      final.graph.wiring = graph.wiring := by
  cases task with
  | seed id =>
      rcases of_ask_bind_ok ran with ⟨node, held, ran⟩
      rcases Graph.component?_of_wiring wired (Graph.heldComponent_eq_ok.mp held) with ⟨old, oldFound, same⟩
      rcases Component.fields_of_wiring same with ⟨-, inputs, outputs, internals, -⟩
      rcases of_run_pure ran with ⟨rfl, rfl⟩
      have sockets : node.sockets = old.sockets := by
        rw [Component.sockets, inputs, outputs, internals, Component.sockets]
      exact ⟨account, sockets ▸ .seed id old _ oldFound, wired⟩
  | seedSocket id socket =>
      rcases of_ask_bind_ok ran with ⟨target, held, ran⟩
      rcases Graph.socket?_of_wiring wired (Graph.heldSocket_eq_ok.mp held) with ⟨old, oldFound, same⟩
      rcases Socket.fields_of_wiring same with ⟨-, incoming, -⟩
      rcases of_run_pure ran with ⟨rfl, rfl⟩
      have step := Step.seedSocket id socket old (bookOf account state) oldFound
      rw [← incoming] at step
      exact ⟨account, step, wired⟩
  | place id socket space =>
      have ran := of_set_bind_ok (of_get_bind_ok ran)
      rcases of_run_pure ran with ⟨rfl, rfl⟩
      exact ⟨_, .place id socket space _, wired⟩
  | deliver socket op => exact ⟨account, deliver_step wired ran⟩
  | check id => exact ⟨account, check_step wired registers ran⟩
  | forward socket op connection => exact ⟨account, forward_step wired ran⟩
  | wake socket =>
      rcases of_ask_bind_ok ran with ⟨target, held, ran⟩
      rcases Graph.socket?_of_wiring wired (Graph.heldSocket_eq_ok.mp held) with ⟨old, oldFound, same⟩
      rcases Socket.fields_of_wiring same with ⟨-, -, outgoing, -⟩
      rcases of_run_pure ran with ⟨rfl, rfl⟩
      have step := Step.wake socket old (bookOf account state) oldFound
      rw [← outgoing] at step
      exact ⟨account, step, wired⟩
  | fireSources id =>
      rcases of_ask_bind_ok ran with ⟨node, held, ran⟩
      rcases Graph.component?_of_wiring wired (Graph.heldComponent_eq_ok.mp held) with ⟨old, oldFound, same⟩
      rcases Component.fields_of_wiring same with ⟨-, -, -, -, -, sources, -⟩
      rcases of_run_pure ran with ⟨rfl, rfl⟩
      exact ⟨account, sources ▸ .fireSources id old _ oldFound, wired⟩
  | fire id =>
      rcases of_ask_bind_ok ran with ⟨computation, held, ran⟩
      have found := Graph.computation?_of_wiring wired id ▸ Graph.heldComputation_eq_ok.mp held
      have ran := of_get_bind_ok ran
      rcases of_run_pure ran with ⟨rfl, rfl⟩
      exact ⟨account, .fire id computation _ found, wired⟩
  | fireWith id inputs => exact fireWith_step wired ran

/-! ### Work -/

/-- Serving an arrival, or finding that there is none. -/
theorem serve_ok (wired : state.graph.wiring = graph.wiring) {answer : Option (List Task)}
    (ran : serve.run state = (.ok answer, final)) :
    (answer = none ∧ final = state ∧ (bookOf account state).arrivals[(bookOf account state).served]? = none) ∨
      ∃ more, answer = some more ∧ Move graph ([], bookOf account state) (more, bookOf account final) ∧
        final.graph.wiring = graph.wiring := by
  have ran := of_get_bind_ok ran
  cases next : state.arrivals[state.served]? with
  | none =>
      rw [next] at ran
      rcases of_run_pure ran with ⟨rfl, rfl⟩
      exact .inl ⟨rfl, rfl, by simpa [bookOf] using next⟩
  | some arrival =>
      rw [next] at ran
      rcases of_ask_bind_ok (of_set_bind_ok ran) with ⟨source, held, ran⟩
      rcases Graph.socket?_of_wiring wired (Graph.heldSocket_eq_ok.mp held) with ⟨old, oldFound, same⟩
      rcases Socket.fields_of_wiring same with ⟨-, -, outgoing, -⟩
      rcases of_run_pure ran with ⟨rfl, rfl⟩
      refine .inr ⟨_, rfl, ?_, wired⟩
      have served : (bookOf account state).arrivals[(bookOf account state).served]? = some arrival := by
        simpa [bookOf] using next
      have move := Move.serve arrival old (bookOf account state) served oldFound
      rw [← outgoing] at move
      exact move

/-- The work of a build that succeeds finishes. -/
theorem work_finishes (registers : hooks.Registers graph) {fuel : Nat} {answer : Unit}
    (wired : state.graph.wiring = graph.wiring) (ran : (work hooks fuel tasks).run state = (.ok answer, final)) :
    ∃ later, Finishes graph tasks (bookOf account state) (bookOf later final) ∧
      final.graph.wiring = graph.wiring := by
  induction fuel generalizing account state tasks with
  | zero => cases congrArg Prod.fst ran
  | succ fuel inductionHypothesis =>
      cases tasks with
      | nil =>
          rcases of_run_bind_ok ran with ⟨served, middle, serving, rest⟩
          rcases serve_ok wired serving with ⟨rfl, rfl, done⟩ | ⟨more, rfl, move, wiredAfter⟩
          · rcases of_run_pure rest with ⟨-, rfl⟩
            exact ⟨account, ⟨.refl, by simpa using done⟩, wired⟩
          · rcases inductionHypothesis wiredAfter rest with ⟨later, ⟨moves, done⟩, wiredLast⟩
            exact ⟨later, ⟨.head move moves, done⟩, wiredLast⟩
      | cons task waiting =>
          rcases of_run_bind_ok ran with ⟨more, middle, performed, ran⟩
          rcases perform_step wired registers performed with ⟨middleAccount, step, wiredAfter⟩
          rcases inductionHypothesis wiredAfter ran with ⟨later, ⟨moves, done⟩, wiredLast⟩
          exact ⟨later, ⟨.head (.task task waiting more _ _ step) moves, done⟩, wiredLast⟩

end Build

end Wiring
