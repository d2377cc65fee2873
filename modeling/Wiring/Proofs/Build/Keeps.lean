import Mathlib.Order.RelClasses
import Wiring.Proofs.Graph.Change
import Wiring.Build

/-!
Contract: what builds may change in a graph.

Owns: that a build leaves the wiring and the variables alone as far as its hooks do; more generally, that every
relation between graphs which ignores all but these, and which the hooks keep, is kept by the whole build whatever
its outcome.
-/

namespace Wiring

open Order (Preimage)

variable {α : Type} {related : Graph → Graph → Prop}

/-- The graph that a build works on. -/
def BuildState.graph (state : BuildState) : Graph :=
  state.session.graph

/-! ### Steps of a graph within sessions and builds -/

theorem Session.run_ofGraph (step : GraphM α) (session : Session) :
    (Session.ofGraph step).run session =
      (Session.stopOnError (outcome step session.graph), { session with graph := after step session.graph }) :=
  rfl

theorem Build.run_ofSession (step : SessionM α) (state : BuildState) :
    (Build.ofSession step).run state =
      (outcome step state.session, { state with session := after step state.session }) := rfl

theorem Session.keeps_ofGraph {step : GraphM α} (keeps : Keeps related step) :
    Keeps (Preimage Session.graph related) (Session.ofGraph step) :=
  fun session => keeps session.graph

theorem Build.keeps_ofSession {step : SessionM α} (keeps : Keeps (Preimage Session.graph related) step) :
    Keeps (Preimage BuildState.graph related) (Build.ofSession step) :=
  fun state => keeps state.session

theorem Build.keeps_ofGraph {step : GraphM α} (keeps : Keeps related step) :
    Keeps (Preimage BuildState.graph related) (Build.ofGraph step) :=
  Build.keeps_ofSession (Session.keeps_ofGraph keeps)

/-! ### The edits of a build -/

theorem Graph.wiring_changeComponent (graph : Graph) (id : ComponentId) (change : Component → Component)
    (same : ∀ node, (change node).wiring = node.wiring) :
    (graph.changeComponent id change).wiring = graph.wiring := by
  refine ext_parts rfl (fun other => ?_) (fun _ => rfl) rfl
  rw [component?_wiring, component?_wiring, component?_changeComponent]
  split
  · rw [Option.map_map]
    exact congrArg (Option.map · _) (funext same)
  · rfl

theorem Graph.wiring_changeSocket (graph : Graph) (id : SocketId) (change : Socket → Socket)
    (same : ∀ socket, (change socket).wiring = socket.wiring) :
    (graph.changeSocket id change).wiring = graph.wiring := by
  refine ext_parts rfl (fun _ => rfl) (fun other => ?_) rfl
  rw [socket?_wiring, socket?_wiring, socket?_changeSocket]
  split
  · rw [Option.map_map]
    exact congrArg (Option.map · _) (funext same)
  · rfl

namespace Build

/-! ### The tasks of a build -/

/-- An op is passed on only to a computation that reads the socket. -/
def Fed (graph : Graph) : Task → Prop
  | .forward socket _ (.computation id) => graph.Feeds socket id
  | _ => True

theorem fed_map {β : Type} (make : β → Task) (fed : ∀ item graph, Fed graph (make item)) (items : List β) :
    ∀ task ∈ items.map make, ∀ graph, Fed graph task := by
  intro task member graph
  rcases List.mem_map.mp member with ⟨item, -, rfl⟩
  exact fed item graph

/-- A task does not give rise to the passing on of ops, only arrivals do. -/
theorem answers_perform (hooks : HookRunner) (task : Task) :
    Answers (fun tasks : List Task => ∀ task ∈ tasks, ∀ graph, Fed graph task) (perform hooks task) := by
  have nothing : ∀ task ∈ ([] : List Task), ∀ graph, Fed graph task := by simp
  have single (task : Task) (fed : ∀ graph, Fed graph task) : ∀ other ∈ [task], ∀ graph, Fed graph other :=
    fun other member graph => List.mem_singleton.mp member ▸ fed graph
  cases task with
  | seed id => exact Answers.bind fun node => Answers.pure (fed_map (.seedSocket id) (fun _ _ => trivial) _)
  | seedSocket id socket => exact Answers.bind fun target => Answers.pure (fed_map (.place id socket) (fun _ _ => trivial) _)
  | place id socket space =>
      exact Answers.bind fun state => Answers.bind fun _ => Answers.pure (single (.deliver socket _) fun _ => trivial)
  | deliver socket op =>
      refine Answers.bind fun state => ?_
      split
      · exact Answers.pure nothing
      refine Answers.bind fun target => Answers.bind fun _ => ?_
      split
      · exact Answers.pure nothing
      refine Answers.bind fun _ => ?_
      split
      · exact Answers.pure (single (.check _) fun _ => trivial)
      · exact Answers.pure nothing
  | check id =>
      refine Answers.bind fun node => ?_
      split
      · exact Answers.pure nothing
      refine Answers.bind fun known => ?_
      cases known with
      | none => exact Answers.pure nothing
      | some spaces =>
          refine Answers.bind fun _ => Answers.bind fun _ => Answers.bind fun _ => Answers.bind fun waiting =>
            Answers.bind fun _ => Answers.pure fun task member graph => ?_
          rcases List.mem_append.mp member with wakes | sources
          · exact fed_map .wake (fun _ _ => trivial) waiting.deferred task wakes graph
          · exact single (.fireSources id) (fun _ => trivial) task sources graph
  | forward socket op connection =>
      cases connection with
      | socket target => exact Answers.pure (single (.deliver target op) fun _ => trivial)
      | space space => exact Answers.pure nothing
      | computation id =>
          refine Answers.bind fun computation => Answers.bind fun owner => ?_
          split
          · exact Answers.pure (single (.fire id) fun _ => trivial)
          split
          · exact Answers.pure nothing
          · exact Answers.bind fun _ => Answers.pure nothing
  | wake socket => exact Answers.bind fun target => Answers.pure (fed_map .fire (fun _ _ => trivial) _)
  | fireSources id => exact Answers.bind fun node => Answers.pure (fed_map .fire (fun _ _ => trivial) node.sources)
  | fire id =>
      exact Answers.bind fun computation => Answers.bind fun state =>
        Answers.pure (fed_map (.fireWith id) (fun _ _ => trivial) _)
  | fireWith id inputs =>
      refine Answers.bind fun state => ?_
      dsimp only
      split
      · exact Answers.pure nothing
      refine Answers.bind fun _ => Answers.bind fun _ => Answers.bind fun computation => Answers.bind fun owner => ?_
      split
      · exact Answers.throw _
      · refine Answers.bind fun outputs => Answers.pure ?_
        exact fed_map (fun output : SocketId × DataOp => .deliver output.1 output.2) (fun _ _ => trivial) _

/-- The passing on of an arrival is fed by its socket. -/
theorem serve_fed {state : BuildState} {tasks : List Task} (answered : outcome serve state = .ok (some tasks)) :
    ∀ task ∈ tasks, Fed state.graph task := by
  have ran : serve.run state = (.ok (some tasks), after serve state) := by rw [run_eq, answered]
  unfold serve at ran
  rw [run_bind_ok (run_get state)] at ran
  cases next : state.arrivals[state.served]? with
  | none =>
      rw [next] at ran
      cases congrArg Prod.fst ran
  | some arrival =>
      rw [next] at ran
      dsimp only at ran
      rw [run_bind_ok (run_set state _)] at ran
      rcases of_run_bind_ok ran with ⟨source, middle, asked, ran⟩
      have asked : Session.stopOnError (state.graph.heldSocket arrival.socket) = .ok source :=
        congrArg Prod.fst asked
      have found : state.graph.socket? arrival.socket = some source := by
        refine Graph.heldSocket_eq_ok.mp ?_
        cases known : state.graph.heldSocket arrival.socket with
        | error error =>
            rw [known] at asked
            cases asked
        | ok other =>
            rw [known] at asked
            cases asked
            rfl
      obtain rfl : source.outgoing.map (.forward arrival.socket arrival.op) = tasks :=
        Option.some.inj (of_run_pure ran).1
      intro task member
      rcases List.mem_map.mp member with ⟨connection, entered, rfl⟩
      cases connection with
      | socket target => trivial
      | space space => trivial
      | computation id => exact ⟨source, found, entered⟩

section

variable [IsPreorder Graph related]
  (ignores : ∀ before later : Graph, later.wiring = before.wiring → before.SameVariables later →
    (∀ owner, ∀ socket ∈ later.deferredOf owner,
      socket ∈ before.deferredOf owner ∨ before.MayWait owner socket) → related before later)

include ignores

/-- An edit of a component that makes only readers of the component wait. -/
theorem editComponent_of {id : ComponentId} {change : Component → Component} {graph : Graph}
    (same : ∀ node, (change node).wiring = node.wiring)
    (registry : ∀ node, (change node).registry = node.registry)
    (waiting : ∀ node, graph.component? id = some node → ∀ socket ∈ (change node).deferred,
      socket ∈ node.deferred ∨ graph.MayWait id socket) :
    related graph (after (Graph.editComponent id change) graph) := by
  refine Keeps.query_bind_of fun node held => ?_
  have found := Graph.heldComponent_eq_ok.mp held
  refine ignores graph _ (Graph.wiring_changeComponent graph id change same) (.changeComponent graph id registry)
    fun owner socket waits => ?_
  have waits : socket ∈ (graph.changeComponent id change).deferredOf owner := waits
  rw [Graph.deferredOf_changeComponent found] at waits
  by_cases own : owner = id
  · subst own
    rw [Function.update_self] at waits
    rw [Graph.deferredOf_eq found]
    exact waiting node found socket waits
  · rw [Function.update_of_ne own] at waits
    exact .inl waits

theorem keeps_editComponent (id : ComponentId) (change : Component → Component)
    (same : ∀ node, (change node).wiring = node.wiring)
    (registry : ∀ node, (change node).registry = node.registry)
    (fewer : ∀ node, ∀ socket ∈ (change node).deferred, socket ∈ node.deferred) :
    Keeps related (Graph.editComponent id change) :=
  fun _ => editComponent_of ignores same registry fun node _ socket waits => .inl (fewer node socket waits)

theorem keeps_editSocket (id : SocketId) (change : Socket → Socket)
    (same : ∀ socket, (change socket).wiring = socket.wiring) :
    Keeps related (Graph.editSocket id change) := by
  intro graph
  refine Keeps.query_bind_of fun socket found => ?_
  exact ignores graph _ (Graph.wiring_changeSocket graph id change same) ⟨rfl, rfl⟩ fun _ _ waits => .inl waits

theorem keeps_reset (id : ComponentId) : Keeps related (reset id) := by
  refine Keeps.bind (Keeps.query _) fun node => ?_
  refine Keeps.bind (Keeps.forM (fun socket => ?_) node.sockets) fun _ => ?_
  · exact keeps_editSocket ignores socket _ fun _ => rfl
  · exact keeps_editComponent ignores id _ (fun _ => rfl) (fun _ => rfl) fun _ _ waits =>
        absurd waits List.not_mem_nil

omit ignores in
/-- A step that only changes what the build itself keeps. -/
theorem keeps_of_graph_eq {step : BuildM α} (same : ∀ state, (after step state).graph = state.graph) :
    Keeps (Preimage BuildState.graph related) step := by
  intro state
  unfold Preimage
  rw [same]
  exact Std.Refl.refl _

omit ignores in
theorem keeps_ask (question : Graph → Except Error α) :
    Keeps (Preimage BuildState.graph related) (ask question) :=
  keeps_ofGraph (Keeps.query question)

omit ignores in
theorem keeps_record (event : Event) : Keeps (Preimage Session.graph related) (Session.record event) :=
  fun session => IsPreorder.toRefl.refl session.graph

omit ignores in
/-- After a question the state is the same, and the question has been answered. -/
theorem ask_bind_of {β : Type} {question : Graph → Except Error α} {next : α → BuildM β} {state : BuildState}
    (second : ∀ value, question state.graph = .ok value →
      Preimage BuildState.graph related state (after (next value) state)) :
    Preimage BuildState.graph related state (after (ask question >>= next) state) := by
  refine Keeps.bind_of (keeps_ask question state) fun value answered => ?_
  refine second value ?_
  have answered : Session.stopOnError (question state.graph) = .ok value := answered
  cases known : question state.graph with
  | error error => simp [known, Session.stopOnError] at answered
  | ok other =>
      rw [known] at answered
      exact congrArg Except.ok (Except.ok.inj answered)

omit ignores in
/-- Setting a state with the same graph. -/
theorem set_bind_of {β : Type} {next : PUnit → BuildM β} {state given : BuildState}
    (same : given.graph = state.graph) (keeps : Keeps (Preimage BuildState.graph related) (next ⟨⟩)) :
    Preimage BuildState.graph related state (after (set given >>= next) state) := by
  refine Keeps.bind_of ?_ fun _ _ => keeps _
  show related state.graph given.graph
  rw [same]
  exact Std.Refl.refl _

theorem keeps_deliver (socket : SocketId) (op : DataOp) :
    Keeps (Preimage BuildState.graph related) (deliver socket op) := by
  intro state
  refine Keeps.get_bind_of ?_
  split
  · exact Keeps.pure _ _
  · refine ask_bind_of fun target found => ?_
    refine set_bind_of rfl ?_
    split
    · exact Keeps.pure _
    · refine Keeps.bind (keeps_ofGraph (keeps_editSocket ignores socket _ fun _ => rfl)) fun _ => ?_
      split
      · exact Keeps.pure _
      · exact Keeps.pure _

theorem keeps_check {hooks : HookRunner}
    (hooksKeep : ∀ hook id spaces, Keeps (Preimage Session.graph related) (hooks hook id spaces))
    (id : ComponentId) : Keeps (Preimage BuildState.graph related) (check hooks id) := by
  refine Keeps.bind (keeps_ask _) fun node => ?_
  split
  · exact Keeps.pure _
  refine Keeps.bind (keeps_ask _) fun known => ?_
  cases known with
  | none => exact Keeps.pure _
  | some spaces =>
      refine Keeps.bind (keeps_ofGraph (keeps_editComponent ignores id _ (fun _ => rfl) (fun _ => rfl)
        fun _ _ waits => waits)) fun _ => ?_
      refine Keeps.bind (keeps_of_graph_eq fun _ => rfl) fun _ => ?_
      refine Keeps.bind ?_ fun _ => ?_
      · unfold runHook
        split
        · split
          · exact Keeps.pure _
          · refine keeps_ofSession (Keeps.bind (keeps_record _) fun _ => ?_)
            exact Keeps.bind (hooksKeep _ id _) fun _ => keeps_record _
        · exact Keeps.pure _
      · refine Keeps.bind (keeps_ask _) fun waiting => ?_
        refine Keeps.bind (keeps_ofGraph (keeps_editComponent ignores id _ (fun _ => rfl) (fun _ => rfl)
          fun _ _ waits => absurd waits List.not_mem_nil)) fun _ => ?_
        exact Keeps.pure _

/-- A computation to which an op is passed is a reader of the socket. -/
theorem forward_of {socket : SocketId} {op : DataOp} {connection : Connection} {state : BuildState}
    (fed : Fed state.graph (.forward socket op connection)) :
    Preimage BuildState.graph related state (after (forward socket op connection) state) := by
  cases connection with
  | socket target => exact Keeps.pure _ _
  | space space => exact Keeps.pure _ _
  | computation id =>
      refine ask_bind_of fun computation held => ask_bind_of fun owner _ => ?_
      have mayWait : state.graph.MayWait computation.owner socket :=
        ⟨id, computation, fed, Graph.heldComputation_eq_ok.mp held, rfl⟩
      split
      · exact Keeps.pure _ _
      split
      · exact Keeps.pure _ _
      refine Keeps.bind_of ?_ fun _ _ => Keeps.pure _ _
      refine editComponent_of ignores (fun _ => rfl) (fun _ => rfl) fun node _ other waits => ?_
      rcases List.mem_append.mp waits with known | new
      · exact .inl known
      · exact .inr (List.mem_singleton.mp new ▸ mayWait)

omit ignores in
theorem keeps_runMethod (recording : Recording α) :
    Keeps (Preimage BuildState.graph related) (runMethod recording) := by
  intro state
  refine Keeps.get_bind_of ?_
  split
  · exact set_bind_of rfl (Keeps.pure _)
  · exact Keeps.throw _ _

omit ignores in
theorem keeps_fireWith (id : ComputationId) (inputs : List DataOp) :
    Keeps (Preimage BuildState.graph related) (fireWith id inputs) := by
  intro state
  refine Keeps.get_bind_of ?_
  dsimp only
  split
  · exact Keeps.pure _ _
  · refine set_bind_of rfl ?_
    refine Keeps.bind (keeps_ofSession (keeps_record _)) fun _ => ?_
    refine Keeps.bind (keeps_ask _) fun computation => ?_
    refine Keeps.bind (keeps_ask _) fun owner => ?_
    split
    · exact Keeps.throw _
    · exact Keeps.bind (keeps_runMethod _) fun outputs => Keeps.pure _

theorem perform_of {hooks : HookRunner}
    (hooksKeep : ∀ hook id spaces, Keeps (Preimage Session.graph related) (hooks hook id spaces))
    {task : Task} {state : BuildState} (fed : Fed state.graph task) :
    Preimage BuildState.graph related state (after (perform hooks task) state) := by
  cases task with
  | seed id => exact Keeps.bind (keeps_ask _) (fun _ => Keeps.pure _) _
  | seedSocket id socket => exact Keeps.bind (keeps_ask _) (fun _ => Keeps.pure _) _
  | place id socket space =>
      refine Keeps.get_bind_of ?_
      exact set_bind_of rfl (Keeps.pure _)
  | deliver socket op => exact keeps_deliver ignores socket op _
  | check id => exact keeps_check ignores hooksKeep id _
  | forward socket op connection => exact forward_of ignores fed
  | wake socket => exact Keeps.bind (keeps_ask _) (fun _ => Keeps.pure _) _
  | fireSources id => exact Keeps.bind (keeps_ask _) (fun _ => Keeps.pure _) _
  | fire id =>
      exact Keeps.bind (keeps_ask _) (fun _ => Keeps.bind Keeps.get fun _ => Keeps.pure _) _
  | fireWith id inputs => exact keeps_fireWith id inputs _

omit ignores in
theorem keeps_serve : Keeps (Preimage BuildState.graph related) serve := by
  intro state
  refine Keeps.get_bind_of ?_
  split
  · exact Keeps.pure _ _
  · exact set_bind_of rfl (Keeps.bind (keeps_ask _) fun _ => Keeps.pure _)

omit [IsPreorder Graph related] ignores in
theorem serve_graph (state : BuildState) : (after serve state).graph = state.graph := by
  have still : Preimage BuildState.graph Eq state (after serve state) := keeps_serve state
  exact Eq.symm still

variable (stays : ∀ before later : Graph, related before later →
  ∀ socket computation, before.Feeds socket computation → later.Feeds socket computation)

include stays

omit [IsPreorder Graph related] ignores in
theorem Fed.later {before later : Graph} (keeps : related before later) {task : Task} (fed : Fed before task) :
    Fed later task := by
  cases task with
  | forward socket op connection =>
      cases connection with
      | computation id => exact stays before later keeps socket id fed
      | socket target => trivial
      | space space => trivial
  | _ => trivial

theorem work_of {hooks : HookRunner}
    (hooksKeep : ∀ hook id spaces, Keeps (Preimage Session.graph related) (hooks hook id spaces))
    (fuel : Nat) {tasks : List Task} {state : BuildState} (fed : ∀ task ∈ tasks, Fed state.graph task) :
    Preimage BuildState.graph related state (after (work hooks fuel tasks) state) := by
  induction fuel generalizing tasks state with
  | zero => exact Keeps.throw _ _
  | succ fuel inductionHypothesis =>
      cases tasks with
      | nil =>
          refine Keeps.bind_of (keeps_serve state) fun served answered => ?_
          cases served with
          | none => exact Keeps.pure _ _
          | some more =>
              refine inductionHypothesis fun task member => ?_
              rw [serve_graph]
              exact serve_fed answered task member
      | cons task waiting =>
          have performed := perform_of ignores hooksKeep (fed task List.mem_cons_self)
          refine Keeps.bind_of performed fun more answered => inductionHypothesis fun other member => ?_
          rcases List.mem_append.mp member with new | old
          · exact answers_perform hooks task state more answered other new _
          · exact Fed.later stays performed (fed other (List.mem_cons_of_mem task old))

/-- A build keeps what its hooks keep, whatever its outcome. -/
theorem keeps_run {hooks : HookRunner}
    (hooksKeep : ∀ hook id spaces, Keeps (Preimage Session.graph related) (hooks hook id spaces))
    (fuel : Nat) (root : ComponentId) (config : BuildConfig) :
    Keeps (Preimage Session.graph related) (run hooks fuel root config) := by
  have unchanged (session : Session) : Preimage Session.graph related session { session with calls := 0 } :=
    IsPreorder.toRefl.refl session.graph
  refine Keeps.bind unchanged fun _ => ?_
  refine Keeps.bind (keeps_record _) fun _ => ?_
  refine Keeps.bind (Session.keeps_ofGraph (Keeps.query _)) fun members => ?_
  refine Keeps.bind (Session.keeps_ofGraph (Keeps.forM (keeps_reset ignores) members)) fun _ => ?_
  intro session
  refine Keeps.get_bind_of ?_
  have fed : ∀ task ∈ members.map Task.seed ++ members.map Task.check, Fed session.graph task := by
    intro task member
    rcases List.mem_append.mp member with seed | check
    · exact fed_map .seed (fun _ _ => trivial) members task seed _
    · exact fed_map .check (fun _ _ => trivial) members task check _
  have worked : Preimage BuildState.graph related { session } (after (work hooks fuel _) { session }) :=
    work_of ignores stays hooksKeep fuel fed
  refine Keeps.bind_of worked fun _ _ => ?_
  split
  · exact Keeps.throw _ _
  · refine Keeps.bind (Session.keeps_ofGraph (Keeps.query _)) (fun states => ?_) _
    dsimp only
    split
    · exact Keeps.bind (Keeps.throw _) fun _ => Keeps.pure _
    · exact Keeps.pure _

end

end Build

end Wiring
