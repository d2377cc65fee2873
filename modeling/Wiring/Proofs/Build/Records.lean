import Wiring.Proofs.Build.Closure
import Wiring.Proofs.Recording
import Wiring.Transposition

/-!
Contract: the log of a build, in the order in which its ops depend on each other.

Owns: `Ensures`, what a step that succeeds makes of a state; `Holds`, the invariant by which the log of a build is
ordered and has the ops at all sockets and in all tasks that are still to be done; that every task keeps it; and that
so the log of a report lists the ops of an acyclic graph in topological order, every op of a socket among them.

Does not own: which ops there are.

An op is handed from a firing to its deliveries, and from an arrival to what is forwarded, before any socket holds it.
So the invariant speaks of the ops that tasks carry as well, and each task hands on no other ops than it was given,
than sockets have, and than it has put into the log.
-/

namespace Wiring

open Order (Preimage)

/-- All methods of the graph pass on nothing but known ops. -/
def Graph.PassesOn (graph : Graph) : Prop :=
  ∀ id node, graph.component? id = some node → ∀ method ∈ node.methods, method.PassesOn

/-- Whatever a hook does, the methods that it leaves in the graph pass on nothing but known ops. -/
def HookRunner.PassOn (hooks : HookRunner) : Prop :=
  ∀ hook id spaces session, session.graph.PassesOn → (after (hooks hook id spaces) session).graph.PassesOn

/-- The ops that a task carries. -/
def Task.ops : Task → List DataOp
  | .deliver _ op => [op]
  | .forward _ op _ => [op]
  | .fireWith _ inputs => inputs
  | _ => []

namespace Build

/-- The log is in order and has the ops of all sockets, and those that are on their way. -/
structure Holds (ops : List DataOp) (state : BuildState) : Prop where
  methods : state.graph.PassesOn
  ordered : state.log.Ordered
  arrived : ∀ arrival ∈ state.arrivals, state.log.Has arrival.op
  known : ∀ op ∈ ops, state.log.Has op

/-! ### What steps ensure -/

/-- If the step succeeds where the first condition holds, it leads to where the second one does. -/
def Ensures {α : Type} (before : BuildState → Prop) (step : BuildM α) (later : α → BuildState → Prop) : Prop :=
  ∀ state value final, before state → step.run state = (.ok value, final) → later value final

namespace Ensures

variable {α β : Type} {before : BuildState → Prop} {step : BuildM α} {later : α → BuildState → Prop}

theorem pure {value : α} (holds : ∀ state, before state → later value state) :
    Ensures before (Pure.pure value : BuildM α) later := by
  intro state other final is ran
  rcases of_run_pure ran with ⟨rfl, rfl⟩
  exact holds state is

theorem throw (stop : Stop) : Ensures before (MonadExcept.throw stop : BuildM α) later := by
  intro state value final is ran
  cases congrArg Prod.fst ran

theorem bind {next : α → BuildM β} {last : β → BuildState → Prop} (first : Ensures before step later)
    (second : ∀ value, Ensures (later value) (next value) last) : Ensures before (step >>= next) last := by
  intro state answer final is ran
  rcases of_run_bind_ok ran with ⟨value, middle, firstRan, nextRan⟩
  exact second value middle answer final (first state value middle is firstRan) nextRan

/-- What has been read is the state. -/
theorem get : Ensures before (MonadState.get : BuildM BuildState) fun value state => value = state ∧ before state := by
  intro state value final is ran
  cases ran
  exact ⟨rfl, is⟩

theorem set {given : BuildState} {last : BuildState → Prop} (holds : ∀ state, before state → last given) :
    Ensures before (MonadStateOf.set given : BuildM PUnit) fun _ => last := by
  intro state value final is ran
  cases ran
  exact holds state is

theorem modify {change : BuildState → BuildState} {last : BuildState → Prop}
    (holds : ∀ state, before state → last (change state)) :
    Ensures before (modifyThe BuildState change : BuildM PUnit) fun _ => last := by
  intro state value final is ran
  cases ran
  exact holds state is

/-- A question leaves everything as it is. -/
theorem ask {question : Graph → Except Error α} : Ensures before (Build.ask question) fun value state =>
    question state.graph = .ok value ∧ before state := by
  intro state value final is ran
  have answered : Session.stopOnError (question state.session.graph) = .ok value := congrArg Prod.fst ran
  obtain rfl : state = final := congrArg Prod.snd ran
  refine ⟨?_, is⟩
  cases found : question state.session.graph with
  | error error =>
      rw [found] at answered
      cases answered
  | ok other =>
      rw [found] at answered
      exact found.trans (congrArg Except.ok (Except.ok.inj answered))

/-- A question whose answer does not matter. -/
theorem asking {question : Graph → Except Error α} {next : α → BuildM β} {last : β → BuildState → Prop}
    (second : ∀ value, Ensures before (next value) last) : Ensures before (Build.ask question >>= next) last :=
  ask.bind fun value state answer final is => second value state answer final is.2

end Ensures

/-! ### Sessions -/

/-- The methods of the later graph pass on known ops if those of the earlier one do. -/
def KeepsMethods (before later : Graph) : Prop :=
  before.PassesOn → later.PassesOn

instance : IsPreorder Graph KeepsMethods where
  refl _ passes := passes
  trans _ _ _ first second passes := second (first passes)

theorem keepsMethods_changeComponent (graph : Graph) (id : ComponentId) {change : Component → Component}
    (same : ∀ node, (change node).methods = node.methods) : KeepsMethods graph (graph.changeComponent id change) := by
  intro passes other node found method listed
  rw [Graph.component?_changeComponent] at found
  split at found
  · rcases Option.map_eq_some_iff.mp found with ⟨old, oldFound, rfl⟩
    rw [same] at listed
    exact passes other old oldFound method listed
  · exact passes other node found method listed

theorem keepsMethods_editComponent (id : ComponentId) {change : Component → Component}
    (same : ∀ node, (change node).methods = node.methods) : Keeps KeepsMethods (Graph.editComponent id change) :=
  Keeps.bind (Keeps.query _) fun _ graph => keepsMethods_changeComponent graph id same

theorem keepsMethods_editSocket (id : SocketId) (change : Socket → Socket) :
    Keeps KeepsMethods (Graph.editSocket id change) :=
  Keeps.bind (Keeps.query _) fun _ _ passes => passes

theorem keepsMethods_reset (id : ComponentId) : Keeps KeepsMethods (reset id) := by
  refine Keeps.bind (Keeps.query _) fun node => ?_
  refine Keeps.bind (Keeps.forM (fun socket => keepsMethods_editSocket socket _) node.sockets) fun _ => ?_
  exact keepsMethods_editComponent id fun _ => rfl

/-- A step within the session touches neither the log nor the arrivals. -/
theorem Ensures.ofSession {α : Type} {ops : List DataOp} {step : SessionM α}
    (keeps : Keeps (Preimage Session.graph KeepsMethods) step) :
    Ensures (Holds ops) (Build.ofSession step) fun _ => Holds ops := by
  intro state value final holds ran
  obtain rfl := congrArg Prod.snd ran
  exact { holds with methods := keeps state.session holds.methods }

theorem Ensures.ofGraph {α : Type} {ops : List DataOp} {step : GraphM α} (keeps : Keeps KeepsMethods step) :
    Ensures (Holds ops) (Build.ofGraph step) fun _ => Holds ops :=
  .ofSession (Session.keeps_ofGraph keeps)

/-! ### Tasks -/

section

variable {ops given rest : List DataOp} {state : BuildState} {hooks : HookRunner}

/-- Tasks carry on what is known. -/
theorem Holds.hand (holds : Holds (given ++ rest) state) {tasks : List Task} (each : ∀ task ∈ tasks, task.ops ⊆ given) :
    Holds (tasks.flatMap Task.ops ++ rest) state := by
  refine { holds with known := fun op member => holds.known op ?_ }
  rcases List.mem_append.mp member with new | old
  · rcases List.mem_flatMap.mp new with ⟨task, listed, carried⟩
    exact List.mem_append_left _ (each task listed carried)
  · exact List.mem_append_right _ old

theorem Holds.idle (holds : Holds (given ++ rest) state) : Holds (([] : List Task).flatMap Task.ops ++ rest) state :=
  holds.hand fun _ listed => absurd listed List.not_mem_nil

theorem Holds.single (holds : Holds (given ++ rest) state) {task : Task} (carried : task.ops ⊆ given) :
    Holds ([task].flatMap Task.ops ++ rest) state :=
  holds.hand fun _ listed => List.mem_singleton.mp listed ▸ carried

theorem Holds.map {α : Type} (holds : Holds (given ++ rest) state) {make : α → Task} {items : List α}
    (each : ∀ item ∈ items, (make item).ops ⊆ given) : Holds ((items.map make).flatMap Task.ops ++ rest) state := by
  refine holds.hand fun task listed => ?_
  rcases List.mem_map.mp listed with ⟨item, member, rfl⟩
  exact each item member

theorem Holds.has_opsAt (holds : Holds ops state) {socket : SocketId} {op : DataOp}
    (member : op ∈ opsAt state.arrivals socket) : state.log.Has op := by
  rcases List.mem_map.mp member with ⟨arrival, arrived, rfl⟩
  exact holds.arrived arrival (Array.mem_toList_iff.mp (List.mem_filter.mp arrived).1)

theorem ensures_deliver (socket : SocketId) (op : DataOp) : Ensures (Holds ([op] ++ rest)) (deliver socket op)
    fun tasks => Holds (tasks.flatMap Task.ops ++ rest) := by
  refine Ensures.get.bind fun known => ?_
  split
  · exact .pure fun _ is => is.2.idle
  refine Ensures.ask.bind fun target => ?_
  have arrives : Ensures (fun state => state.graph.heldSocket socket = .ok target ∧ known = state ∧
      Holds ([op] ++ rest) state) (set { known with arrivals := known.arrivals.push ⟨socket, op⟩ })
      fun _ => Holds ([op] ++ rest) := by
    refine .set fun state is => ?_
    obtain ⟨-, rfl, holds⟩ := is
    refine { holds with arrived := fun arrival member => ?_ }
    rcases Array.mem_push.mp member with old | rfl
    · exact holds.arrived arrival old
    · exact holds.known op List.mem_cons_self
  refine arrives.bind fun _ => ?_
  split
  · exact .pure fun _ holds => holds.idle
  refine (Ensures.ofGraph (keepsMethods_editSocket socket _)).bind fun _ => ?_
  split
  · exact .pure fun _ holds => holds.single (List.nil_subset _)
  · exact .pure fun _ holds => holds.idle

theorem ensures_runHook (hooksPass : hooks.PassOn) (id : ComponentId) (node : Component)
    (spaces : Keyed Space) : Ensures (Holds ops) (runHook hooks id node spaces) fun _ => Holds ops := by
  have recorded (event : Event) : Keeps (Preimage Session.graph KeepsMethods) (Session.record event) :=
    fun _ passes => passes
  unfold runHook
  split
  · split
    · exact .pure fun _ holds => holds
    · refine .ofSession (Keeps.bind (recorded _) fun _ => ?_)
      exact Keeps.bind (fun session => hooksPass _ id spaces session) fun _ => recorded _
  · exact .pure fun _ holds => holds

theorem ensures_check (hooksPass : hooks.PassOn) (id : ComponentId) :
    Ensures (Holds ([] ++ rest)) (check hooks id) fun tasks => Holds (tasks.flatMap Task.ops ++ rest) := by
  refine .asking fun node => ?_
  split
  · exact .pure fun _ holds => holds.idle
  refine .asking fun spaces => ?_
  cases spaces with
  | none => exact .pure fun _ holds => holds.idle
  | some spaces =>
      refine Ensures.bind (.ofGraph (keepsMethods_editComponent id fun _ => rfl)) fun _ => ?_
      have noted : Ensures (Holds ([] ++ rest))
          (modify fun state => { state with completed := state.completed.push id } : BuildM PUnit)
          fun _ => Holds ([] ++ rest) :=
        .modify fun _ holds => { holds with }
      refine noted.bind fun _ => (ensures_runHook hooksPass id node _).bind fun _ => .asking fun waiting => ?_
      refine Ensures.bind (.ofGraph (keepsMethods_editComponent id fun _ => rfl)) fun _ => .pure fun _ holds => ?_
      refine holds.hand fun task listed => ?_
      rcases List.mem_append.mp listed with wakes | sources
      · rcases List.mem_map.mp wakes with ⟨socket, -, rfl⟩
        exact List.nil_subset _
      · rw [List.mem_singleton.mp sources]
        exact List.nil_subset _

theorem ensures_forward (socket : SocketId) (op : DataOp) (connection : Connection) :
    Ensures (Holds ([op] ++ rest)) (forward socket op connection)
      fun tasks => Holds (tasks.flatMap Task.ops ++ rest) := by
  cases connection with
  | socket target => exact .pure fun _ holds => holds.single (List.Subset.refl _)
  | space given => exact .pure fun _ holds => holds.idle
  | computation id =>
      refine .asking fun computation => .asking fun owner => ?_
      split
      · exact .pure fun _ holds => holds.single (List.nil_subset _)
      split
      · exact .pure fun _ holds => holds.idle
      exact Ensures.bind (.ofGraph (keepsMethods_editComponent computation.owner fun _ => rfl)) fun _ =>
        .pure fun _ holds => holds.idle

/-- The ops that a method returns are in the log that it leaves, which is in order. -/
theorem ensures_runMethod {recording : Recording (List DataOp)}
    (passes : Recording.Passes given (fun known outputs => outputs ⊆ known) recording) :
    Ensures (Holds (given ++ rest)) (runMethod recording) fun outputs => Holds (outputs ++ rest) := by
  intro state outputs final holds ran
  unfold runMethod at ran
  rw [run_bind_ok (run_get state)] at ran
  cases recorded : recording { log := state.log, calls := state.session.calls } with
  | error error =>
      rw [recorded] at ran
      cases congrArg Prod.fst ran
  | ok answer =>
      obtain ⟨returned, recorder⟩ := answer
      rw [recorded] at ran
      obtain rfl : returned = outputs := Except.ok.inj (congrArg Prod.fst ran)
      obtain rfl := congrArg Prod.snd ran
      rcases passes _ _ _ recorded with ⟨made, is, fits⟩
      have had : ∀ op ∈ given, state.log.Has op := fun op member => holds.known op (List.mem_append_left _ member)
      refine ⟨holds.methods, holds.ordered.made is had, fun arrival member => ?_, fun op member => ?_⟩
      · exact (holds.arrived arrival member).grows is.grows
      · rcases List.mem_append.mp member with new | old
        · exact is.has had op (fits new)
        · exact (holds.known op (List.mem_append_right _ old)).grows is.grows

theorem ensures_fireWith (id : ComputationId) (inputs : List DataOp) : Ensures (Holds (inputs ++ rest))
    (fireWith id inputs) fun tasks => Holds (tasks.flatMap Task.ops ++ rest) := by
  refine Ensures.get.bind fun known => ?_
  dsimp only
  split
  · exact .pure fun _ is => is.2.idle
  have noted : Ensures (fun state => known = state ∧ Holds (inputs ++ rest) state)
      (set { known with fired := (id, inputs.map DataOp.id) :: known.fired })
      fun _ => Holds (inputs ++ rest) := by
    refine .set fun state is => ?_
    obtain ⟨rfl, holds⟩ := is
    exact { holds with }
  refine noted.bind fun _ => ?_
  have recorded : Ensures (Holds (inputs ++ rest))
      (ofSession (Session.record (.fired id (inputs.map DataOp.id)))) fun _ => Holds (inputs ++ rest) :=
    .ofSession fun _ passes => passes
  refine recorded.bind fun _ => .asking fun computation => Ensures.ask.bind fun owner => ?_
  cases chosen : owner.method? computation.method with
  | none => exact .throw _
  | some method =>
      intro state tasks final is ran
      have found := Graph.heldComponent_eq_ok.mp is.1
      have passes := is.2.methods _ owner found method (List.mem_of_find?_eq_some chosen)
      have fires : Ensures (Holds (inputs ++ rest)) (do
          let outputs ← runMethod (method.apply computation.settings
            (contextOf known.session.graph computation.owner owner) inputs)
          return (computation.outputs.zip outputs).map fun output => .deliver output.1 output.2)
          fun tasks => Holds (tasks.flatMap Task.ops ++ rest) := by
        refine (ensures_runMethod (Method.passes_apply passes computation.settings _ inputs)).bind fun outputs =>
          .pure fun _ holds => holds.map fun output listed op carried => ?_
        rw [List.mem_singleton.mp carried]
        exact (List.of_mem_zip listed).2
      exact fires state tasks final is.2 ran

theorem ensures_place (id : ComponentId) (socket : SocketId) (space : Space) : Ensures (Holds ([] ++ rest))
    (perform hooks (.place id socket space)) fun tasks => Holds (tasks.flatMap Task.ops ++ rest) := by
  intro state tasks final holds ran
  obtain rfl := Except.ok.inj (congrArg Prod.fst ran)
  obtain rfl := congrArg Prod.snd ran
  have grows := OpLog.grows_push state.log { label := "placeholder", component := some id, inputs := [], space }
  refine ⟨holds.methods, holds.ordered.push nofun, fun arrival member => ?_, fun op member => ?_⟩
  · exact (holds.arrived arrival member).grows grows
  · rcases List.mem_cons.mp member with rfl | old
    · exact OpLog.has_push _ _
    · exact (holds.known op old).grows grows

/-- The ops for which a computation fires are ops of sockets. -/
theorem Holds.fires (holds : Holds ([] ++ rest) state) (id : ComputationId) (inputs : List SocketId) :
    Holds (((combinations (inputs.map (opsAt state.arrivals))).map (Task.fireWith id)).flatMap Task.ops ++ rest)
      state := by
  refine { holds with known := fun op member => ?_ }
  rcases List.mem_append.mp member with new | old
  · rcases List.mem_flatMap.mp new with ⟨task, listed, carried⟩
    rcases List.mem_map.mp listed with ⟨ops, combined, rfl⟩
    rcases forall₂_of_mem_right (mem_combinations.mp combined) carried with ⟨arrived, isArrived, member⟩
    rcases List.mem_map.mp isArrived with ⟨socket, -, rfl⟩
    exact holds.has_opsAt member
  · exact holds.known op old

theorem ensures_perform (hooksPass : hooks.PassOn) (task : Task) :
    Ensures (Holds (task.ops ++ rest)) (perform hooks task) fun tasks => Holds (tasks.flatMap Task.ops ++ rest) := by
  cases task with
  | seed id => exact .asking fun node => .pure fun _ holds => holds.map fun _ _ => List.nil_subset _
  | seedSocket id socket => exact .asking fun target => .pure fun _ holds => holds.map fun _ _ => List.nil_subset _
  | place id socket space => exact ensures_place id socket space
  | deliver socket op => exact ensures_deliver socket op
  | check id => exact ensures_check hooksPass id
  | forward socket op connection => exact ensures_forward socket op connection
  | wake socket => exact .asking fun target => .pure fun _ holds => holds.map fun _ _ => List.nil_subset _
  | fireSources id => exact .asking fun node => .pure fun _ holds => holds.map fun _ _ => List.nil_subset _
  | fire id =>
      refine .asking fun computation => Ensures.get.bind fun known => .pure fun state is => ?_
      obtain ⟨rfl, holds⟩ := is
      exact holds.fires id computation.inputs
  | fireWith id inputs => exact ensures_fireWith id inputs

/-! ### Work -/

/-- An arrival that is passed on is in the log. -/
theorem ensures_serve : Ensures (Holds []) serve fun served =>
    Holds ((served.getD []).flatMap Task.ops) := by
  refine Ensures.get.bind fun known => ?_
  cases found : known.arrivals[known.served]? with
  | none => exact .pure fun _ is => is.2
  | some arrival =>
      have counted : Ensures (fun state => known = state ∧ Holds [] state)
          (set { known with served := known.served + 1 }) fun _ => Holds [arrival.op] := by
        refine .set fun state is => ?_
        obtain ⟨rfl, holds⟩ := is
        have arrived := holds.arrived arrival (Array.mem_of_getElem? found)
        exact { holds with known := fun op member => List.mem_singleton.mp member ▸ arrived }
      refine counted.bind fun _ => .asking fun source => .pure fun state holds => ?_
      refine { holds with known := fun op member => ?_ }
      rcases List.mem_flatMap.mp member with ⟨task, listed, carried⟩
      rcases List.mem_map.mp listed with ⟨connection, -, rfl⟩
      exact holds.known op carried

theorem ensures_work (hooksPass : hooks.PassOn) (fuel : Nat) (tasks : List Task) :
    Ensures (Holds (tasks.flatMap Task.ops)) (work hooks fuel tasks) fun _ => Holds [] := by
  induction fuel generalizing tasks with
  | zero => exact .throw _
  | succ fuel inductionHypothesis =>
      cases tasks with
      | nil =>
          refine ensures_serve.bind fun served => ?_
          cases served with
          | none => exact .pure fun _ holds => holds
          | some tasks => exact inductionHypothesis tasks
      | cons task waiting =>
          rw [List.flatMap_cons]
          refine (ensures_perform hooksPass task).bind fun more => ?_
          rw [← List.flatMap_append]
          exact inductionHypothesis (more ++ waiting)

/-- A build starts with an empty log and with tasks that carry no ops. -/
theorem holds_start {opened : Session} (passes : opened.graph.PassesOn) (members : List ComponentId) :
    Holds ((members.map Task.seed ++ members.map Task.check).flatMap Task.ops) { session := opened } where
  methods := passes
  ordered := .empty
  arrived arrival listed := absurd listed (Array.not_mem_empty arrival)
  known op member := by
    simp [List.flatMap_map, Task.ops] at member

/-- What a report tells comes from a state with an ordered log. -/
theorem holds_of_run (hooksPass : hooks.PassOn) {session final : Session} (passes : session.graph.PassesOn)
    {fuel : Nat} {root : ComponentId} {config : BuildConfig} {report : Report}
    (ran : (run hooks fuel root config).run session = (.ok report, final)) :
    ∃ state, Holds [] state ∧ report.log = state.log ∧ report.arrivals = state.arrivals := by
  unfold run at ran
  rcases of_run_bind_ok ran with ⟨_, _, counted, ran⟩
  obtain rfl := congrArg Prod.snd counted
  rcases of_run_bind_ok ran with ⟨_, _, recorded, ran⟩
  obtain rfl := congrArg Prod.snd recorded
  rcases of_run_bind_ok ran with ⟨members, _, listed, ran⟩
  obtain rfl := congrArg Prod.snd listed
  rcases of_run_bind_ok ran with ⟨_, opened, cleared, ran⟩
  have opens : opened.graph.PassesOn := by
    obtain rfl := congrArg Prod.snd cleared
    exact Keeps.forM keepsMethods_reset members session.graph passes
  rcases of_run_bind_ok ran with ⟨given, _, got, ran⟩
  obtain rfl : opened = given := Except.ok.inj (congrArg Prod.fst got)
  cases working : (work hooks fuel (members.map .seed ++ members.map .check)).run { session := opened } with
  | mk result state =>
      rw [working] at ran
      rcases of_run_bind_ok ran with ⟨_, _, -, ran⟩
      cases result with
      | error stop => cases congrArg Prod.fst ran
      | ok answer =>
          rcases of_run_bind_ok ran with ⟨states, _, -, ran⟩
          dsimp only at ran
          refine ⟨state, ensures_work hooksPass fuel _ _ _ _ (holds_start opens members) working, ?_⟩
          split at ran
          · rcases of_run_bind_ok ran with ⟨_, _, refused, -⟩
            cases congrArg Prod.fst refused
          · obtain rfl := Except.ok.inj (congrArg Prod.fst ran)
            exact ⟨rfl, rfl⟩

/-- The log of a report lists its ops so that every op stands behind those that it was made from, and has the ops of
all sockets. -/
theorem run_ordered (hooksPass : hooks.PassOn) {session final : Session} (passes : session.graph.PassesOn)
    {fuel : Nat} {root : ComponentId} {config : BuildConfig} {report : Report}
    (ran : (run hooks fuel root config).run session = (.ok report, final)) :
    (∀ (i : Nat) entry, report.log.entries[i]? = some entry →
      entry.id = ⟨i⟩ ∧ ∀ input ∈ entry.inputs, input.index < i) ∧
    (∀ socket, ∀ op ∈ report.opsAt socket, ∃ record, report.log.get? op.id = some record ∧ record.space = op.space) ∧
    (∀ id input, report.log.Uses id input → ∃ record, report.log.get? input = some record) ∧
    (∀ id origin, Relation.TransGen report.log.Uses id origin → origin.index < id.index) ∧
    ∀ id, ¬Relation.TransGen report.log.Uses id id := by
  rcases holds_of_run hooksPass passes ran with ⟨state, holds, log, arrivals⟩
  rw [log]
  refine ⟨fun i entry found => ⟨holds.ordered.ids i entry found, holds.ordered.inputs i entry found⟩, ?_,
    fun _ _ uses => holds.ordered.get?_of_uses uses, fun _ _ path => holds.ordered.lt_of_transGen path,
    holds.ordered.acyclic⟩
  intro socket op member
  rw [Report.opsAt, arrivals] at member
  exact holds.has_opsAt member

end

/-- The transposition makes one op from its inputs. -/
theorem transposition_passesOn : Transposition.method.PassesOn := by
  intro context inputs
  refine (Recording.Passes.record context _ _ fun id listed => ?_).bind fun known op _ member => .pure ?_
  · exact List.mem_map.mp listed
  · exact List.cons_subset.mpr ⟨member, List.nil_subset _⟩

theorem biased_passOn : biased.PassOn := by
  intro hook id spaces session
  have registers : Graph.Registers id session.graph (after (biased hook id spaces) session).graph :=
    Keeps.bind (Graph.keeps_getVariable id _ _) (fun _ => Keeps.pure _) session.graph
  obtain ⟨store, change, same⟩ := registers
  rw [same]
  exact keepsMethods_changeComponent { session.graph with backend := { session.graph.backend with store } } id
    fun _ => rfl

/-- A transposition that is fed with two boxes, one of them in a tuple, and hands its output on to a component with a
hook. -/
def turned : GraphM Unit := do
  let turn ← Transposition.create none
  Graph.connect turn (.space (.dict [("a", .floatBox []), ("b", .tuple [.boolBox []])])) (.socket (.named "input"))
  let sink ← Graph.create { scope := "sink" }
  let _ ← Graph.addSockets sink ["in"] (some .input) false
  Graph.setHook sink (.script [])
  Graph.connect turn (.socket (.named "output")) (.component sink)

theorem turned_passesOn : (after turned {}).PassesOn := by
  intro id node found method registered
  have all : (after turned {}).components.toList.flatMap Component.methods = [Transposition.method] := rfl
  have listed : method ∈ (after turned {}).components.toList.flatMap Component.methods :=
    List.mem_flatMap.mpr ⟨node, Array.mem_toList_iff.mpr (Array.mem_of_getElem? found), registered⟩
  rw [all] at listed
  rw [List.mem_singleton.mp listed]
  exact transposition_passesOn

/-- The parts of the container are split off, turned one by one and put together again, and no op goes back to
itself. -/
theorem run_ordered_turned : ∃ report final,
    (run biased 60 ⟨0⟩ {}).run { graph := after turned {} } = (.ok report, final) ∧
    report.log.records.toList.map (fun record => (record.label, record.inputs)) =
      [("placeholder", []), ("split/a", [⟨0⟩]), ("transpose", [⟨1⟩]), ("split/b/[0]", [⟨0⟩]), ("transpose", [⟨3⟩]),
        ("unflatten", [⟨2⟩, ⟨4⟩])] ∧
    (∀ op ∈ report.opsAt ⟨2⟩, report.log.Has op) ∧ ∀ id, ¬Relation.TransGen report.log.Uses id id := by
  have general (graph : Graph) (passes : graph.PassesOn) (records : List (String × List OpId))
      (answers : (outcome (run biased 60 ⟨0⟩ {}) { graph }).toOption.map
        (fun report => report.log.records.toList.map fun record => (record.label, record.inputs)) = some records) :
      ∃ report final, (run biased 60 ⟨0⟩ {}).run { graph } = (.ok report, final) ∧
        report.log.records.toList.map (fun record => (record.label, record.inputs)) = records ∧
        (∀ op ∈ report.opsAt ⟨2⟩, report.log.Has op) ∧ ∀ id, ¬Relation.TransGen report.log.Uses id id := by
    cases answered : outcome (run biased 60 ⟨0⟩ {}) { graph } with
    | error stop =>
        rw [answered] at answers
        cases answers
    | ok report =>
        rw [answered] at answers
        have ran : (run biased 60 ⟨0⟩ {}).run { graph } = (.ok report, after (run biased 60 ⟨0⟩ {}) { graph }) := by
          rw [run_eq, answered]
        rcases run_ordered biased_passOn passes ran with ⟨-, known, -, -, acyclic⟩
        exact ⟨report, _, ran, Option.some.inj answers, known ⟨2⟩, acyclic⟩
  exact general _ turned_passesOn _ (by decide +kernel)

end Build

end Wiring
