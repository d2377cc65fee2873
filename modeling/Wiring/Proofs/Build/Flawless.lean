import Wiring.Proofs.Build.Closure
import Wiring.Proofs.Build.Turns
import Wiring.Proofs.Calls

/-!
Contract: builds never run into a flaw of a reachable graph, and firings are complete.

Owns: `Raised`, an error that a hook or a method has answered; `Equipped`, by which a firing finds its method and has
as many ops as the method declares; how each task of an anchored configuration ends; that every turn keeps a
configuration anchored; that a build fails with a flaw only if that was raised; and that firings that succeed
deliver one op to each output of their computation.
-/

namespace Wiring.Build

open Wiring.Graph
open Relation (ReflTransGen)

variable {hooks : HookRunner} {state : BuildState}

/-- The error is the answer of a hook, or of a method that was called with as many ops as it declares. -/
inductive Raised (hooks : HookRunner) (graph : Graph) (error : Error) : Prop where
  | hook (call : Call) (given : Session) (sound : Sound given.graph)
      (answered : outcome (hooks call.hook call.component call.spaces) given = .error (.failed error))
  | method (id : ComponentId) (node : Component) (method : Method) (context : MethodContext) (given : List DataOp)
      (recorder : Recorder) (found : graph.component? id = some node) (registered : method ∈ node.methods)
      (length : given.length = method.inputs) (answered : method.run context given recorder = .error error)

/-! ### Firings -/

/-- What a firing runs, which has as many ops and output sockets as the method declares. -/
structure Equipped (graph : Graph) (id : ComputationId) (inputs : List DataOp) (computation : Computation)
    (owner : Component) (method : Method) : Prop where
  found : graph.computation? id = some computation
  ownerFound : graph.component? computation.owner = some owner
  chosen : owner.method? computation.method = some method
  inputs : inputs.length = method.inputs
  outputs : computation.outputs.length = method.outputs

theorem exists_equipped {graph : Graph} (sound : Sound graph) {id : ComputationId} {inputs : List DataOp}
    (backed : Backed graph (.fireWith id inputs)) :
    ∃ computation owner method, Equipped graph id inputs computation owner method := by
  rcases backed with ⟨computation, found, length⟩
  rcases (sound.computations.bound id computation found).node with
    ⟨owner, method, ownerFound, -, chosen, declared, outputs⟩
  exact ⟨computation, owner, method, found, ownerFound, chosen, length.trans declared, outputs⟩

/-- A firing that fails does so for a reason of its own or with what its method has answered. -/
theorem Equipped.fails {id : ComputationId} {inputs : List DataOp} {computation : Computation} {owner : Component}
    {method : Method} (equipped : Equipped state.graph id inputs computation owner method) {error : Error}
    {recorder : Recorder} (failed : method.apply computation.settings
      (contextOf state.graph computation.owner owner) inputs recorder = .error error)
    (flaw : error.isFlaw = true) : Raised hooks state.graph error := by
  cases Method.apply_fails _ _ _ _ _ _ failed with
  | outputs returned => cases flaw
  | key space key => cases flaw
  | keys fault => cases flaw
  | method length answered =>
      exact .method computation.owner owner method _ _ _ equipped.ownerFound (List.mem_of_find?_eq_some equipped.chosen)
        (length.trans equipped.inputs) answered

/-- A firing that succeeds has taken place before, or it delivers one op to each output of its computation. -/
theorem Equipped.delivers {id : ComputationId} {inputs : List DataOp} {computation : Computation} {owner : Component}
    {method : Method} (equipped : Equipped state.graph id inputs computation owner method) {more : List Task}
    {later : BuildState} (performed : (fireWith id inputs).run state = (.ok more, later)) :
    ((id, inputs.map DataOp.id) ∈ state.fired ∧ more = []) ∨
      ∃ outputs recorder, method.apply computation.settings (contextOf state.graph computation.owner owner) inputs
          { log := state.log, calls := state.session.calls } = .ok (outputs, recorder) ∧
        outputs.length = computation.outputs.length ∧ more = List.zipWith .deliver computation.outputs outputs := by
  cases run_fireWith_ok.mp performed with
  | known known => exact .inl ⟨known, rfl⟩
  | returns other holder run outputs recorder fresh found ownerFound chosen applied =>
      obtain rfl := Option.some.inj (equipped.found.symm.trans found)
      obtain rfl := Option.some.inj (equipped.ownerFound.symm.trans ownerFound)
      obtain rfl := Option.some.inj (equipped.chosen.symm.trans chosen)
      refine .inr ⟨outputs, recorder, applied, (Method.length_apply applied).trans equipped.outputs.symm, ?_⟩
      rw [List.zip, List.map_zipWith]

/-! ### How tasks end -/

/-- A task ends with tasks and arrivals that refer to what exists, or it fails, with a flaw only if that was raised. -/
inductive Ends (hooks : HookRunner) (before : BuildState) : Except Stop (List Task) × BuildState → Prop where
  | ok {more : List Task} {later : BuildState} (backed : ∀ task ∈ more, Backed later.graph task)
      (arrived : ∀ arrival ∈ later.arrivals, arrival ∈ before.arrivals ∨
        ∃ held, later.graph.socket? arrival.socket = some held) : Ends hooks before (.ok more, later)
  | error {stop : Stop} {later : BuildState}
      (raised : ∀ error, stop = .failed error → error.isFlaw = true → Raised hooks later.graph error) :
      Ends hooks before (.error stop, later)

namespace Ends

theorem stays {more : List Task} (backed : ∀ task ∈ more, Backed state.graph task) :
    Ends hooks state (.ok more, state) :=
  .ok backed fun _ => .inl

theorem idle : Ends hooks state (.ok [], state) :=
  stays fun _ member => absurd member List.not_mem_nil

theorem single {task : Task} (backed : Backed state.graph task) : Ends hooks state (.ok [task], state) :=
  stays fun _ member => List.mem_singleton.mp member ▸ backed

theorem map {α : Type} {make : α → Task} {items : List α} (backed : ∀ item ∈ items, Backed state.graph (make item)) :
    Ends hooks state (.ok (items.map make), state) := by
  refine stays fun task member => ?_
  rcases List.mem_map.mp member with ⟨item, listed, rfl⟩
  exact backed item listed

end Ends

theorem inputSpaces_answers {graph : Graph} {inputs : List SocketId}
    (held : ∀ input ∈ inputs, ∃ socket, graph.socket? input = some socket) :
    ∃ known, inputSpaces? graph inputs = .ok known := by
  induction inputs with
  | nil => exact ⟨_, rfl⟩
  | cons input rest inductionHypothesis =>
      rcases held input List.mem_cons_self with ⟨socket, found⟩
      rcases inductionHypothesis fun other member => held other (List.mem_cons_of_mem input member) with ⟨others, known⟩
      refine ⟨socket.space.elim none fun space => others.map ((socket.name, space) :: ·), ?_⟩
      refine except_bind_eq_ok.mpr ⟨socket, heldSocket_eq_ok.mpr found, ?_⟩
      cases socket.space with
      | none => rfl
      | some space => exact except_bind_eq_ok.mpr ⟨others, known, rfl⟩

/-- An op is delivered to a socket that exists, where it is afterwards. -/
theorem run_deliver (hooks : HookRunner) {socket : SocketId} (op : DataOp) {held : Socket}
    (found : state.graph.socket? socket = some held) (sound : Sound state.graph) :
    ∃ more later, (deliver socket op).run state = (.ok more, later) ∧ Ends hooks state (.ok more, later) ∧
      ∃ known ∈ opsAt later.arrivals socket, known.id = op.id := by
  unfold deliver
  rw [run_bind_ok (run_get state)]
  by_cases arrivedBefore : ((opsAt state.arrivals socket).any fun known => known.id = op.id) = true
  · rw [if_pos arrivedBefore]
    rcases List.any_eq_true.mp arrivedBefore with ⟨known, member, same⟩
    exact ⟨[], state, rfl, .idle, known, member, of_decide_eq_true same⟩
  rw [if_neg arrivedBefore, run_ask_ok (heldSocket_eq_ok.mpr found), run_bind_ok (run_set state _)]
  have present (later : BuildState) (arrivals : later.arrivals = state.arrivals.push ⟨socket, op⟩) :
      ∃ known ∈ opsAt later.arrivals socket, known.id = op.id := by
    refine ⟨op, ?_, rfl⟩
    rw [arrivals, opsAt, Array.toList_push, List.filter_append, List.map_append]
    simp
  have arrived (later : BuildState) (arrivals : later.arrivals = state.arrivals.push ⟨socket, op⟩)
      (still : ∃ held, later.graph.socket? socket = some held) : ∀ arrival ∈ later.arrivals,
      arrival ∈ state.arrivals ∨ ∃ held, later.graph.socket? arrival.socket = some held := by
    intro arrival member
    rw [arrivals] at member
    rcases Array.mem_push.mp member with old | rfl
    · exact .inl old
    · exact .inr still
  by_cases resolved : held.space.isSome = true
  · rw [if_pos resolved]
    refine ⟨[], _, rfl, .ok (fun _ member => absurd member List.not_mem_nil) (arrived _ rfl ⟨held, found⟩), ?_⟩
    exact present _ rfl
  have pushed : ({ state with arrivals := state.arrivals.push ⟨socket, op⟩ } : BuildState).graph.socket? socket =
      some held := found
  rw [if_neg resolved, run_editSocket_bind pushed]
  have still : (state.graph.changeSocket socket (Socket.takeSpace op.space)).socket? socket =
      some (held.takeSpace op.space) := by
    rw [socket?_changeSocket, if_pos rfl, found]
    rfl
  split
  · refine ⟨[.check held.owner], _, rfl, .ok (fun task member => ?_) (arrived _ rfl ⟨_, still⟩), present _ rfl⟩
    rw [List.mem_singleton.mp member]
    exact sound.sockets.owner socket held found
  · exact ⟨[], _, rfl, .ok (fun _ member => absurd member List.not_mem_nil) (arrived _ rfl ⟨_, still⟩), present _ rfl⟩

/-- What waits for a component that gets ready belongs to it. -/
theorem ends_getReady {middle : BuildState} (sound : Sound middle.graph) {id : ComponentId} {node : Component}
    (found : middle.graph.component? id = some node) (arrived : middle.arrivals = state.arrivals) :
    Ends hooks state ((getReady id).run middle) := by
  have changes : Changes middle.graph (middle.graph.changeComponent id Component.markReady) := by
    have kept : Keeps Changes (Graph.editComponent id Component.markReady) :=
      keeps_editComponent (fun before later same _ waiting => .single (.state later same waiting)) id _
        (fun _ => rfl) (fun _ => rfl) fun _ _ waits => absurd waits List.not_mem_nil
    have changes := kept middle.graph
    rwa [after_of_run (run_editComponent found _)] at changes
  rw [run_getReady found]
  refine .ok (fun task member => ?_) fun arrival member => .inl (arrived ▸ member)
  refine Backed.lasts changes.lasts ?_
  rcases List.mem_append.mp member with wakes | fires
  · rcases List.mem_map.mp wakes with ⟨socket, waits, rfl⟩
    rcases sound.waiting id socket (deferredOf_eq found ▸ waits) with ⟨held, heldFound, -⟩
    exact ⟨held, heldFound⟩
  · rw [List.mem_singleton.mp fires]
    exact ⟨node, found⟩

theorem ends_fireWith (sound : Sound state.graph) {id : ComputationId} {inputs : List DataOp}
    (backed : Backed state.graph (.fireWith id inputs)) : Ends hooks state ((fireWith id inputs).run state) := by
  by_cases known : (id, inputs.map DataOp.id) ∈ state.fired
  · rw [run_fireWith_known known]
    exact .idle
  rcases exists_equipped sound backed with ⟨computation, owner, method, equipped⟩
  rw [run_fireWith known]
  generalize opening : withSession { state with fired := (id, inputs.map DataOp.id) :: state.fired }
    { state.session with trace := state.session.trace.push (.fired id (inputs.map DataOp.id)) } = opened
  have same : opened.graph = state.graph := opening ▸ rfl
  have arrivals : opened.arrivals = state.arrivals := opening ▸ rfl
  rw [← same] at equipped sound ⊢
  cases applied : method.apply computation.settings (contextOf opened.graph computation.owner owner) inputs
      { log := opened.log, calls := opened.session.calls } with
  | error error =>
      rw [run_firing_error equipped.found equipped.ownerFound equipped.chosen applied]
      refine .error fun other same flaw => ?_
      obtain rfl := Stop.failed.inj same
      exact equipped.fails applied flaw
  | ok answer =>
      rw [run_firing equipped.found equipped.ownerFound equipped.chosen applied]
      refine .ok (fun task member => ?_) fun arrival member => .inl (arrivals ▸ member)
      rcases List.mem_map.mp member with ⟨output, delivered, rfl⟩
      rcases (sound.computations.bound id computation equipped.found).outputs _ (List.of_mem_zip delivered).1 with
        ⟨held, found, -⟩
      exact ⟨held, found⟩

section HooksReach

variable (hooksReach : ∀ hook id spaces given, Reaches given.graph (after (hooks hook id spaces) given).graph)
include hooksReach

theorem ends_check (sound : Sound state.graph) {id : ComponentId} {node : Component}
    (found : state.graph.component? id = some node) : Ends hooks state ((check hooks id).run state) := by
  cases complete : node.complete with
  | true =>
      rw [run_check_complete found complete]
      exact .idle
  | false =>
      have listed (input : SocketId) (isInput : input ∈ node.inputs) : input ∈ node.sockets :=
        List.mem_append_left _ (List.mem_append_left _ isInput)
      rcases inputSpaces_answers fun input isInput => sound.sockets.held_of_mem found (listed input isInput) with
        ⟨known, answered⟩
      cases known with
      | none =>
          rw [run_check_unready found complete answered]
          exact .idle
      | some spaces =>
          rw [run_check_ready found complete answered, run_completing found]
          have marked : (state.graph.changeComponent id Component.markComplete).component? id =
              some node.markComplete := by
            rw [component?_changeComponent, if_pos rfl, found]
            rfl
          have soundMarked := sound_markComplete sound found
          generalize opening : ({ withGraph state (state.graph.changeComponent id Component.markComplete) with
            completed := state.completed.push id } : BuildState) = opened
          have openedGraph : opened.graph = state.graph.changeComponent id Component.markComplete := opening ▸ rfl
          have openedArrivals : opened.arrivals = state.arrivals := opening ▸ rfl
          rw [← openedGraph] at marked soundMarked
          by_cases settled : node.hook = none ∨ node.hookDone = true
          · rw [runHook_settled settled, run_bind_ok (run_pure _ _)]
            exact ends_getReady soundMarked marked openedArrivals
          rw [not_or, Bool.not_eq_true] at settled
          rcases Option.ne_none_iff_exists'.mp settled.1 with ⟨hook, chosen⟩
          let call : Call := ⟨id, hook, Keyed.ofList spaces⟩
          cases answer : outcome (hooks hook id (Keyed.ofList spaces)) (calling opened.session call) with
          | error stop =>
              rw [run_bind_error (run_runHook_error opened call chosen settled.2 answer)]
              refine .error fun error same _ => .hook call (calling opened.session call) soundMarked ?_
              rw [answer, same]
          | ok done =>
              rw [run_bind_ok (run_runHook_ok opened call chosen settled.2 answer)]
              have changes := (hooksReach hook id (Keyed.ofList spaces) (calling opened.session call)).changes
              rcases changes.lasts.component id _ marked with ⟨new, newFound, -⟩
              exact ends_getReady (soundMarked.changes changes) newFound openedArrivals

theorem ends_perform {task : Task} (sound : Sound state.graph) (fed : Fed state.graph task)
    (backed : Backed state.graph task) : Ends hooks state ((perform hooks task).run state) := by
  cases task with
  | seed id =>
      rcases backed with ⟨node, found⟩
      rw [perform, run_ask_ok (heldComponent_eq_ok.mpr found)]
      exact .map fun socket listed => sound.sockets.held_of_mem found listed
  | seedSocket id socket =>
      rcases backed with ⟨held, found⟩
      rw [perform, run_ask_ok (heldSocket_eq_ok.mpr found)]
      exact .map fun _ _ => ⟨held, found⟩
  | place id socket space =>
      rw [perform, run_bind_ok (run_get state)]
      exact .ok (fun task member => List.mem_singleton.mp member ▸ backed) fun _ => .inl
  | deliver socket op =>
      rcases backed with ⟨held, found⟩
      rcases run_deliver hooks op found sound with ⟨more, later, ran, ends, -⟩
      rw [perform, ran]
      exact ends
  | check id =>
      rcases backed with ⟨node, found⟩
      exact ends_check hooksReach sound found
  | forward socket op connection =>
      cases connection with
      | socket target => exact .single backed
      | space space => exact .idle
      | computation id =>
          rcases backed with ⟨computation, found⟩
          rcases (sound.computations.bound id computation found).node with ⟨owner, -, ownerFound, -⟩
          rw [perform, forward, run_ask_ok (heldComputation_eq_ok.mpr found),
            run_ask_ok (heldComponent_eq_ok.mpr ownerFound)]
          split
          · exact .single ⟨computation, found⟩
          split
          · exact .idle
          · rw [run_editComponent_bind ownerFound]
            exact .ok (fun _ member => absurd member List.not_mem_nil) fun _ => .inl
  | wake socket =>
      rcases backed with ⟨held, found⟩
      rw [perform, run_ask_ok (heldSocket_eq_ok.mpr found)]
      refine .map fun id reads => ?_
      rcases sound.reader found (mem_computationEntries.mp reads) with ⟨computation, computationFound, -⟩
      exact ⟨computation, computationFound⟩
  | fireSources id =>
      rcases backed with ⟨node, found⟩
      rw [perform, run_ask_ok (heldComponent_eq_ok.mpr found)]
      refine .map fun source isSource => ?_
      rcases sound.source found isSource with ⟨computation, computationFound, -⟩
      exact ⟨computation, computationFound⟩
  | fire id =>
      rcases backed with ⟨computation, found⟩
      rw [perform, run_ask_ok (heldComputation_eq_ok.mpr found), run_bind_ok (run_get state)]
      refine .map fun inputs combined => ⟨computation, found, ?_⟩
      have length := (mem_combinations.mp combined).length_eq
      rw [List.length_map] at length
      exact length.symm
  | fireWith id inputs => exact ends_fireWith sound backed

end HooksReach

/-! ### Turns -/

/-- An arrival at a socket that exists is passed on to what exists. -/
theorem run_serve (sound : Sound state.graph)
    (arrived : ∀ arrival ∈ state.arrivals, ∃ held, state.graph.socket? arrival.socket = some held) :
    ∃ next later, serve.run state = (.ok next, later) ∧ later.graph = state.graph ∧ later.arrivals = state.arrivals ∧
      ∀ more, next = some more → ∀ task ∈ more, Backed state.graph task := by
  unfold serve
  rw [run_bind_ok (run_get state)]
  cases next : state.arrivals[state.served]? with
  | none => exact ⟨none, state, rfl, rfl, rfl, fun _ same => nomatch same⟩
  | some arrival =>
      rcases arrived arrival (Array.mem_of_getElem? next) with ⟨held, found⟩
      have foundToo : ({ state with served := state.served + 1 } : BuildState).graph.socket? arrival.socket =
          some held := found
      dsimp only
      rw [run_bind_ok (run_set state _), run_ask_ok (heldSocket_eq_ok.mpr foundToo)]
      refine ⟨_, _, rfl, rfl, rfl, fun more same task member => ?_⟩
      obtain rfl := Option.some.inj same
      rcases List.mem_map.mp member with ⟨connection, entered, rfl⟩
      cases connection with
      | space space => trivial
      | socket target =>
          rcases sound.links.targets arrival.socket held found target (mem_socketEntries.mpr entered) with
            ⟨other, otherFound, -⟩
          exact ⟨other, otherFound⟩
      | computation id =>
          rcases sound.reader found entered with ⟨computation, computationFound, -⟩
          exact ⟨computation, computationFound⟩

section HooksReach

variable (hooksReach : ∀ hook id spaces given, Reaches given.graph (after (hooks hook id spaces) given).graph)
include hooksReach

/-- Every turn keeps a configuration anchored. -/
theorem Anchored.turn {before later : Configuration} (turn : Turn hooks before later) (anchored : Anchored before) :
    Anchored later := by
  cases turn with
  | @task task waiting more state last performed =>
      have fed := anchored.fed task List.mem_cons_self
      have ends := ends_perform hooksReach anchored.sound fed (anchored.backed task List.mem_cons_self)
      have changes := changes_of_reaches hooksReach fed
      have answered := outcome_of_run performed
      rw [after_of_run performed] at changes
      rw [performed] at ends
      cases ends with
      | ok backed arrived =>
          refine ⟨anchored.sound.changes changes, fun other member => ?_, fun other member => ?_,
            fun arrival member => ?_⟩
          · rcases List.mem_append.mp member with new | old
            · exact answers_perform hooks task state more answered other new _
            · exact Fed.later (fun _ _ changes _ _ => Changes.feeds changes) changes
                (anchored.fed other (List.mem_cons_of_mem task old))
          · rcases List.mem_append.mp member with new | old
            · exact backed other new
            · exact (anchored.backed other (List.mem_cons_of_mem task old)).lasts changes.lasts
          · rcases arrived arrival member with known | exists_
            · rcases anchored.arrived arrival known with ⟨held, found⟩
              exact changes.lasts.socket _ held found
            · exact exists_
  | @arrival more state last served =>
      rcases run_serve anchored.sound anchored.arrived with ⟨next, other, ran, graph, arrivals, backed⟩
      obtain ⟨same, rfl⟩ := Prod.mk.inj (served.symm.trans ran)
      obtain rfl := Except.ok.inj same
      refine ⟨graph ▸ anchored.sound, ?_, fun task member => ?_, fun arrival member => ?_⟩
      · exact graph ▸ serve_fed (outcome_of_run served)
      · exact graph ▸ backed more rfl task member
      · exact graph ▸ anchored.arrived arrival (arrivals ▸ member)

theorem Anchored.turns {before later : Configuration} (turns : ReflTransGen (Turn hooks) before later)
    (anchored : Anchored before) : Anchored later := by
  induction turns with
  | refl => exact anchored
  | tail _ last inductionHypothesis => exact inductionHypothesis.turn hooksReach last

/-- A flaw at which the work fails has been raised. -/
theorem Anchored.raised {reached : Configuration} {error : Error} {later : BuildState} (anchored : Anchored reached)
    (failsAt : FailsAt hooks error reached later) (flaw : error.isFlaw = true) : Raised hooks later.graph error := by
  cases failsAt with
  | @task task waiting state _ failed =>
      have ends := ends_perform hooksReach anchored.sound (anchored.fed task List.mem_cons_self)
        (anchored.backed task List.mem_cons_self)
      rw [failed] at ends
      cases ends with
      | error raised => exact raised error rfl flaw
  | arrival failed =>
      rcases run_serve anchored.sound anchored.arrived with ⟨next, other, ran, -⟩
      cases congrArg Prod.fst (failed.symm.trans ran)

omit hooksReach in
/-- After its work a build only asks for components that exist. -/
theorem unflawed_conclude {config : BuildConfig} {members : List ComponentId} {session : Session}
    (exist : ∀ member ∈ members, ∃ node, session.graph.component? member = some node) {error : Error}
    (failed : outcome (conclude config members (.ok ⟨⟩) state) session = .error (.failed error)) :
    error.isFlaw = false := by
  have held : ∀ member ∈ members, ∃ node, session.graph.heldComponent member = .ok node := fun member isMember => by
    rcases exist member isMember with ⟨node, found⟩
    exact ⟨node, heldComponent_eq_ok.mpr found⟩
  rcases exists_forall₂ held with ⟨states, each⟩
  have asked : (Session.ofGraph (query fun graph => members.mapM graph.heldComponent)).run session =
      (.ok states, session) :=
    congrArg (fun answer => (Session.stopOnError answer, session)) (mapM_eq_ok.mpr each)
  unfold outcome conclude at failed
  rw [run_bind_ok asked] at failed
  dsimp only at failed
  split at failed
  · cases failed
    rfl
  · cases failed

/-- A flaw with which a build fails has been raised. -/
theorem run_raised {session : Session} (sound : Sound session.graph) {fuel : Nat} {root : ComponentId}
    {config : BuildConfig} {error : Error}
    (failed : outcome (run hooks fuel root config) session = .error (.failed error)) (flaw : error.isFlaw = true) :
    Raised hooks (after (run hooks fuel root config) session).graph error := by
  cases listed : session.graph.subtree root with
  | error other =>
      rw [outcome_of_run (run_unlisted listed)] at failed
      obtain rfl := Stop.failed.inj (Except.error.inj failed)
      cases (sound.unflawed_subtree root other listed).symm.trans flaw
  | ok members =>
      have exist : ∀ member ∈ members, ∃ node, session.graph.component? member = some node :=
        fun member isMember => subtree_found sound.tree listed isMember
      have anchored : Anchored (initialTasks members, startState session root (session.graph.wiped members)) :=
        .initial sound listed
      have ran : (run hooks fuel root config).run session = _ :=
        (run_conclude listed (run_resets members sound.sockets exist)).trans (run_eq _ _)
      rw [outcome_of_run ran] at failed
      rw [after_run sound listed]
      have changes := changes_work hooksReach fuel anchored.fed
      cases worked : outcome (work hooks fuel (initialTasks members))
          (startState session root (session.graph.wiped members)) with
      | error stop =>
          rw [worked] at failed
          obtain rfl := Except.error.inj failed
          rcases work_failsAt ((run_eq _ _).trans (congrArg (Prod.mk · _) worked)) with ⟨reached, turns, failsAt⟩
          exact (anchored.turns hooksReach turns).raised hooksReach failsAt flaw
      | ok done =>
          rw [worked] at failed
          have harmless : error.isFlaw = false := by
            refine unflawed_conclude (fun member isMember => ?_) failed
            rcases exist member isMember with ⟨node, found⟩
            rcases changes.lasts.component member _ (component?_wiped_some found) with ⟨new, newFound, -⟩
            exact ⟨new, newFound⟩
          cases harmless.symm.trans flaw

end HooksReach

/-! ### Reachable graphs and their builds -/

/-- The configuration with which the work of a build begins. -/
def opening (session : Session) (root : ComponentId) (members : List ComponentId) : Configuration :=
  (initialTasks members, startState session root (session.graph.wiped members))

/-- Operations, questions and builds find all that the graph refers to, and firings are complete. -/
structure Flawless (hooks : HookRunner) (session : Session) : Prop where
  inside : ∀ reference ∈ session.graph.references, reference.Inside session.graph
  operation : ∀ {α : Type} {step : GraphM α}, IsOperation step → Unflawed (outcome step session.graph)
  subtree : ∀ id, Unflawed (session.graph.subtree id)
  blueprint : ∀ id, Unflawed (session.graph.blueprint id)
  /-- In a build only a hook or a method can be the cause of a flaw. -/
  build : ∀ fuel root config error, outcome (run hooks fuel root config) session = .error (.failed error) →
    error.isFlaw = true → Raised hooks (after (run hooks fuel root config) session).graph error
  /-- The graph that a build works on refers to nothing outside either, and nor do the tasks. -/
  met : ∀ root members, session.graph.subtree root = .ok members → ∀ tasks state,
    ReflTransGen (Turn hooks) (opening session root members) (tasks, state) →
    (∀ reference ∈ state.graph.references, reference.Inside state.graph) ∧ ∀ task ∈ tasks, Backed state.graph task
  /-- A firing finds its method. It does not depend on how the method runs on another number of inputs than it
  declares, and if it succeeds, it has taken place before or delivers one op to each output. -/
  firing : ∀ root members, session.graph.subtree root = .ok members → ∀ id inputs waiting state,
    ReflTransGen (Turn hooks) (opening session root members) (.fireWith id inputs :: waiting, state) →
    ∃ computation owner method, Equipped state.graph id inputs computation owner method ∧
      (∀ run, (∀ context given, given.length = method.inputs → run context given = method.run context given) →
        { method with run }.apply computation.settings (contextOf state.graph computation.owner owner) inputs =
          method.apply computation.settings (contextOf state.graph computation.owner owner) inputs) ∧
      ∀ more later, (perform hooks (.fireWith id inputs)).run state = (.ok more, later) →
        ((id, inputs.map DataOp.id) ∈ state.fired ∧ more = []) ∨
          ∃ outputs recorder, method.apply computation.settings (contextOf state.graph computation.owner owner) inputs
              { log := state.log, calls := state.session.calls } = .ok (outputs, recorder) ∧
            outputs.length = computation.outputs.length ∧ more = List.zipWith .deliver computation.outputs outputs
  /-- What is delivered to a socket arrives there. -/
  delivery : ∀ root members, session.graph.subtree root = .ok members → ∀ socket op waiting state,
    ReflTransGen (Turn hooks) (opening session root members) (.deliver socket op :: waiting, state) →
    ∃ more later, (perform hooks (.deliver socket op)).run state = (.ok more, later) ∧
      ∃ known ∈ opsAt later.arrivals socket, known.id = op.id

/-- Reachable graphs and builds of them, with hooks that do what operations and builds can do, are flawless. -/
theorem flawless_of_reachable {hooks : HookRunner} {session : Session} (reachable : session.graph.Reachable)
    (hooksReach : ∀ hook id spaces given, Reaches given.graph (after (hooks hook id spaces) given).graph) :
    Flawless hooks session := by
  have sound := reachable.sound
  have anchored {root : ComponentId} {members : List ComponentId} (listed : session.graph.subtree root = .ok members)
      {reached : Configuration} (turns : ReflTransGen (Turn hooks) (opening session root members) reached) :
      Anchored reached :=
    (Anchored.initial sound listed).turns hooksReach turns
  refine ⟨sound.inside, sound.unflawed_operation, sound.unflawed_subtree, sound.unflawed_blueprint, ?_, ?_, ?_, ?_⟩
  · exact fun fuel root config error failed flaw => run_raised hooksReach sound failed flaw
  · intro root members listed tasks state turns
    exact ⟨(anchored listed turns).sound.inside, (anchored listed turns).backed⟩
  · intro root members listed id inputs waiting state turns
    have anchored := anchored listed turns
    rcases exists_equipped anchored.sound (anchored.backed _ List.mem_cons_self) with
      ⟨computation, owner, method, equipped⟩
    refine ⟨computation, owner, method, equipped, fun run alike => ?_, fun more later performed => ?_⟩
    · exact Method.apply_congr method.inputs alike equipped.inputs
    · exact equipped.delivers performed
  · intro root members listed socket op waiting state turns
    have anchored := anchored listed turns
    rcases anchored.backed _ List.mem_cons_self with ⟨held, found⟩
    rcases run_deliver hooks op found anchored.sound with ⟨more, later, ran, -, arrived⟩
    exact ⟨more, later, ran, arrived⟩

theorem biased_reaches (hook : Hook) (id : ComponentId) (spaces : Keyed Space) (given : Session) :
    Reaches given.graph (after (biased hook id spaces) given).graph :=
  Keeps.bind (Reaches.getVariable id _ _) (fun _ => Keeps.pure _) given.graph

theorem flawless_summed : Flawless biased { graph := after summed {} } ∧
    (after summed {}).references.length = 18 ∧
    (outcome (run biased 60 ⟨0⟩ {}) { graph := after summed {} }).isOk = true ∧
    (firedEvents (after (run biased 60 ⟨0⟩ {}) { graph := after summed {} }).trace).length = 2 :=
  ⟨flawless_of_reachable reachable_summed biased_reaches, by decide +kernel, by decide +kernel, by decide +kernel⟩

end Wiring.Build
