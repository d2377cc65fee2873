import Mathlib.Logic.Hydra
import Wiring.Proofs.Build.Bounds
import Wiring.Proofs.Build.Closure
import Wiring.Proofs.Build.Runs

/-!
Contract: builds end.

Owns: the height of tasks, which falls while nothing arrives; that moves come to an end if arrivals are bounded;
that a build ends in a graph in which no computation lies on a cycle, whatever its methods return; and that no op
arrives twice at a socket, also in a build that is cut short.
-/

namespace Wiring

open Relation (ReflTransGen CutExpand)

/-- How far a task is from a delivery, as long as nothing arrives. -/
def Task.height : Task → Nat
  | .deliver .. => 0
  | .place .. | .fireWith .. => 1
  | .seedSocket .. | .fire _ => 2
  | .seed _ | .forward .. | .wake _ | .fireSources _ => 3
  | .check _ => 4

/-! ### Steps that return -/

/-- The step returns an answer or an error; it is not cut short. -/
def Returns {σ α : Type} (step : ExceptT Stop (StateM σ) α) : Prop :=
  ∀ state, outcome step state ≠ .error .exhausted

/-- An error that does not cut an answer short does not cut another one short. -/
theorem error_ne {α β : Type} {stop : Stop} (returned : (.error stop : Except Stop α) ≠ .error .exhausted) :
    (.error stop : Except Stop β) ≠ .error .exhausted :=
  fun same => returned (congrArg Except.error (Except.error.inj same))

namespace Returns

variable {σ α β : Type}

theorem pure (value : α) : Returns (Pure.pure value : ExceptT Stop (StateM σ) α) :=
  fun _ same => nomatch same

theorem fails (error : Error) : Returns (throw (.failed error) : ExceptT Stop (StateM σ) α) :=
  fun _ same => nomatch same

theorem get : Returns (MonadState.get : ExceptT Stop (StateM σ) σ) :=
  fun _ same => nomatch same

theorem set (given : σ) : Returns (MonadStateOf.set given : ExceptT Stop (StateM σ) PUnit) :=
  fun _ same => nomatch same

theorem modify (change : σ → σ) : Returns (modify change : ExceptT Stop (StateM σ) PUnit) :=
  fun _ same => nomatch same

theorem bind {step : ExceptT Stop (StateM σ) α} {next : α → ExceptT Stop (StateM σ) β} (first : Returns step)
    (second : ∀ value, Returns (next value)) : Returns (step >>= next) := by
  intro state
  unfold outcome
  rw [run_bind]
  have returned := first state
  cases answered : outcome step state with
  | error stop =>
      rw [answered] at returned
      exact error_ne returned
  | ok value => exact second value _

theorem ofSession {step : SessionM α} (returns : Returns step) : Returns (Build.ofSession step) :=
  fun state => returns state.session

theorem record (event : Event) : Returns (Session.record event) :=
  fun _ same => nomatch same

theorem sessionOfGraph (step : GraphM α) : Returns (Session.ofGraph step) := by
  intro session
  show Session.stopOnError (outcome step session.graph) ≠ _
  cases outcome step session.graph with
  | ok value => exact fun same => nomatch same
  | error error => exact fun same => nomatch same

theorem ofGraph (step : GraphM α) : Returns (Build.ofGraph step) :=
  ofSession (sessionOfGraph step)

theorem ask (question : Graph → Except Error α) : Returns (Build.ask question) :=
  ofGraph _

theorem deliver (socket : SocketId) (op : DataOp) : Returns (Build.deliver socket op) := by
  refine get.bind fun state => ?_
  split
  · exact pure _
  · refine (ask _).bind fun target => (set _).bind fun _ => ?_
    split
    · exact pure _
    · refine (ofGraph _).bind fun _ => ?_
      split
      · exact pure _
      · exact pure _

theorem forward (socket : SocketId) (op : DataOp) (connection : Connection) :
    Returns (Build.forward socket op connection) := by
  cases connection with
  | socket target => exact pure _
  | space space => exact pure _
  | computation id =>
      refine (ask _).bind fun computation => (ask _).bind fun owner => ?_
      split
      · exact pure _
      · split
        · exact pure _
        · exact (ofGraph _).bind fun _ => pure _

theorem runMethod (recording : Recording α) : Returns (Build.runMethod recording) := by
  refine get.bind fun state => ?_
  split
  · exact (set _).bind fun _ => pure _
  · exact fails _

theorem fireWith (id : ComputationId) (inputs : List DataOp) : Returns (Build.fireWith id inputs) := by
  refine get.bind fun state => ?_
  dsimp only
  split
  · exact pure _
  · refine (set _).bind fun _ => (ofSession (record _)).bind fun _ => ?_
    refine (ask _).bind fun computation => (ask _).bind fun owner => ?_
    split
    · exact fails _
    · exact (runMethod _).bind fun _ => pure _

theorem serve : Returns Build.serve := by
  refine get.bind fun state => ?_
  split
  · exact pure _
  · exact (set _).bind fun _ => (ask _).bind fun source => pure _

end Returns

/-- The hooks return, successful or not. -/
def HookRunner.Return (hooks : HookRunner) : Prop :=
  ∀ hook id spaces, Returns (hooks hook id spaces)

namespace Build

open Wiring.Graph

variable {graph : Graph} {members : List ComponentId} {base : List (ComputationId × List OpId)} {hooks : HookRunner}
  {tasks : List Task} {task : Task} {more : List Task} {book final : Book} {account : Account} {state : BuildState}

/-! ### Moves come to an end -/

theorem height_map {α : Type} {make : α → Task} {bound : Nat} (low : ∀ item, (make item).height < bound)
    (items : List α) : ∀ new ∈ items.map make, new.height < bound := by
  intro new member
  rcases List.mem_map.mp member with ⟨item, -, rfl⟩
  exact low item

/-- A task gives rise to lower tasks, unless an op arrives. -/
theorem Step.height_lt (step : Step graph task book more final) (same : final.arrivals = book.arrivals) :
    ∀ new ∈ more, new.height < task.height := by
  cases step with
  | seed | seedSocket | wake | fireSources | fire | fires => exact height_map (fun _ => by simp [Task.height]) _
  | place | link | ready => simp [Task.height]
  | first socket op held =>
      have longer : (book.arrivals ++ [(⟨socket, op⟩ : Arrival)]).length = book.arrivals.length :=
        congrArg List.length same
      rw [List.length_append, List.length_singleton] at longer
      omega
  | completes id node =>
      intro new member
      rcases List.mem_append.mp member with wakes | sources
      · exact height_map (fun _ => by simp [Task.height]) _ new wakes
      · obtain rfl := List.mem_singleton.mp sources
        simp [Task.height]
  | _ => exact fun _ member => nomatch member

/-- What is left to do: arrivals, arrivals to be served, and tasks. -/
def remains (bound : Nat) (current : List Task × Book) : Nat × Nat × Multiset Task :=
  (bound - current.2.arrivals.length, current.2.arrivals.length - current.2.served, current.1)

def Lower (first second : Task) : Prop :=
  first.height < second.height

theorem wellFounded_remains (bound : Nat) : WellFounded (InvImage
    (Prod.Lex (· < ·) (Prod.Lex (· < ·) (CutExpand Lower))) (remains bound)) := by
  have lower : WellFounded Lower := InvImage.wf Task.height Nat.lt_wfRel.wf
  exact InvImage.wf _ (WellFounded.prod_lex Nat.lt_wfRel.wf (WellFounded.prod_lex Nat.lt_wfRel.wf lower.cutExpand))

theorem Move.remains_less {bound : Nat} {before later : List Task × Book} (move : Move graph before later)
    (bounded : later.2.arrivals.length ≤ bound) :
    Prod.Lex (· < ·) (Prod.Lex (· < ·) (CutExpand Lower)) (remains bound later) (remains bound before) := by
  cases move with
  | task task waiting more book final step =>
      rcases step.arrivals with same | ⟨socket, op, -, -, added⟩
      · have served := step.served
        unfold remains
        rw [same, served]
        refine .right _ (.right _ ⟨more, task, fun new member => step.height_lt same new member, ?_⟩)
        show ((more ++ waiting : List Task) : Multiset Task) + {task} =
          ((task :: waiting : List Task) : Multiset Task) + more
        rw [← Multiset.coe_add, ← Multiset.cons_coe, ← Multiset.singleton_add, Multiset.add_comm _ {task},
          Multiset.add_comm (more : Multiset Task), Multiset.add_assoc]
      · refine .left _ _ ?_
        rw [added, List.length_append, List.length_singleton] at bounded
        show bound - final.arrivals.length < bound - book.arrivals.length
        rw [added, List.length_append, List.length_singleton]
        omega
  | serve arrival held book next found =>
      have below := (List.getElem?_eq_some_iff.mp next).1
      refine .right _ (.left _ _ ?_)
      show book.arrivals.length - (book.served + 1) < book.arrivals.length - book.served
      omega

/-- Moves from a place after which arrivals are bounded come to an end. -/
theorem acc_of_bounded (bound : Nat) (current : List Task × Book)
    (bounded : ∀ later, ReflTransGen (Move graph) current later → later.2.arrivals.length ≤ bound) :
    Acc (fun later before => Move graph before later) current := by
  induction current using (wellFounded_remains bound).induction with
  | _ current inductionHypothesis =>
      refine .intro current fun later move => inductionHypothesis later ?_ fun last moves => ?_
      · exact move.remains_less (bounded later (.single move))
      · exact bounded last (.head move moves)

theorem acc_of_feedforward (sound : Graph.Sound graph) (feedforward : graph.Feedforward)
    (fresh : book.Fresh graph members) :
    Acc (fun later before => Move graph before later) (initialTasks members, book) := by
  rcases exists_arrivals_bound sound feedforward members with ⟨bound, bounded⟩
  refine acc_of_bounded bound _ fun later moves => ?_
  have preserved : Sourced graph book.history later.1 later.2 ∧ Seeded graph members later.1 later.2 := by
    induction moves with
    | refl => exact ⟨.start fresh rfl, .start fresh⟩
    | tail _ last inductionHypothesis => exact ⟨inductionHypothesis.1.move last, inductionHypothesis.2.move last⟩
  exact bounded _ _ _ preserved.1 preserved.2

theorem returns_check (hooksReturn : hooks.Return) (id : ComponentId) : Returns (check hooks id) := by
  refine (Returns.ask _).bind fun node => ?_
  split
  · exact .pure _
  · refine (Returns.ask _).bind fun spaces => ?_
    split
    · exact .pure _
    · refine (Returns.ofGraph _).bind fun _ => Returns.bind (.modify _) fun _ => ?_
      refine Returns.bind ?_ fun _ => (Returns.ask _).bind fun waiting => (Returns.ofGraph _).bind fun _ => .pure _
      unfold runHook
      split
      · split
        · exact .pure _
        · exact .ofSession ((Returns.record _).bind fun _ => (hooksReturn _ _ _).bind fun _ => .record _)
      · exact .pure _

theorem returns_perform (hooksReturn : hooks.Return) (task : Task) : Returns (perform hooks task) := by
  cases task with
  | seed id => exact (Returns.ask _).bind fun node => .pure _
  | seedSocket id socket => exact (Returns.ask _).bind fun target => .pure _
  | place id socket space => exact Returns.get.bind fun state => (Returns.set _).bind fun _ => .pure _
  | deliver socket op => exact .deliver socket op
  | check id => exact returns_check hooksReturn id
  | forward socket op connection => exact .forward socket op connection
  | wake socket => exact (Returns.ask _).bind fun target => .pure _
  | fireSources id => exact (Returns.ask _).bind fun node => .pure _
  | fire id => exact (Returns.ask _).bind fun computation => Returns.get.bind fun state => .pure _
  | fireWith id inputs => exact .fireWith id inputs

/-! ### Work comes to an end -/

/-- Fuel that is left over makes no difference. -/
theorem work_of_le {fuel enough : Nat} (most : fuel ≤ enough) {tasks : List Task} {state : BuildState}
    (returned : outcome (work hooks fuel tasks) state ≠ .error .exhausted) :
    (work hooks enough tasks).run state = (work hooks fuel tasks).run state := by
  induction fuel generalizing enough tasks state with
  | zero => exact absurd rfl returned
  | succ fuel inductionHypothesis =>
      rcases Nat.exists_eq_add_of_le' most with ⟨rest, rfl⟩
      have most : fuel ≤ rest + fuel := Nat.le_add_left fuel rest
      cases tasks with
      | nil =>
          refine run_bind_congr rfl fun answer served => ?_
          have runs : (work hooks (fuel + 1) []).run state = _ := run_bind_ok (Prod.ext served rfl) _
          rw [outcome, runs] at returned
          cases answer with
          | none => rfl
          | some more => exact inductionHypothesis most returned
      | cons task waiting =>
          refine run_bind_congr rfl fun more performed => ?_
          have runs : (work hooks (fuel + 1) (task :: waiting)).run state = _ :=
            run_bind_ok (Prod.ext performed rfl) _
          rw [outcome, runs] at returned
          exact inductionHypothesis most returned

/-- Where moves come to an end, so does the work. -/
theorem work_ends (registers : hooks.Registers graph) (hooksReturn : hooks.Return) {current : List Task × Book}
    (ends : Acc (fun later before => Move graph before later) current) {account : Account} {state : BuildState}
    (is : current.2 = bookOf account state) (wired : state.graph.wiring = graph.wiring) :
    ∃ fuel, outcome (work hooks fuel current.1) state ≠ .error .exhausted := by
  induction ends generalizing account state with
  | intro current _ inductionHypothesis =>
      rcases current with ⟨tasks, book⟩
      obtain rfl : book = bookOf account state := is
      cases tasks with
      | nil =>
          have returns := Returns.serve state
          cases serving : serve.run state with
          | mk answer middle =>
              rw [outcome_of_run serving] at returns
              cases answer with
              | error stop =>
                  have runs : (work hooks 1 []).run state = _ := run_bind_error serving _
                  exact ⟨1, outcome_of_run runs ▸ error_ne returns⟩
              | ok answer =>
                  rcases serve_ok wired serving with ⟨rfl, -, -⟩ | ⟨more, rfl, move, wiredAfter⟩
                  · have runs : (work hooks 1 []).run state = _ := run_bind_ok serving _
                    exact ⟨1, outcome_of_run runs ▸ fun same => nomatch same⟩
                  · rcases inductionHypothesis _ move rfl wiredAfter with ⟨fuel, ends⟩
                    have runs : (work hooks (fuel + 1) []).run state = _ := run_bind_ok serving _
                    exact ⟨fuel + 1, outcome_of_run runs ▸ ends⟩
      | cons task waiting =>
          have returns := returns_perform hooksReturn task state
          cases performed : (perform hooks task).run state with
          | mk answer middle =>
              rw [outcome_of_run performed] at returns
              cases answer with
              | error stop =>
                  have runs : (work hooks 1 (task :: waiting)).run state = _ := run_bind_error performed _
                  exact ⟨1, outcome_of_run runs ▸ error_ne returns⟩
              | ok more =>
                  rcases perform_step wired registers performed with ⟨middleAccount, step, wiredAfter⟩
                  rcases inductionHypothesis _ (.task task waiting more _ _ step) rfl wiredAfter with ⟨fuel, ends⟩
                  have runs : (work hooks (fuel + 1) (task :: waiting)).run state = _ := run_bind_ok performed _
                  exact ⟨fuel + 1, outcome_of_run runs ▸ ends⟩

/-! ### No op twice -/

/-- No op comes to a socket a second time. -/
def StaysOnce (before later : BuildState) : Prop :=
  (bookOf {} before).Once → (bookOf {} later).Once

instance : IsPreorder BuildState StaysOnce where
  refl _ once := once
  trans _ _ _ first second once := second (first once)

theorem once_ofSession {α : Type} (step : SessionM α) : Keeps StaysOnce (ofSession step) :=
  fun _ once => once

theorem once_ofGraph {α : Type} (step : GraphM α) : Keeps StaysOnce (ofGraph step) :=
  fun _ once => once

theorem once_ask {α : Type} (question : Graph → Except Error α) : Keeps StaysOnce (ask question) :=
  fun _ once => once

theorem once_deliver (socket : SocketId) (op : DataOp) : Keeps StaysOnce (deliver socket op) := by
  intro state once
  unfold deliver
  rw [after, run_bind_ok (run_get state)]
  split
  · exact once
  next unknown =>
    cases held : state.graph.heldSocket socket with
    | error error =>
        rw [run_ask_error held]
        exact once
    | ok target =>
        rw [run_ask_ok held, run_bind_ok (run_set _ _)]
        have fresh : ∀ other ∈ (bookOf {} state).opsAt socket, other.id ≠ op.id :=
          fun other member same => unknown (List.any_eq_true.mpr ⟨other, member, decide_eq_true same⟩)
        have arrived : bookOf {} { state with arrivals := state.arrivals.push ⟨socket, op⟩ } =
            (bookOf {} state).arrive socket op := by
          simp [bookOf, Book.arrive, BuildState.graph]
        have rest : Keeps StaysOnce (if target.space.isSome then pure [] else do
            ofGraph (Graph.editSocket socket (Socket.takeSpace op.space))
            if target.isInterfaceInput then return [.check target.owner] else return [] : BuildM (List Task)) := by
          split
          · exact .pure _
          · refine (once_ofGraph _).bind fun _ => ?_
            split
            · exact .pure _
            · exact .pure _
        exact rest _ (arrived ▸ once.arrive fresh)

theorem once_runMethod {α : Type} (recording : Recording α) : Keeps StaysOnce (runMethod recording) := by
  intro state once
  unfold runMethod
  rw [after, run_bind_ok (run_get state)]
  split
  · exact once
  · exact once

theorem once_fireWith (id : ComputationId) (inputs : List DataOp) : Keeps StaysOnce (fireWith id inputs) := by
  intro state once
  by_cases known : (id, inputs.map DataOp.id) ∈ state.fired
  · rw [after, run_fireWith_known known]
    exact once
  · rw [after, run_fireWith known]
    have fires : Keeps StaysOnce (firing state.graph id inputs) := by
      refine (once_ask _).bind fun computation => (once_ask _).bind fun owner => ?_
      split
      · exact .throw _
      · exact (once_runMethod _).bind fun _ => .pure _
    exact fires _ once

theorem once_forward (socket : SocketId) (op : DataOp) (connection : Connection) :
    Keeps StaysOnce (forward socket op connection) := by
  cases connection with
  | socket target => exact .pure _
  | space space => exact .pure _
  | computation id =>
      refine (once_ask _).bind fun computation => (once_ask _).bind fun owner => ?_
      split
      · exact .pure _
      · split
        · exact .pure _
        · exact (once_ofGraph _).bind fun _ => .pure _

theorem once_check (hooks : HookRunner) (id : ComponentId) : Keeps StaysOnce (check hooks id) := by
  refine (once_ask _).bind fun node => ?_
  split
  · exact .pure _
  · refine (once_ask _).bind fun spaces => ?_
    split
    · exact .pure _
    · refine (once_ofGraph _).bind fun _ => Keeps.bind (fun _ once => once) fun _ => ?_
      refine Keeps.bind ?_ fun _ => (once_ask _).bind fun waiting => (once_ofGraph _).bind fun _ => .pure _
      unfold runHook
      split
      · split
        · exact .pure _
        · exact once_ofSession _
      · exact .pure _

theorem once_perform (hooks : HookRunner) (task : Task) : Keeps StaysOnce (perform hooks task) := by
  cases task with
  | seed id => exact (once_ask _).bind fun node => .pure _
  | seedSocket id socket => exact (once_ask _).bind fun target => .pure _
  | place id socket space => exact fun _ once => once
  | deliver socket op => exact once_deliver socket op
  | check id => exact once_check hooks id
  | forward socket op connection => exact once_forward socket op connection
  | wake socket => exact (once_ask _).bind fun target => .pure _
  | fireSources id => exact (once_ask _).bind fun node => .pure _
  | fire id => exact (once_ask _).bind fun computation => Keeps.get.bind fun state => .pure _
  | fireWith id inputs => exact once_fireWith id inputs

theorem once_serve : Keeps StaysOnce serve := by
  intro state once
  unfold serve
  rw [after, run_bind_ok (run_get state)]
  split
  · exact once
  · rw [run_bind_ok (run_set _ _)]
    exact ((once_ask _).bind fun source => Keeps.pure _) _ once

/-- However far the work has come, no op is at a socket twice. -/
theorem once_work (hooks : HookRunner) (fuel : Nat) (tasks : List Task) : Keeps StaysOnce (work hooks fuel tasks) := by
  induction fuel generalizing tasks with
  | zero => exact .throw _
  | succ fuel inductionHypothesis =>
      cases tasks with
      | nil =>
          refine once_serve.bind fun answer => ?_
          split
          · exact .pure _
          · exact inductionHypothesis _
      | cons task waiting => exact (once_perform hooks task).bind fun more => inductionHypothesis _

/-! ### The whole build -/

theorem returns_conclude {config : BuildConfig} {answer : Except Stop Unit} (returned : answer ≠ .error .exhausted)
    (members : List ComponentId) (state : BuildState) : Returns (conclude config members answer state) := by
  cases answer with
  | error stop => exact fun _ => error_ne returned
  | ok answer =>
      refine (Returns.sessionOfGraph _).bind fun states => ?_
      dsimp only
      split
      · exact (Returns.fails _).bind fun _ => .pure _
      · exact .pure _

/-- Fuel that is left over makes no difference to a build. -/
theorem run_of_le {session : Session} (sound : Graph.Sound session.graph) {fuel enough : Nat} (most : fuel ≤ enough)
    {root : ComponentId} {config : BuildConfig}
    (returned : outcome (run hooks fuel root config) session ≠ .error .exhausted) :
    (run hooks enough root config).run session = (run hooks fuel root config).run session := by
  cases listed : session.graph.subtree root with
  | error error => rw [run_unlisted listed, run_unlisted listed]
  | ok members =>
      have resets := run_resets members sound.sockets fun member isMember => subtree_found sound.tree listed isMember
      have worked : outcome (work hooks fuel (initialTasks members))
          (startState session root (session.graph.wiped members)) ≠ .error .exhausted := by
        intro cut
        rw [outcome, run_conclude listed resets, cut] at returned
        exact returned rfl
      rw [run_conclude listed resets, run_conclude listed resets]
      rw [outcome, after, work_of_le most worked]
      rfl

/-- For a reachable graph in which no computation lies on a cycle, hooks that return and only register variables, and
any methods: from some amount of fuel on, a build returns a report or an error, the same one whatever the amount. Each
unit of fuel pays for one task or one arrival, and however far the work has come, no op is at a socket twice. -/
theorem run_ends {session : Session} (reachable : session.graph.Reachable) (feedforward : session.graph.Feedforward)
    (registers : hooks.Registers session.graph) (hooksReturn : hooks.Return) (root : ComponentId)
    (config : BuildConfig) :
    (∃ enough answer final, answer ≠ .error .exhausted ∧
      ∀ fuel, enough ≤ fuel → (run hooks fuel root config).run session = (answer, final)) ∧
    ∀ fuel members, session.graph.subtree root = .ok members →
      ((after (work hooks fuel (initialTasks members))
        (startState session root (session.graph.wiped members))).arrivals.toList.map
          fun arrival => (arrival.socket, arrival.op.id)).Nodup := by
  have sound := reachable.sound
  constructor
  · cases listed : session.graph.subtree root with
    | error error =>
        exact ⟨0, .error (.failed error), _, (nomatch ·), fun fuel _ => run_unlisted listed⟩
    | ok members =>
        have exist : ∀ member ∈ members, ∃ node, session.graph.component? member = some node :=
          fun member isMember => subtree_found sound.tree listed isMember
        rcases work_ends registers hooksReturn
          (acc_of_feedforward sound feedforward (fresh_startState session sound root members)) rfl
          (wiring_startState session root members) with ⟨enough, returned⟩
        have returned : outcome (run hooks enough root config) session ≠ .error .exhausted := by
          rw [outcome, run_conclude listed (run_resets members sound.sockets exist)]
          exact returns_conclude returned members _ _
        exact ⟨enough, _, _, returned, fun fuel most => run_of_le sound most returned⟩
  · intro fuel members _
    exact once_work hooks fuel (initialTasks members) _ (Book.Once.start (fresh_startState session sound root members))

/-! ### A cycle of links behind a computation -/

theorem biased_return : biased.Return :=
  fun _ _ _ => .sessionOfGraph _

/-- A component makes an op out of its input and sends it round a cycle of its parts. -/
def circling : GraphM Unit := do
  let whole ← create { scope := "whole" }
  let _ ← defineInputs whole ["input"] (some (.box {}))
  let _ ← addSockets whole ["output"] (some .output) false
  register whole (relaying 1)
  let _ ← compute whole ["input"] ["output"] none {}
  setHook whole (.script [])
  let left ← create { scope := "left" }
  let _ ← addSockets left ["start"] (some .input) false
  let right ← create { scope := "right" }
  let _ ← addSockets right ["start"] (some .input) false
  add whole left .nothing
  add whole right .nothing
  connect whole (.socket (.named "output")) (.component left)
  connect left (.socket (.named "start")) (.component right)
  connect right (.socket (.named "start")) (.component left)

theorem reachable_circling : (after circling {}).Reachable := by
  refine (reachable_empty {}).reaches ((?_ : Keeps Reaches circling) {})
  refine Keeps.bind (Reaches.create _) fun whole => ?_
  refine Keeps.bind (Reaches.defineInputs whole _ _) fun _ => ?_
  refine Keeps.bind (Reaches.addSockets whole _ _ _) fun _ => ?_
  refine Keeps.bind (Reaches.register whole _) fun _ => ?_
  refine Keeps.bind (Reaches.compute whole _ _ _ _) fun _ => ?_
  refine Keeps.bind (Reaches.setHook whole _) fun _ => ?_
  refine Keeps.bind (Reaches.create _) fun left => ?_
  refine Keeps.bind (Reaches.addSockets left _ _ _) fun _ => ?_
  refine Keeps.bind (Reaches.create _) fun right => ?_
  refine Keeps.bind (Reaches.addSockets right _ _ _) fun _ => ?_
  refine Keeps.bind (Reaches.add whole left _) fun _ => ?_
  refine Keeps.bind (Reaches.add whole right _) fun _ => ?_
  refine Keeps.bind (Reaches.connect whole _ _) fun _ => ?_
  exact Keeps.bind (Reaches.connect left _ _) fun _ => Reaches.connect right _ _

theorem feedforward_circling : (after circling {}).Feedforward := by
  have rising : (after circling {}).rises (fun socket => min socket.index 1) = true := by decide +kernel
  exact feedforward_of_rises rising

theorem linked_circling : (after circling {}).Linked ⟨2⟩ ⟨3⟩ ∧ (after circling {}).Linked ⟨3⟩ ⟨2⟩ := by
  have linked (graph : Graph) (source target : SocketId)
      (entries : (graph.socket? source).map (fun held => socketEntries held.outgoing) = some [target]) :
      graph.Linked source target := by
    rcases Option.map_eq_some_iff.mp entries with ⟨held, found, only⟩
    exact ⟨held, found, mem_socketEntries.mp (only ▸ List.mem_singleton_self target)⟩
  exact ⟨linked _ _ _ (by decide +kernel), linked _ _ _ (by decide +kernel)⟩

theorem run_ends_circling : (after circling {}).Linked ⟨2⟩ ⟨3⟩ ∧ (after circling {}).Linked ⟨3⟩ ⟨2⟩ ∧
    ∃ enough report final, report.completed.length = 3 ∧
      ∀ fuel, enough ≤ fuel → (run biased fuel ⟨0⟩ {}).run { graph := after circling {} } = (.ok report, final) := by
  have general (graph : Graph) (reachable : graph.Reachable) (feedforward : graph.Feedforward)
      (succeeds : (outcome (run biased 60 ⟨0⟩ {}) { graph }).toOption.map (·.completed.length) = some 3) :
      ∃ enough report final, report.completed.length = 3 ∧
        ∀ fuel, enough ≤ fuel → (run biased fuel ⟨0⟩ {}).run { graph } = (.ok report, final) := by
    rcases @run_ends biased { graph } reachable feedforward (biased_registers graph) biased_return ⟨0⟩ {} with
      ⟨⟨enough, answer, final, -, ends⟩, -⟩
    have returned : outcome (run biased 60 ⟨0⟩ {}) { graph } ≠ .error .exhausted := by
      intro cut
      rw [cut] at succeeds
      cases succeeds
    have same := run_of_le reachable.sound (Nat.le_max_right enough 60) returned
    rw [ends _ (Nat.le_max_left enough 60)] at same
    rw [outcome, ← same] at succeeds
    cases answer with
    | error stop => cases succeeds
    | ok report => exact ⟨enough, report, final, Option.some.inj succeeds, ends⟩
  exact ⟨linked_circling.1, linked_circling.2,
    general _ reachable_circling feedforward_circling (by decide +kernel)⟩

end Build

end Wiring
