import Mathlib.Logic.Relation
import Wiring.Proofs.Build.Telling
import Wiring.Proofs.Graph.Flawless

/-!
Contract: the configurations that the work of a build goes through, and that all they refer to exists.

Owns: `Turn`, one step of the work, and that work which fails does so at a configuration that it has reached;
`Backed`, by which what a task refers to exists; `Anchored`, by which a configuration has a sound graph and
refers to nothing else; and that every turn preserves it.

Does not own: why a task fails.
-/

namespace Wiring.Build

open Wiring.Graph

/-- The tasks that wait and the state of the build. -/
abbrev Configuration := List Task × BuildState

variable {hooks : HookRunner} {state later : BuildState}

/-- The work does the first task, or it passes on the next arrival. -/
inductive Turn (hooks : HookRunner) : Configuration → Configuration → Prop where
  | task {task : Task} {waiting more : List Task} {state later : BuildState}
      (performed : (perform hooks task).run state = (.ok more, later)) :
      Turn hooks (task :: waiting, state) (more ++ waiting, later)
  | arrival {more : List Task} {state later : BuildState} (served : serve.run state = (.ok (some more), later)) :
      Turn hooks ([], state) (more, later)

/-- Where the work fails: at its first task, or at an arrival. -/
inductive FailsAt (hooks : HookRunner) (error : Error) : Configuration → BuildState → Prop where
  | task {task : Task} {waiting : List Task} {state later : BuildState}
      (failed : (perform hooks task).run state = (.error (.failed error), later)) :
      FailsAt hooks error (task :: waiting, state) later
  | arrival {state later : BuildState} (failed : serve.run state = (.error (.failed error), later)) :
      FailsAt hooks error ([], state) later

/-- Work that fails has reached the configuration at which it fails. -/
theorem work_failsAt {fuel : Nat} {tasks : List Task} {error : Error}
    (failed : (work hooks fuel tasks).run state = (.error (.failed error), later)) :
    ∃ reached, Relation.ReflTransGen (Turn hooks) (tasks, state) reached ∧ FailsAt hooks error reached later := by
  induction fuel generalizing tasks state with
  | zero => cases congrArg Prod.fst failed
  | succ fuel inductionHypothesis =>
      cases tasks with
      | nil =>
          cases served : serve.run state with
          | mk answer middle =>
              cases answer with
              | error stop =>
                  obtain ⟨same, rfl⟩ := Prod.mk.inj ((run_bind_error served _).symm.trans failed)
                  obtain rfl := Except.error.inj same
                  exact ⟨_, .refl, .arrival served⟩
              | ok answer =>
                  have continued := (run_bind_ok served _).symm.trans failed
                  cases answer with
                  | none => cases congrArg Prod.fst continued
                  | some more =>
                      rcases inductionHypothesis continued with ⟨reached, turns, failsAt⟩
                      exact ⟨reached, .head (.arrival served) turns, failsAt⟩
      | cons task waiting =>
          cases performed : (perform hooks task).run state with
          | mk answer middle =>
              cases answer with
              | error stop =>
                  obtain ⟨same, rfl⟩ := Prod.mk.inj ((run_bind_error performed _).symm.trans failed)
                  obtain rfl := Except.error.inj same
                  exact ⟨_, .refl, .task performed⟩
              | ok more =>
                  have continued := (run_bind_ok performed _).symm.trans failed
                  rcases inductionHypothesis continued with ⟨reached, turns, failsAt⟩
                  exact ⟨reached, .head (.task performed) turns, failsAt⟩

/-! ### Tasks that refer to what exists -/

/-- What the task refers to exists, and a firing has an op for each input of its computation. -/
def Backed (graph : Graph) : Task → Prop
  | .seed id | .check id | .fireSources id => ∃ node, graph.component? id = some node
  | .seedSocket _ socket | .place _ socket _ | .deliver socket _ | .wake socket =>
      ∃ held, graph.socket? socket = some held
  | .forward _ _ (.socket target) => ∃ held, graph.socket? target = some held
  | .forward _ _ (.space _) => True
  | .forward _ _ (.computation id) | .fire id => ∃ computation, graph.computation? id = some computation
  | .fireWith id inputs =>
      ∃ computation, graph.computation? id = some computation ∧ inputs.length = computation.inputs.length

theorem Backed.lasts {before after : Graph} (lasts : Lasts before after) {task : Task}
    (backed : Backed before task) : Backed after task := by
  have component {id : ComponentId} : (∃ node, before.component? id = some node) →
      ∃ node, after.component? id = some node := fun ⟨node, found⟩ => by
    rcases lasts.component id node found with ⟨new, newFound, -⟩
    exact ⟨new, newFound⟩
  have socket {id : SocketId} : (∃ held, before.socket? id = some held) → ∃ held, after.socket? id = some held :=
    fun ⟨held, found⟩ => lasts.socket id held found
  have computation {id : ComputationId} : (∃ computation, before.computation? id = some computation) →
      ∃ computation, after.computation? id = some computation :=
    fun ⟨computation, found⟩ => ⟨computation, lasts.computation id computation found⟩
  cases task with
  | seed id => exact component backed
  | seedSocket id target => exact socket backed
  | place id target space => exact socket backed
  | deliver target op => exact socket backed
  | check id => exact component backed
  | forward source op connection =>
      cases connection with
      | socket target => exact socket backed
      | space space => trivial
      | computation id => exact computation backed
  | wake target => exact socket backed
  | fireSources id => exact component backed
  | fire id => exact computation backed
  | fireWith id inputs =>
      rcases backed with ⟨bound, found, length⟩
      exact ⟨bound, lasts.computation id bound found, length⟩

/-- A sound graph with tasks and arrivals that refer to nothing but what exists. -/
structure Anchored (configuration : Configuration) : Prop where
  sound : Sound configuration.2.graph
  fed : ∀ task ∈ configuration.1, Fed configuration.2.graph task
  backed : ∀ task ∈ configuration.1, Backed configuration.2.graph task
  arrived : ∀ arrival ∈ configuration.2.arrivals, ∃ held, configuration.2.graph.socket? arrival.socket = some held

theorem Anchored.initial {session : Session} (sound : Sound session.graph) {root : ComponentId}
    {members : List ComponentId} (listed : session.graph.subtree root = .ok members) :
    Anchored (initialTasks members, startState session root (session.graph.wiped members)) where
  sound := sound.wiped members
  fed := fed_initialTasks members _
  backed task member := by
    have exist {id : ComponentId} (isMember : id ∈ members) :
        ∃ node, (session.graph.wiped members).component? id = some node := by
      rcases subtree_found sound.tree listed isMember with ⟨node, found⟩
      exact ⟨_, component?_wiped_some found⟩
    rcases mem_initialTasks member with ⟨id, isMember, rfl⟩ | ⟨id, isMember, rfl⟩
    · exact exist isMember
    · exact exist isMember
  arrived arrival member := absurd member (Array.not_mem_empty arrival)

end Wiring.Build
