import Wiring.Proofs.Graph.Operations.Marks
import Wiring.Proofs.Reachability

/-!
Contract: sessions over many operations and builds.

Owns: `IsOperation`, the operations on a graph other than builds, each with any arguments; that a relation is kept
by all that operations lead to if operations and builds keep it; `Edits`, what any number of operations lead to,
successful or failed; hooks that do such operations and start no builds; and the sessions that have been lived
through, from an empty graph over edits and builds with such hooks.

Does not own: what builds write into the trace of a session.
-/

namespace Wiring

open Relation (ReflTransGen)

/-- The operations on a graph other than builds. -/
inductive IsOperation : {α : Type} → GraphM α → Prop where
  | create (config : ComponentConfig) : IsOperation (Graph.create config)
  | setHook (id : ComponentId) (hook : Hook) : IsOperation (Graph.setHook id hook)
  | addSockets (owner : ComponentId) (names : List String) (side : Option Side) (internal : Bool) :
      IsOperation (Graph.addSockets owner names side internal)
  | defineInputs (owner : ComponentId) (names : List String) (space : Option Space) :
      IsOperation (Graph.defineInputs owner names space)
  | defineOutputs (owner : ComponentId) (names : List String) : IsOperation (Graph.defineOutputs owner names)
  | ensureInternal (owner : ComponentId) (name : String) : IsOperation (Graph.ensureInternal owner name)
  | connect (viewer : ComponentId) (source target : Endpoint) : IsOperation (Graph.connect viewer source target)
  | disconnect (viewer : ComponentId) (source target : Endpoint) :
      IsOperation (Graph.disconnect viewer source target)
  | register (id : ComponentId) (method : Method) : IsOperation (Graph.register id method)
  | compute (owner : ComponentId) (inputs outputs : List String) (method : Option String) (options : Options) :
      IsOperation (Graph.compute owner inputs outputs method options)
  | add (parent child : ComponentId) (exposure : Exposure) : IsOperation (Graph.add parent child exposure)
  | addMany (parent : ComponentId) (children : List ComponentId) (exposures : Exposures) :
      IsOperation (Graph.addMany parent children exposures)
  | getVariable (owner : ComponentId) (name : String) (spec : VariableSpec) :
      IsOperation (Graph.getVariable owner name spec)
  | scatter (owner : ComponentId) (name : String) (rows : List Nat) (updates : Tensor Float32) :
      IsOperation (Graph.scatterVariable owner name rows updates)
  | assign (owner : ComponentId) (name : String) (value : Tensor Float32) :
      IsOperation (Graph.assignVariable owner name value)
  | instantiate (blueprint : Blueprint) (name scope : Option String) :
      IsOperation (Graph.instantiate blueprint name scope)
  | copy (id : ComponentId) (name scope : Option String) : IsOperation (Graph.copy id name scope)

namespace IsOperation

variable {α : Type} {step : GraphM α}

/-- All operations keep what the edits of operations keep, if those on variables do. -/
theorem keeps {related : Graph → Graph → Prop} [IsPreorder Graph related] (structural : Graph.Structural related)
    (getVariable : ∀ owner name spec, Keeps related (Graph.getVariable owner name spec))
    (scatter : ∀ owner name rows updates, Keeps related (Graph.scatterVariable owner name rows updates))
    (assign : ∀ owner name value, Keeps related (Graph.assignVariable owner name value))
    (isOperation : IsOperation step) : Keeps related step := by
  cases isOperation with
  | create config => exact structural.create config
  | setHook id hook => exact structural.setHook id hook
  | addSockets owner names side internal => exact structural.addSockets owner names side internal
  | defineInputs owner names space => exact structural.defineInputs owner names space
  | defineOutputs owner names => exact structural.addSockets owner names _ _
  | ensureInternal owner name => exact structural.ensureInternal owner name
  | connect viewer source target => exact structural.connect viewer source target
  | disconnect viewer source target => exact structural.disconnect viewer source target
  | register id method => exact structural.register id method
  | compute owner inputs outputs method options => exact structural.compute owner inputs outputs method options
  | add parent child exposure => exact structural.add parent child exposure
  | addMany parent children exposures => exact structural.addMany parent children exposures
  | getVariable owner name spec => exact getVariable owner name spec
  | scatter owner name rows updates => exact scatter owner name rows updates
  | assign owner name value => exact assign owner name value
  | instantiate blueprint name scope => exact structural.instantiate blueprint name scope
  | copy id name scope => exact structural.copy id name scope

theorem stays (isOperation : IsOperation step) : Keeps Graph.Stays step :=
  isOperation.keeps Graph.Stays.structural
    (fun owner name spec graph => .registers (Graph.keeps_getVariable owner name spec graph))
    (fun owner name rows updates graph => .registers (Graph.keeps_scatterVariable owner name rows updates graph))
    (fun owner name value graph => .registers (Graph.keeps_assignVariable owner name value graph))

theorem reaches (isOperation : IsOperation step) : Keeps Reaches step := by
  cases isOperation with
  | create config => exact .create config
  | setHook id hook => exact .setHook id hook
  | addSockets owner names side internal => exact .addSockets owner names side internal
  | defineInputs owner names space => exact .defineInputs owner names space
  | defineOutputs owner names => exact .defineOutputs owner names
  | ensureInternal owner name => exact .ensureInternal owner name
  | connect viewer source target => exact .connect viewer source target
  | disconnect viewer source target => exact .disconnect viewer source target
  | register id method => exact .register id method
  | compute owner inputs outputs method options => exact .compute owner inputs outputs method options
  | add parent child exposure => exact .add parent child exposure
  | addMany parent children exposures => exact .addMany parent children exposures
  | getVariable owner name spec => exact .getVariable owner name spec
  | scatter owner name rows updates => exact .scatter owner name rows updates
  | assign owner name value => exact .assign owner name value
  | instantiate blueprint name scope => exact .instantiate blueprint name scope
  | copy id name scope => exact .copy id name scope

end IsOperation

/-- What operations lead to is related if all operations and all builds keep the relation. -/
theorem Reaches.of_keeps {related : Graph → Graph → Prop} [IsPreorder Graph related]
    (operation : ∀ {α : Type} {step : GraphM α}, IsOperation step → Keeps related step)
    (build : ∀ hooks fuel root config session,
      (∀ hook id spaces given, Reaches given.graph (after (hooks hook id spaces) given).graph ∧
        related given.graph (after (hooks hook id spaces) given).graph) →
      related session.graph (after (Build.run hooks fuel root config) session).graph)
    {before later : Graph} (reaches : Reaches before later) : related before later := by
  induction reaches with
  | refl graph => exact Std.Refl.refl graph
  | trans _ _ left right => exact IsTrans.trans _ _ _ left right
  | create config graph => exact operation (.create config) graph
  | setHook id hook graph => exact operation (.setHook id hook) graph
  | addSockets owner names side internal graph => exact operation (.addSockets owner names side internal) graph
  | defineInputs owner names space graph => exact operation (.defineInputs owner names space) graph
  | defineOutputs owner names graph => exact operation (.defineOutputs owner names) graph
  | ensureInternal owner name graph => exact operation (.ensureInternal owner name) graph
  | connect viewer source target graph => exact operation (.connect viewer source target) graph
  | disconnect viewer source target graph => exact operation (.disconnect viewer source target) graph
  | register id method graph => exact operation (.register id method) graph
  | compute owner inputs outputs method options graph =>
      exact operation (.compute owner inputs outputs method options) graph
  | add parent child exposure graph => exact operation (.add parent child exposure) graph
  | addMany parent children exposures graph => exact operation (.addMany parent children exposures) graph
  | getVariable owner name spec graph => exact operation (.getVariable owner name spec) graph
  | scatter owner name rows updates graph => exact operation (.scatter owner name rows updates) graph
  | assign owner name value graph => exact operation (.assign owner name value) graph
  | instantiate blueprint name scope graph => exact operation (.instantiate blueprint name scope) graph
  | copy id name scope graph => exact operation (.copy id name scope) graph
  | build hooks fuel root config session hooksReach inductionHypothesis =>
      exact build hooks fuel root config session fun hook id spaces given =>
        ⟨hooksReach hook id spaces given, inductionHypothesis hook id spaces given⟩

/-- What operations other than builds lead to, whatever their outcome. -/
def Graph.Edits : Graph → Graph → Prop :=
  ReflTransGen fun before later => ∃ (α : Type) (step : GraphM α), IsOperation step ∧ after step before = later

instance : IsPreorder Graph Graph.Edits where
  refl _ := .refl
  trans _ _ _ := ReflTransGen.trans

theorem Graph.Edits.stays {before later : Graph} (edits : before.Edits later) : before.Stays later := by
  induction edits with
  | refl => exact .refl before
  | tail _ last inductionHypothesis =>
      rcases last with ⟨_, step, isOperation, rfl⟩
      exact inductionHypothesis.trans (isOperation.stays _)

theorem Graph.Edits.reaches {before later : Graph} (edits : before.Edits later) : Reaches before later := by
  induction edits with
  | refl => exact .refl before
  | tail _ last inductionHypothesis =>
      rcases last with ⟨_, step, isOperation, rfl⟩
      exact inductionHypothesis.trans (isOperation.reaches _)

theorem Graph.Edits.of_step {α : Type} {step : GraphM α} (isOperation : IsOperation step) (graph : Graph) :
    graph.Edits (after step graph) :=
  .single ⟨α, step, isOperation, rfl⟩

/-- The hooks do operations and start no builds, which alone write into the trace. -/
def HookRunner.Edits (hooks : HookRunner) : Prop :=
  ∀ hook id spaces given, Graph.Edits given.graph (after (hooks hook id spaces) given).graph ∧
    (after (hooks hook id spaces) given).trace = given.trace

namespace Session

/-- The graph is edited, or there is a build, whatever its outcome. -/
inductive Advances : Session → Session → Prop where
  | edit (session : Session) (graph : Graph) (edits : session.graph.Edits graph) :
      Advances session { session with graph }
  | build (hooks : HookRunner) (fuel : Nat) (root : ComponentId) (config : BuildConfig) (session : Session)
      (hooksEdit : hooks.Edits) : Advances session (after (Build.run hooks fuel root config) session)

/-- A session that began with an empty graph and an empty trace. -/
def Lived (session : Session) : Prop :=
  ∃ backend : Backend, ReflTransGen Advances { graph := { backend } } session

theorem Lived.advances {session later : Session} (lived : session.Lived) (advances : session.Advances later) :
    later.Lived := by
  rcases lived with ⟨backend, history⟩
  exact ⟨backend, history.tail advances⟩

theorem Advances.reaches {session later : Session} (advances : session.Advances later) :
    Reaches session.graph later.graph := by
  cases advances with
  | edit session graph edits => exact edits.reaches
  | build hooks fuel root config session hooksEdit =>
      exact .build hooks fuel root config session fun hook id spaces given =>
        (hooksEdit hook id spaces given).1.reaches

theorem Lived.reachable {session : Session} (lived : session.Lived) : session.graph.Reachable := by
  rcases lived with ⟨backend, history⟩
  refine ⟨backend, ?_⟩
  induction history with
  | refl => exact .refl _
  | tail _ last inductionHypothesis => exact inductionHypothesis.trans last.reaches

end Session

end Wiring
