import Wiring.Proofs.Build.Keeps
import Wiring.Proofs.Graph.Operations.Copies
import Wiring.Proofs.Graph.Operations.Variables
import Wiring.Proofs.Graph.Sound.Waiting

/-!
Contract: the graphs that operations lead to.

Owns: `Reaches`, with one case for each operation on a graph, successful or failed, where the hooks of a build
may do whatever operations can do; the reachable graphs, which begin empty with some backend; and that all of
it is a sequence of changes.
-/

namespace Wiring

open Order (Preimage)

/-- What operations lead to, whatever their outcome. -/
inductive Reaches : Graph → Graph → Prop where
  | refl (graph : Graph) : Reaches graph graph
  | trans {first second third : Graph} (left : Reaches first second) (right : Reaches second third) :
      Reaches first third
  | create (config : ComponentConfig) (graph : Graph) : Reaches graph (after (Graph.create config) graph)
  | setHook (id : ComponentId) (hook : Hook) (graph : Graph) :
      Reaches graph (after (Graph.setHook id hook) graph)
  | addSockets (owner : ComponentId) (names : List String) (side : Option Side) (internal : Bool)
      (graph : Graph) : Reaches graph (after (Graph.addSockets owner names side internal) graph)
  | defineInputs (owner : ComponentId) (names : List String) (space : Option Space) (graph : Graph) :
      Reaches graph (after (Graph.defineInputs owner names space) graph)
  | defineOutputs (owner : ComponentId) (names : List String) (graph : Graph) :
      Reaches graph (after (Graph.defineOutputs owner names) graph)
  | ensureInternal (owner : ComponentId) (name : String) (graph : Graph) :
      Reaches graph (after (Graph.ensureInternal owner name) graph)
  | connect (viewer : ComponentId) (source target : Endpoint) (graph : Graph) :
      Reaches graph (after (Graph.connect viewer source target) graph)
  | disconnect (viewer : ComponentId) (source target : Endpoint) (graph : Graph) :
      Reaches graph (after (Graph.disconnect viewer source target) graph)
  | register (id : ComponentId) (method : Method) (graph : Graph) :
      Reaches graph (after (Graph.register id method) graph)
  | compute (owner : ComponentId) (inputs outputs : List String) (method : Option String)
      (options : Options) (graph : Graph) :
      Reaches graph (after (Graph.compute owner inputs outputs method options) graph)
  | add (parent child : ComponentId) (exposure : Exposure) (graph : Graph) :
      Reaches graph (after (Graph.add parent child exposure) graph)
  | addMany (parent : ComponentId) (children : List ComponentId) (exposures : Exposures) (graph : Graph) :
      Reaches graph (after (Graph.addMany parent children exposures) graph)
  | getVariable (owner : ComponentId) (name : String) (spec : VariableSpec) (graph : Graph) :
      Reaches graph (after (Graph.getVariable owner name spec) graph)
  | scatter (owner : ComponentId) (name : String) (rows : List Nat) (updates : Tensor Float32)
      (graph : Graph) : Reaches graph (after (Graph.scatterVariable owner name rows updates) graph)
  | assign (owner : ComponentId) (name : String) (value : Tensor Float32) (graph : Graph) :
      Reaches graph (after (Graph.assignVariable owner name value) graph)
  | instantiate (blueprint : Blueprint) (name scope : Option String) (graph : Graph) :
      Reaches graph (after (Graph.instantiate blueprint name scope) graph)
  | copy (id : ComponentId) (name scope : Option String) (graph : Graph) :
      Reaches graph (after (Graph.copy id name scope) graph)
  | build (hooks : HookRunner) (fuel : Nat) (root : ComponentId) (config : BuildConfig) (session : Session)
      (hooksReach : ∀ hook id spaces given, Reaches given.graph (after (hooks hook id spaces) given).graph) :
      Reaches session.graph (after (Build.run hooks fuel root config) session).graph

instance : IsPreorder Graph Reaches where
  refl := .refl
  trans _ _ _ := .trans

/-- Everything that operations do is done by changes. -/
theorem Reaches.changes {before later : Graph} (reaches : Reaches before later) :
    Graph.Changes before later := by
  induction reaches with
  | refl graph => exact .refl
  | trans _ _ left right => exact left.trans right
  | create config graph => exact Graph.keeps_create config graph
  | setHook id hook graph => exact Graph.keeps_setHook id hook graph
  | addSockets owner names side internal graph =>
      exact Graph.keeps_addSockets owner names side internal graph
  | defineInputs owner names space graph => exact Graph.keeps_defineInputs owner names space graph
  | defineOutputs owner names graph => exact Graph.keeps_defineOutputs owner names graph
  | ensureInternal owner name graph => exact Graph.keeps_ensureInternal owner name graph
  | connect viewer source target graph => exact Graph.keeps_connect viewer source target graph
  | disconnect viewer source target graph => exact Graph.keeps_disconnect viewer source target graph
  | register id method graph => exact Graph.keeps_register id method graph
  | compute owner inputs outputs method options graph =>
      exact Graph.keeps_compute owner inputs outputs method options graph
  | add parent child exposure graph => exact Graph.keeps_add parent child exposure graph
  | addMany parent children exposures graph => exact Graph.keeps_addMany parent children exposures graph
  | getVariable owner name spec graph =>
      exact Graph.changes_of_registers (Graph.keeps_getVariable owner name spec graph)
  | scatter owner name rows updates graph =>
      exact Graph.changes_of_registers (Graph.keeps_scatterVariable owner name rows updates graph)
  | assign owner name value graph =>
      exact Graph.changes_of_registers (Graph.keeps_assignVariable owner name value graph)
  | instantiate blueprint name scope graph => exact Graph.keeps_instantiate blueprint name scope graph
  | copy id name scope graph => exact Graph.keeps_copy id name scope graph
  | build hooks fuel root config session _ hooksReach =>
      have ignores (before later : Graph) (same : later.wiring = before.wiring) (_ : before.SameVariables later)
          (waiting : ∀ owner, ∀ socket ∈ later.deferredOf owner,
            socket ∈ before.deferredOf owner ∨ before.MayWait owner socket) : Graph.Changes before later :=
        .single (.state later same waiting)
      exact Build.keeps_run ignores (fun _ _ changes _ _ => Graph.Changes.feeds changes)
        (fun hook id spaces given => hooksReach hook id spaces given) fuel root config session

/-- A graph that operations have made out of an empty one. -/
def Graph.Reachable (graph : Graph) : Prop :=
  ∃ backend : Backend, Reaches { backend } graph

theorem Graph.Reachable.reaches {before later : Graph} (reachable : before.Reachable)
    (reaches : Reaches before later) : later.Reachable := by
  obtain ⟨backend, begun⟩ := reachable
  exact ⟨backend, begun.trans reaches⟩

theorem Graph.reachable_empty (backend : Backend) : Graph.Reachable { backend } :=
  ⟨backend, .refl _⟩

/-- What every empty graph has and every change preserves holds of the reachable graphs. -/
theorem Graph.Reachable.of_changes {holds : Graph → Prop} (empty : ∀ backend, holds { backend })
    (change : ∀ {before later}, Change before later → holds before → holds later) {graph : Graph}
    (reachable : graph.Reachable) : holds graph := by
  obtain ⟨backend, reaches⟩ := reachable
  have changes := reaches.changes
  clear reaches
  induction changes with
  | refl => exact empty backend
  | tail _ last inductionHypothesis => exact change last inductionHypothesis

end Wiring
