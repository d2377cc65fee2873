import Wiring.Proofs.Reachability
import Wiring.Workspace

/-!
Contract: executions stay within the reachable graphs.

Owns: that every operation, also one of a hook script during a build, does to its graph only what `Reaches`
allows, and that all graphs of a workspace are reachable.
-/

namespace Wiring

open Order (Preimage)

/-! ### Ready-made components -/

theorem Transposition.keeps_create (scope : Option String) : Keeps Reaches (create scope) := by
  refine Keeps.bind (Reaches.create _) fun id => ?_
  refine Keeps.bind (Reaches.addSockets id _ _ _) fun _ => ?_
  refine Keeps.bind (Reaches.register id _) fun _ => ?_
  exact Keeps.bind (Reaches.compute id _ _ _ _) fun _ => Keeps.pure _

theorem EpsilonDecider.keeps_create (config : EpsilonConfig) : Keeps Reaches (create config) := by
  refine Keeps.bind (Reaches.create _) fun id => ?_
  refine Keeps.bind (Reaches.defineInputs id _ _) fun _ => ?_
  refine Keeps.bind (Reaches.defineOutputs id _) fun _ => ?_
  refine Keeps.bind (Reaches.register id _) fun _ => ?_
  exact Keeps.bind (Reaches.compute id _ _ _ _) fun _ => Keeps.pure _

theorem NoiseSource.keeps_create (config : NoiseConfig) : Keeps Reaches (create config) := by
  refine Keeps.bind (Keeps.query _) fun _ => ?_
  refine Keeps.bind (Reaches.create _) fun id => ?_
  refine Keeps.bind (Reaches.defineOutputs id _) fun _ => ?_
  refine Keeps.bind (Reaches.register id _) fun _ => ?_
  exact Keeps.bind (Reaches.compute id _ _ _ _) fun _ => Keeps.pure _

theorem Exploration.keeps_wireEpsilon (id : ComponentId) (config : EpsilonConfig) :
    Keeps Reaches (wireEpsilon id config) := by
  refine Keeps.bind (EpsilonDecider.keeps_create config) fun decider => ?_
  refine Keeps.bind (Reaches.add id _ _) fun _ => ?_
  refine Keeps.bind (Reaches.defineInputs id _ _) fun _ => ?_
  refine Keeps.bind (Reaches.connect id _ _) fun _ => ?_
  refine Keeps.bind (Reaches.connect id _ _) fun _ => ?_
  refine Keeps.bind (Reaches.ensureInternal id _) fun _ => ?_
  refine Keeps.bind (Reaches.connect id _ _) fun _ => ?_
  refine Keeps.bind (Reaches.register id _) fun _ => ?_
  exact Keeps.bind (Reaches.compute id _ _ _ _) fun _ => Keeps.pure _

theorem Exploration.keeps_wireNoise (id : ComponentId) (config : NoiseConfig) :
    Keeps Reaches (wireNoise id config) := by
  refine Keeps.bind (NoiseSource.keeps_create config) fun source => ?_
  refine Keeps.bind (Reaches.add id _ _) fun _ => ?_
  refine Keeps.bind (Reaches.defineInputs id _ _) fun _ => ?_
  refine Keeps.bind (Reaches.ensureInternal id _) fun _ => ?_
  refine Keeps.bind (Reaches.connect id _ _) fun _ => ?_
  refine Keeps.bind (Reaches.register id _) fun _ => ?_
  exact Keeps.bind (Reaches.compute id _ _ _ _) fun _ => Keeps.pure _

theorem Exploration.keeps_wirePassThrough (id : ComponentId) : Keeps Reaches (wirePassThrough id) :=
  Keeps.bind (Reaches.register id _) fun _ => Keeps.bind (Reaches.compute id _ _ _ _) fun _ => Keeps.pure _

theorem Exploration.keeps_create (config : ExplorationConfig) (actions : Space) :
    Keeps Reaches (create config actions) := by
  unfold create
  refine Keeps.bind (Keeps.query _) fun _ => ?_
  refine Keeps.bind (Reaches.create _) fun id => ?_
  refine Keeps.bind (Reaches.defineInputs id _ _) fun _ => ?_
  refine Keeps.bind (Reaches.defineOutputs id _) fun _ => ?_
  refine Keeps.bind (Reaches.setHook id _) fun _ => ?_
  split
  · exact Keeps.bind (keeps_wireEpsilon id _) fun _ => Keeps.pure _
  · exact Keeps.bind (keeps_wireNoise id _) fun _ => Keeps.pure _
  · exact Keeps.bind (keeps_wirePassThrough id) fun _ => Keeps.pure _

/-! ### Operations -/

namespace Execution

variable {α : Type}

theorem keeps_ask (question : Graph → Except Error α) :
    Keeps (Preimage Session.graph Reaches) (ask question) :=
  Session.keeps_ofGraph (Keeps.query question)

theorem keeps_answering (wrap : α → Answer) {step : GraphM α} (keeps : Keeps Reaches step) :
    Keeps (Preimage Session.graph Reaches) (answering wrap step) :=
  Keeps.map wrap (Session.keeps_ofGraph keeps)

theorem keeps_readConfig (config : Option α) :
    Keeps (Preimage Session.graph Reaches) (readConfig config) := by
  cases config with
  | some config => exact Keeps.pure config
  | none => exact Keeps.throw _

theorem keeps_act {build : ComponentId → BuildConfig → SessionM Build.Report}
    (builds : ∀ id config, Keeps (Preimage Session.graph Reaches) (build id config)) (id : ComponentId)
    (action : Action) : Keeps (Preimage Session.graph Reaches) (act build id action) := by
  cases action with
  | addSockets names side internal => exact keeps_answering _ (Reaches.addSockets id names side internal)
  | defineInputs names space => exact keeps_answering _ (Reaches.defineInputs id names space)
  | defineOutputs names => exact keeps_answering _ (Reaches.defineOutputs id names)
  | resolve ref side => exact Keeps.map _ (keeps_ask _)
  | socketNamed name side => exact Keeps.map _ (keeps_ask _)
  | ensureInternal name => exact keeps_answering _ (Reaches.ensureInternal id name)
  | connect source target => exact keeps_answering _ (Reaches.connect id source target)
  | disconnect source target => exact keeps_answering _ (Reaches.disconnect id source target)
  | register method => exact keeps_answering _ (Reaches.register id method)
  | compute inputs outputs method options =>
      exact keeps_answering _ (Reaches.compute id inputs outputs method options)
  | setHook script => exact keeps_answering _ (Reaches.setHook id (.script script))
  | add child exposure => exact keeps_answering _ (Reaches.add id child exposure)
  | addMany children exposures => exact keeps_answering _ (Reaches.addMany id children exposures)
  | getVariable name spec => exact keeps_answering _ (Reaches.getVariable id name spec)
  | registered names collection => exact Keeps.map _ (keeps_ask _)
  | assign name value => exact keeps_answering _ (Reaches.assign id name value)
  | scatter name rows updates => exact keeps_answering _ (Reaches.scatter id name rows updates)
  | read name rows => exact Keeps.map _ (keeps_ask _)
  | copy name scope => exact keeps_answering _ (Reaches.copy id name scope)
  | build config => exact Keeps.map _ (builds id config)
  | subtree => exact Keeps.map _ (keeps_ask _)
  | fullScope => exact Keeps.map _ (keeps_ask _)
  | describe => exact Keeps.map _ (keeps_ask _)
  | inspect => exact Keeps.map _ (keeps_ask _)

theorem keeps_runHook {execute : Operation → SessionM Answer}
    (keeps : ∀ operation, Keeps (Preimage Session.graph Reaches) (execute operation))
    (spaces : Keyed Space) (hook : Hook) :
    Keeps (Preimage Session.graph Reaches) (runHook execute spaces hook) := by
  cases hook with
  | script steps =>
      refine Keeps.forM (fun step => ?_) steps
      cases step with
      | perform operation => exact Keeps.bind (keeps operation) fun _ => Keeps.pure _
      | fail kind text => exact Keeps.throw _
      | needBatchRank socket =>
          simp only [followScript]
          split
          · exact Keeps.pure _
          · exact Keeps.throw _
  | explorationInputs => exact keeps_ask _

/-- An operation does to its graph what operations can do, also where it builds and hooks run. -/
theorem keeps_execute (fuel : Nat) (own : Option ComponentId) (operation : Operation) :
    Keeps (Preimage Session.graph Reaches) (execute fuel own operation) := by
  induction fuel generalizing own operation with
  | zero => exact Keeps.throw _
  | succ fuel inductionHypothesis =>
      cases operation with
      | create config => exact keeps_answering _ (Reaches.create config)
      | createFromText text =>
          exact Keeps.bind (keeps_readConfig _) fun config => keeps_answering _ (Reaches.create config)
      | exploration text actions =>
          exact Keeps.bind (keeps_readConfig _) fun config =>
            keeps_answering _ (Exploration.keeps_create config actions)
      | epsilon text =>
          exact Keeps.bind (keeps_readConfig _) fun config =>
            keeps_answering _ (EpsilonDecider.keeps_create config)
      | noise text =>
          exact Keeps.bind (keeps_readConfig _) fun config =>
            keeps_answering _ (NoiseSource.keeps_create config)
      | transpose scope => exact keeps_answering _ (Transposition.keeps_create scope)
      | socket id => exact Keeps.map _ (keeps_ask _)
      | computation id => exact Keeps.map _ (keeps_ask _)
      | collection name => exact Keeps.map _ (keeps_ask _)
      | snapshot => exact Keeps.map _ (keeps_ask _)
      | within ref action =>
          have acts (id : ComponentId) : Keeps (Preimage Session.graph Reaches)
              (act (Build.run (fun hook component spaces =>
                runHook (execute fuel (some component)) spaces hook) fuel) id action) :=
            keeps_act (fun id config session => Reaches.build _ fuel id config session
              fun hook component spaces given =>
                keeps_runHook (inductionHypothesis (some component)) spaces hook given) id action
          unfold execute
          cases ref with
          | id id => exact acts id
          | own =>
              cases own with
              | some own => exact acts own
              | none => exact Keeps.bind (Keeps.throw _) acts

end Execution

/-! ### Workspaces -/

namespace Workspace

/-- All graphs of a workspace have been made by operations. -/
def AllReachable (workspace : Workspace) : Prop :=
  ∀ session ∈ workspace.sessions, session.graph.Reachable

theorem allReachable_initial (backend : Backend) : AllReachable { backend := backend } := by
  intro session member
  obtain rfl := List.mem_singleton.mp (Array.mem_toList_iff.mpr member)
  exact Graph.reachable_empty backend

theorem session_reachable {workspace : Workspace} (all : workspace.AllReachable) :
    workspace.session.graph.Reachable := by
  unfold Workspace.session
  rw [Array.getD_eq_getD_getElem?]
  cases found : workspace.sessions[workspace.current]? with
  | none => exact Graph.reachable_empty _
  | some session => exact all session (Array.mem_of_getElem? found)

theorem onSession_reachable {α : Type} {workspace : Workspace} (all : workspace.AllReachable)
    {step : SessionM α} (keeps : Keeps (Preimage Session.graph Reaches) step) :
    (workspace.onSession step).2.AllReachable := by
  have stepped : (after step workspace.session).graph.Reachable :=
    (session_reachable all).reaches (keeps workspace.session)
  have allAfter : AllReachable { workspace with
      sessions := workspace.sessions.set! workspace.current (after step workspace.session) } := by
    intro session member
    rcases Array.mem_or_eq_of_mem_setIfInBounds member with old | rfl
    · exact all session old
    · exact stepped
  unfold onSession
  rw [run_eq]
  dsimp only
  split
  · exact allAfter
  · exact allAfter
  · exact allAfter

/-- Answers do not touch the graphs. -/
theorem answered_reachable {α : Type} {wrap : α → StepAnswer}
    {result : Option (Except Error α) × Workspace} (all : result.2.AllReachable)
    {answer : StepAnswer} {final : Workspace} (gave : answered wrap result = some (answer, final)) :
    final.AllReachable := by
  obtain ⟨answer, workspace⟩ := result
  rcases answer with _ | _ | value
  · cases gave
  · cases gave
    exact all
  · cases gave
    exact all

/-- Every step keeps all graphs reachable. -/
theorem perform_reachable {fuel : Nat} {workspace final : Workspace} {step : Step} {answer : StepAnswer}
    (all : workspace.AllReachable) (performed : perform fuel workspace step = some (answer, final)) :
    final.AllReachable := by
  cases step with
  | operation operation =>
      exact answered_reachable (onSession_reachable all (Execution.keeps_execute fuel none operation)) performed
  | blueprint id =>
      obtain ⟨⟨result, middle⟩, asked, performed⟩ := Option.bind_eq_some_iff.mp performed
      have middleAll := answered_reachable (onSession_reachable all (Execution.keeps_ask _)) asked
      cases result <;>
      · cases performed
        exact middleAll
  | instantiate position name scope =>
      unfold perform at performed
      cases found : workspace.blueprints[position]? with
      | none => simp [found] at performed
      | some blueprint =>
          simp only [found] at performed
          exact answered_reachable
            (onSession_reachable all (Session.keeps_ofGraph (Reaches.instantiate blueprint name scope))) performed
  | dumpBlueprint position =>
      obtain ⟨blueprint, -, same⟩ := Option.map_eq_some_iff.mp performed
      cases same
      exact all
  | useGraph position =>
      cases performed
      intro session member
      rcases Array.mem_append.mp member with old | new
      · exact all session old
      · obtain rfl := Array.eq_of_mem_replicate new
        exact Graph.reachable_empty _

end Workspace

end Wiring
