import Mathlib.Data.List.GetD
import Wiring.Exploration.Component
import Wiring.Proofs.Graph.Placed
import Wiring.Proofs.Graph.Atomic
import Wiring.Proofs.Transposition

/-!
Contract: ready-made components are made the same way in every graph.

Owns: that the methods of explorations, deciders and noise sources return corresponding ops on corresponding ops; that
what their constructors make in a graph is what they make on its own, behind that graph; what is known of an exploration
that was made; and when a constructor that fails has changed the graph.

Does not own: what a build of such a component does.
-/

namespace Wiring

/-! ### Methods -/

namespace Placement

variable {place : Placement}

theorem op_default : place.op default = default :=
  congrArg (DataOp.mk default) (place.scalar default rfl)

theorem space_getD (inputs : List DataOp) (position : Nat) :
    ((inputs.map place.op).getD position default).space = place.space (inputs.getD position default).space := by
  have mapped := List.getD_map (n := position) (l := inputs) (d := default) place.op
  rw [op_default] at mapped
  rw [mapped]
  rfl

theorem ids_map (inputs : List DataOp) : (inputs.map place.op).map DataOp.id = inputs.map DataOp.id := by
  rw [List.map_map]
  rfl

/-- Recording one op and returning it. -/
theorem echo_record {context contextToo : MethodContext}
    (owner : contextToo.component = place.component context.component) (label : String) (inputs : List OpId)
    {space spaceToo : Space} (spaces : spaceToo = place.space space) {recorder recorderToo : Recorder}
    (logs : recorderToo.log = place.log recorder.log) :
    Echo (fun made madeToo => madeToo.1 = made.1.map place.op ∧ madeToo.2.log = place.log made.2.log)
      ((do return [← context.record label inputs space] : Recording (List DataOp)) recorder)
      ((do return [← contextToo.record label inputs spaceToo] : Recording (List DataOp)) recorderToo) := by
  subst spaces
  refine .ok ⟨?_, ?_⟩
  · show [(⟨⟨recorderToo.log.size⟩, place.space space⟩ : DataOp)] = [⟨⟨recorder.log.size⟩, place.space space⟩]
    rw [logs]
    simp [OpLog.size, log]
  · show (recorderToo.log.push _).2 = place.log (recorder.log.push _).2
    rw [logs, owner]
    simp [OpLog.push, OpLog.size, log, record]

end Placement

section

variable (place : Placement)

theorem EpsilonDecider.carries_method : place.Carries method := by
  intro context contextToo owner inputs recorder recorderToo logs
  show Echo _ _ ((do return [← contextToo.record "epsilon_decisions" ((inputs.map place.op).map DataOp.id) _] :
    Recording (List DataOp)) recorderToo)
  rw [Placement.ids_map]
  exact Placement.echo_record owner _ _ (place.scalar _ rfl).symm logs

theorem NoiseSource.carries_method : place.Carries method := by
  intro context contextToo owner inputs recorder recorderToo logs
  exact Placement.echo_record owner _ _ (place.scalar _ rfl).symm logs

theorem Exploration.carries_combine (name : String) : place.Carries (combine name) := by
  intro context contextToo owner inputs recorder recorderToo logs
  show Echo _ _ ((do return [← contextToo.record name ((inputs.map place.op).map DataOp.id) _] :
    Recording (List DataOp)) recorderToo)
  rw [Placement.ids_map]
  exact Placement.echo_record owner _ _ (Placement.space_getD inputs 2) logs

theorem Exploration.carries_passThrough : place.Carries passThrough :=
  fun _ _ _ _ _ _ logs => .ok ⟨rfl, logs⟩

end

/-! ### Constructors -/

section

variable {place : Placement} {part whole : Graph} (holds : place.Holds part whole)
include holds

theorem EpsilonDecider.follows_create (config configToo : EpsilonConfig) :
    Follows place.Holds (fun made madeToo => madeToo.id = place.component made.id) (create config)
      (create configToo) part whole := by
  refine (Placement.follows_create holds rfl rfl rfl).bind fun id idToo same _ holds => ?_
  subst same
  refine (Placement.follows_defineInputs holds id _).bind fun _ _ _ _ holds => ?_
  refine (Placement.follows_defineOutputs holds id _).bind fun _ _ _ _ holds => ?_
  refine (Placement.follows_register holds id (carries_method place)).bind fun _ _ _ _ holds => ?_
  exact (Placement.follows_compute holds id _ _ _ rfl).bind fun _ _ _ _ holds => .pure holds rfl

/-- Two noises are made alike if both are refused or none. -/
theorem NoiseSource.follows_create {config configToo : NoiseConfig}
    (checks : Echo (Any Unit Unit) (checkConfig config) (checkConfig configToo)) :
    Follows place.Holds (fun made madeToo => madeToo.id = place.component made.id) (create config)
      (create configToo) part whole := by
  refine (Placement.follows_query holds checks).bind fun _ _ _ _ holds => ?_
  refine (Placement.follows_create holds rfl rfl rfl).bind fun id idToo same _ holds => ?_
  subst same
  refine (Placement.follows_defineOutputs holds id _).bind fun _ _ _ _ holds => ?_
  refine (Placement.follows_register holds id (carries_method place)).bind fun _ _ _ _ holds => ?_
  exact (Placement.follows_compute holds id _ _ _ rfl).bind fun _ _ _ _ holds => .pure holds rfl

end

/-- What an exploration does with actions. -/
inductive Strategy where
  | epsilon
  | noise
  | passThrough
deriving DecidableEq

def ExplorationMode.strategy : ExplorationMode → Strategy
  | .epsilon _ => .epsilon
  | .noise _ => .noise
  | .passThrough => .passThrough

namespace Exploration

/-- The component with its sockets and its hook, before anything depends on the mode. -/
def outline (scope : Option String) : GraphM ComponentId := do
  let id ← Graph.create { scope := scope.getD "exploration" }
  let _ ← Graph.defineInputs id ["actions"] none
  let _ ← Graph.defineOutputs id ["action"]
  Graph.setHook id .explorationInputs
  return id

/-- A schedule comes before noise. -/
def strategyOf (config : ExplorationConfig) : Strategy :=
  match config.epsilon, config.noise with
  | some _, _ => .epsilon
  | none, some _ => .noise
  | none, none => .passThrough

/-- What the mode needs. -/
def wire (id : ComponentId) (config : ExplorationConfig) : GraphM ExplorationMode :=
  match config.epsilon, config.noise with
  | some epsilon, _ => wireEpsilon id epsilon
  | none, some noise => wireNoise id noise
  | none, none => wirePassThrough id

/-- The first component of a graph wired for a strategy, with whatever numbers. -/
def wireFirst : Strategy → GraphM ExplorationMode
  | .epsilon => wireEpsilon ⟨0⟩ {}
  | .noise => wireNoise ⟨0⟩ (.constant 0)
  | .passThrough => wirePassThrough ⟨0⟩

theorem create_eq (config : ExplorationConfig) (actions : Space) : create config actions = do
    query fun _ => checkConfig config actions
    let id ← outline config.scope
    let mode ← wire id config
    return { id, mode, actions } := by
  unfold create outline wire
  cases config.epsilon with
  | some epsilon => simp only [bind_assoc, pure_bind]
  | none => cases config.noise <;> simp only [bind_assoc, pure_bind]

section

variable {place : Placement} {part whole : Graph} (holds : place.Holds part whole)
include holds

theorem follows_outline {scope scopeToo : Option String}
    (scopes : isScope (scopeToo.getD "exploration") = isScope (scope.getD "exploration")) :
    Follows place.Holds (fun id idToo => idToo = place.component id) (outline scope) (outline scopeToo) part whole := by
  refine (Placement.follows_create holds scopes (by rfl) (by rfl)).bind fun id idToo same _ holds => ?_
  subst same
  refine (Placement.follows_defineInputs holds id _).bind fun _ _ _ _ holds => ?_
  refine (Placement.follows_defineOutputs holds id _).bind fun _ _ _ _ holds => ?_
  exact (Placement.follows_setHook holds id).bind fun _ _ _ _ holds => .pure holds rfl

theorem follows_wirePassThrough (id : ComponentId) :
    Follows place.Holds (fun _ mode => mode.strategy = .passThrough) (wirePassThrough id)
      (wirePassThrough (place.component id)) part whole := by
  refine (Placement.follows_register holds id (carries_passThrough place)).bind fun _ _ _ _ holds => ?_
  exact (Placement.follows_compute holds id _ _ _ rfl).bind fun _ _ _ _ holds => .pure holds rfl

end

/-- The outline of an exploration on its own. -/
@[irreducible] def outlined : Graph :=
  after (outline none) {}

section

variable {place : Placement} {whole : Graph} (holds : place.Holds outlined whole)
include holds

theorem follows_wireEpsilon (config : EpsilonConfig) :
    Follows place.Holds (fun _ mode => mode.strategy = .epsilon) (wireEpsilon ⟨0⟩ {})
      (wireEpsilon (place.component ⟨0⟩) config) outlined whole := by
  refine (EpsilonDecider.follows_create holds {} config).bind fun decider deciderToo same created holds => ?_
  have made : decider.id = ⟨1⟩ := by
    have ids : (outcome (EpsilonDecider.create {}) outlined).toOption.map EpsilonDecider.id = some ⟨1⟩ := by
      decide +kernel
    rw [created] at ids
    exact Option.some.inj ids
  rw [same, made]
  have adopts : (after (EpsilonDecider.create {}) outlined).adopts ⟨0⟩ ⟨1⟩ = true := by decide +kernel
  refine (Placement.follows_add holds adopts).bind fun _ _ _ _ holds => ?_
  refine (Placement.follows_defineInputs holds ⟨0⟩ _).bind fun _ _ _ _ holds => ?_
  refine (Placement.follows_connect holds ⟨0⟩ (.socket (.named _)) (.socket (.foreign ⟨1⟩ _))).bind
    fun _ _ _ _ holds => ?_
  refine (Placement.follows_connect holds ⟨0⟩ (.socket (.named _)) (.socket (.foreign ⟨1⟩ _))).bind
    fun _ _ _ _ holds => ?_
  refine (Placement.follows_ensureInternal holds ⟨0⟩ _).bind fun _ _ _ _ holds => ?_
  refine (Placement.follows_connect holds ⟨0⟩ (.socket (.foreign ⟨1⟩ _)) (.socket (.named _))).bind
    fun _ _ _ _ holds => ?_
  refine (Placement.follows_register holds ⟨0⟩ (carries_combine place "pick")).bind fun _ _ _ _ holds => ?_
  exact (Placement.follows_compute holds ⟨0⟩ _ _ _ rfl).bind fun _ _ _ _ holds => .pure holds rfl

/-- The noise must be one that is not refused. -/
theorem follows_wireNoise {config : NoiseConfig} (accepted : NoiseSource.checkConfig config = .ok ⟨⟩) :
    Follows place.Holds (fun _ mode => mode.strategy = .noise) (wireNoise ⟨0⟩ (.constant 0))
      (wireNoise (place.component ⟨0⟩) config) outlined whole := by
  have checks : Echo (Any Unit Unit) (NoiseSource.checkConfig (.constant 0)) (NoiseSource.checkConfig config) := by
    rw [accepted]
    exact .ok trivial
  refine (NoiseSource.follows_create holds checks).bind fun source sourceToo same created holds => ?_
  have made : source.id = ⟨1⟩ := by
    have ids : (outcome (NoiseSource.create (.constant 0)) outlined).toOption.map NoiseSource.id = some ⟨1⟩ := by
      decide +kernel
    rw [created] at ids
    exact Option.some.inj ids
  rw [same, made]
  have adopts : (after (NoiseSource.create (.constant 0)) outlined).adopts ⟨0⟩ ⟨1⟩ = true := by decide +kernel
  refine (Placement.follows_add holds adopts).bind fun _ _ _ _ holds => ?_
  refine (Placement.follows_defineInputs holds ⟨0⟩ _).bind fun _ _ _ _ holds => ?_
  refine (Placement.follows_ensureInternal holds ⟨0⟩ _).bind fun _ _ _ _ holds => ?_
  refine (Placement.follows_connect holds ⟨0⟩ (.socket (.foreign ⟨1⟩ _)) (.socket (.named _))).bind
    fun _ _ _ _ holds => ?_
  refine (Placement.follows_register holds ⟨0⟩ (carries_combine place "add_noise")).bind fun _ _ _ _ holds => ?_
  exact (Placement.follows_compute holds ⟨0⟩ _ _ _ rfl).bind fun _ _ _ _ holds => .pure holds rfl

end

/-- The noise that is used, if any, is one that is not refused. -/
def SoundNoise (config : ExplorationConfig) : Prop :=
  config.epsilon = none → ∀ noise, config.noise = some noise → NoiseSource.checkConfig noise = .ok ⟨⟩

theorem follows_wire {place : Placement} {whole : Graph} (holds : place.Holds outlined whole)
    {config : ExplorationConfig} (sound : SoundNoise config) :
    Follows place.Holds (fun _ mode => mode.strategy = strategyOf config) (wireFirst (strategyOf config))
      (wire (place.component ⟨0⟩) config) outlined whole := by
  obtain ⟨scope, epsilon, noise⟩ := config
  cases epsilon with
  | some epsilon => exact follows_wireEpsilon holds epsilon
  | none =>
      cases noise with
      | some noise => exact follows_wireNoise holds (sound rfl noise rfl)
      | none => exact follows_wirePassThrough holds ⟨0⟩

theorem wire_strategy (strategy : Strategy) : (outcome (wireFirst strategy) outlined).isOk = true := by
  cases strategy <;> decide +kernel

/-! ### Failures -/

/-- The outline can be made in every graph, behind what is there, if the scope is one. -/
theorem run_outline {scope : Option String} (allowed : isScope (scope.getD "exploration") = true) (place : Placement) :
    outcome (outline scope) place.base = .ok (place.component ⟨0⟩) ∧
      place.Holds outlined (after (outline scope) place.base) := by
  have default : isScope ((none : Option String).getD "exploration") = true := by decide +kernel
  have follows := follows_outline (Placement.Holds.start place) (allowed.trans default.symm)
  have made : (outcome (outline none) {}).toOption = some ⟨0⟩ := by decide +kernel
  have succeeds : (outcome (outline none) {}).isOk = true := by decide +kernel
  rcases follows.of_isOk succeeds with ⟨id, idToo, answered, answeredToo, same⟩
  rw [answered] at made
  obtain rfl := Option.some.inj made
  refine ⟨?_, ?_⟩
  · rw [answeredToo, same]
  · unfold outlined
    exact follows.leaves

theorem run_outline_behind {scope : Option String} (allowed : isScope (scope.getD "exploration") = true)
    (graph : Graph) :
    (outline scope).run graph = (.ok ((Placement.behind graph).component ⟨0⟩), after (outline scope) graph) ∧
      (Placement.behind graph).Holds outlined (after (outline scope) graph) :=
  ⟨run_of_outcome (run_outline allowed (.behind graph)).1, (run_outline allowed (.behind graph)).2⟩

theorem outline_refused {scope : Option String} (refused : ¬isScope (scope.getD "exploration") = true) (graph : Graph) :
    (outline scope).run graph = (.error (.scopeFormat (scope.getD "exploration")), graph) := by
  have created : (Graph.create { scope := scope.getD "exploration" }).run graph =
      (.error (.scopeFormat (scope.getD "exploration")), graph) := by
    unfold Graph.create
    rw [if_neg refused]
    rfl
  exact run_bind_error created _

/-- The configuration is accepted and its scope is one, but the noise that is to be used is refused. -/
structure RefusedLate (config : ExplorationConfig) (actions : Space) : Prop where
  accepted : checkConfig config actions = .ok ⟨⟩
  allowed : isScope (config.scope.getD "exploration") = true
  refused : ¬SoundNoise config

theorem exists_of_not_soundNoise {config : ExplorationConfig} (refused : ¬SoundNoise config) :
    config.epsilon = none ∧ ∃ mean deviation, config.noise = some (.gaussian mean deviation) ∧ ¬deviation ≥ 0.0 := by
  obtain ⟨scope, epsilon, noise⟩ := config
  cases epsilon with
  | some epsilon => exact absurd (fun none => nomatch none) refused
  | none =>
      refine ⟨rfl, ?_⟩
      rcases noise with _ | value | ⟨mean, deviation⟩
      · exact absurd (fun _ _ none => nomatch none) refused
      · refine absurd (fun _ noise same => ?_) refused
        rw [← Option.some.inj same]
        rfl
      · refine ⟨mean, deviation, rfl, fun positive => refused fun _ noise same => ?_⟩
        rw [← Option.some.inj same]
        exact if_pos positive

/-- The one way in which an exploration fails after something was made. -/
theorem run_refusedLate {config : ExplorationConfig} {actions : Space} (late : RefusedLate config actions)
    (graph : Graph) : ∃ mean deviation, config.noise = some (.gaussian mean deviation) ∧
      (create config actions).run graph =
        (.error (.negativeDeviation deviation), after (outline config.scope) graph) := by
  rcases late with ⟨accepted, allowed, refused⟩
  rcases exists_of_not_soundNoise refused with ⟨unscheduled, mean, deviation, chosen, negative⟩
  have outlined := (run_outline_behind allowed graph).1
  have refused : NoiseSource.checkConfig (.gaussian mean deviation) = .error (.negativeDeviation deviation) :=
    if_neg negative
  refine ⟨mean, deviation, chosen, ?_⟩
  rw [create_eq, run_query_bind accepted, run_bind_ok outlined]
  refine run_bind_error ?_ _
  unfold wire
  rw [unscheduled, chosen]
  refine run_bind_error ?_ _
  exact run_query_bind_error refused _

/-- An exploration whose noise is not refused is made if its configuration is accepted and its scope is one. -/
theorem run_create {config : ExplorationConfig} {actions : Space} (accepted : checkConfig config actions = .ok ⟨⟩)
    (allowed : isScope (config.scope.getD "exploration") = true) (sound : SoundNoise config) (graph : Graph) :
    ∃ exploration, outcome (create config actions) graph = .ok exploration := by
  rcases run_outline_behind allowed graph with ⟨made, holds⟩
  rcases (follows_wire holds sound).of_isOk (wire_strategy _) with ⟨_, mode, -, wired, -⟩
  rw [create_eq, outcome, run_query_bind accepted, run_bind_ok made, run_bind_ok (run_of_outcome wired)]
  exact ⟨_, rfl⟩

/-- What is made was not refused. -/
theorem accepted_of_create {config : ExplorationConfig} {actions : Space} {graph made : Graph}
    {exploration : Exploration} (created : (create config actions).run graph = (.ok exploration, made)) :
    checkConfig config actions = .ok ⟨⟩ ∧ isScope (config.scope.getD "exploration") = true ∧ SoundNoise config := by
  have accepted : checkConfig config actions = .ok ⟨⟩ := by
    cases checked : checkConfig config actions with
    | ok => rfl
    | error error =>
        rw [create_eq, run_query_bind_error checked] at created
        cases congrArg Prod.fst created
  have allowed : isScope (config.scope.getD "exploration") = true := by
    by_contra refused
    rw [create_eq, run_query_bind accepted, run_bind_error (outline_refused refused graph)] at created
    cases congrArg Prod.fst created
  refine ⟨accepted, allowed, ?_⟩
  by_contra refused
  rcases run_refusedLate ⟨accepted, allowed, refused⟩ graph with ⟨_, deviation, -, ran⟩
  cases congrArg Prod.fst (ran.symm.trans created)

theorem strategy_of_create {config : ExplorationConfig} {actions : Space} {graph made : Graph}
    {exploration : Exploration} (created : (create config actions).run graph = (.ok exploration, made)) :
    exploration.mode.strategy = strategyOf config ∧ exploration.actions = actions := by
  rcases accepted_of_create created with ⟨accepted, allowed, sound⟩
  rcases run_outline_behind allowed graph with ⟨outlines, holds⟩
  rcases (follows_wire holds sound).of_isOk (wire_strategy _) with ⟨_, mode, -, wires, chosen⟩
  rw [create_eq, run_query_bind accepted, run_bind_ok outlines, run_bind_ok (run_of_outcome wires)] at created
  obtain rfl := Except.ok.inj (congrArg Prod.fst created)
  exact ⟨chosen, rfl⟩

theorem create_unchanged {config : ExplorationConfig} {actions : Space} (early : ¬RefusedLate config actions)
    (graph : Graph) : Atomic (create config actions) graph := by
  cases accepted : checkConfig config actions with
  | error error =>
      rw [create_eq]
      exact .of_unchanged (run_query_bind_error accepted _)
  | ok =>
      by_cases allowed : isScope (config.scope.getD "exploration") = true
      · have sound : SoundNoise config := by
          by_contra refused
          exact early ⟨accepted, allowed, refused⟩
        rcases run_create accepted allowed sound graph with ⟨exploration, made⟩
        exact .of_ok (run_of_outcome made)
      · rw [create_eq]
        exact .of_unchanged ((run_query_bind accepted _).trans (run_bind_error (outline_refused allowed graph) _))

/-- Everything is as before, and behind it stands one component with two sockets. -/
structure Remnant (graph later : Graph) : Prop where
  components : later.components.size = graph.components.size + 1
  sockets : later.sockets.size = graph.sockets.size + 2
  computations : later.computations = graph.computations
  backend : later.backend = graph.backend
  known : ∀ i, i < graph.components.size → later.components[i]? = graph.components[i]?
  knownSocket : ∀ i, i < graph.sockets.size → later.sockets[i]? = graph.sockets[i]?

theorem remnant_outline {scope : Option String} (allowed : isScope (scope.getD "exploration") = true) (graph : Graph) :
    Remnant graph (after (outline scope) graph) := by
  have holds := (run_outline_behind allowed graph).2
  have sizes : outlined.components.size = 1 ∧ outlined.sockets.size = 2 ∧ outlined.computations.size = 0 := by
    decide +kernel
  have same : (after (outline scope) graph).computations.size = graph.computations.size := by
    rw [holds.computations.size, sizes.2.2]
    rfl
  constructor
  case components => exact holds.components.size.trans (congrArg _ sizes.1)
  case sockets => exact holds.sockets.size.trans (congrArg _ sizes.2.1)
  case computations =>
    refine Array.ext same fun i bound boundToo => ?_
    have kept : (after (outline scope) graph).computations[i]? = graph.computations[i]? :=
      holds.computations.kept i boundToo
    rw [Array.getElem?_eq_getElem bound, Array.getElem?_eq_getElem boundToo] at kept
    exact Option.some.inj kept
  case backend => exact holds.backend
  case known => exact holds.components.kept
  case knownSocket => exact holds.sockets.kept

end Exploration

theorem EpsilonDecider.create_unchanged (config : EpsilonConfig) (graph : Graph) : Atomic (create config) graph := by
  have succeeds : (outcome (create {}) {}).isOk = true := by decide +kernel
  have follows := follows_create (Placement.holds_behind graph) {} config
  rcases follows.of_isOk succeeds with ⟨_, decider, -, made, -⟩
  exact .of_ok (run_of_outcome made)

theorem NoiseSource.create_unchanged (config : NoiseConfig) (graph : Graph) : Atomic (create config) graph := by
  cases accepted : checkConfig config with
  | error error => exact .of_unchanged (run_query_bind_error accepted _)
  | ok =>
      have checks : Echo (Any Unit Unit) (checkConfig (.constant 0)) (checkConfig config) := by
        rw [accepted]
        exact .ok trivial
      have follows := follows_create (Placement.holds_behind graph) checks
      rcases follows.of_isOk (by decide +kernel) with ⟨_, source, -, made, -⟩
      exact .of_ok (run_of_outcome made)

theorem Transposition.create_unchanged (scope : Option String) (graph : Graph) : Atomic (create scope) graph := by
  by_cases allowed : isScope (scope.getD "transpose") = true
  · exact .of_ok (run_create allowed)
  · have refused : (Graph.create { scope := scope.getD "transpose", settings }).run graph =
        (.error (.scopeFormat (scope.getD "transpose")), graph) := by
      unfold Graph.create
      rw [if_neg allowed]
      rfl
    exact .of_unchanged (run_bind_error refused _)

namespace Exploration

/-- A constructor that fails has changed nothing, but for one case: an exploration whose noise is refused only after
its component was made leaves that component behind, with its two sockets and nothing else. -/
theorem constructors_unchanged (graph : Graph) :
    (∀ config, Atomic (EpsilonDecider.create config) graph) ∧ (∀ config, Atomic (NoiseSource.create config) graph) ∧
    (∀ scope, Atomic (Transposition.create scope) graph) ∧
    ∀ config actions error, outcome (create config actions) graph = .error error →
      (after (create config actions) graph = graph ↔ ¬RefusedLate config actions) ∧
      (RefusedLate config actions →
        (∃ mean deviation, config.noise = some (.gaussian mean deviation) ∧ error = .negativeDeviation deviation) ∧
        Remnant graph (after (create config actions) graph)) := by
  refine ⟨fun config => EpsilonDecider.create_unchanged config graph,
    fun config => NoiseSource.create_unchanged config graph,
    fun scope => Transposition.create_unchanged scope graph, fun config actions error failed => ?_⟩
  have remains (late : RefusedLate config actions) :
      (∃ mean deviation, config.noise = some (.gaussian mean deviation) ∧ error = .negativeDeviation deviation) ∧
      Remnant graph (after (create config actions) graph) := by
    rcases run_refusedLate late graph with ⟨mean, deviation, chosen, ran⟩
    rw [outcome_of_run ran] at failed
    rw [after_of_run ran]
    exact ⟨⟨mean, deviation, chosen, (Except.error.inj failed).symm⟩, remnant_outline late.allowed graph⟩
  refine ⟨⟨fun unchanged late => ?_, fun early => create_unchanged early graph error failed⟩, remains⟩
  have more := (remains late).2.components
  rw [unchanged] at more
  omega

/-- Noise with a negative deviation. -/
def negative : ExplorationConfig where
  noise := some (.gaussian 0.0 (-1.0))

theorem refusedLate_negative : RefusedLate negative (.box {}) where
  accepted := rfl
  allowed := by decide +kernel
  refused sound := by
    have refused : (NoiseSource.checkConfig (.gaussian 0.0 (-1.0))).isOk = false := by decide +kernel
    rw [sound rfl (.gaussian 0.0 (-1.0)) rfl] at refused
    cases refused

theorem create_negative (graph : Graph) :
    outcome (create negative (.box {})) graph = .error (.negativeDeviation (-1.0)) := by
  rcases run_refusedLate refusedLate_negative graph with ⟨mean, deviation, chosen, ran⟩
  obtain ⟨rfl, rfl⟩ := NoiseConfig.gaussian.inj (Option.some.inj chosen)
  exact outcome_of_run ran

/-- An exploration with such noise leaves a component in a graph that has two already. -/
theorem constructors_unchanged_negative : RefusedLate negative (.box {}) ∧
    outcome (create negative (.box {})) (after Graph.doubled {}) = .error (.negativeDeviation (-1.0)) ∧
      Remnant (after Graph.doubled {}) (after (create negative (.box {})) (after Graph.doubled {})) :=
  ⟨refusedLate_negative, create_negative _,
    (((constructors_unchanged _).2.2.2 _ _ _ (create_negative _)).2 refusedLate_negative).2⟩

/-- The failing constructor has changed a graph made by operations. -/
theorem create_leaves_component : (after Graph.doubled {}).Reachable ∧
    outcome (create negative (.box {})) (after Graph.doubled {}) = .error (.negativeDeviation (-1.0)) ∧
      (after (create negative (.box {})) (after Graph.doubled {})).components.size = 3 ∧
      after (create negative (.box {})) (after Graph.doubled {}) ≠ after Graph.doubled {} := by
  have sizes : (after Graph.doubled {}).components.size = 2 := by decide +kernel
  have sizesAfter : (after (create negative (.box {})) (after Graph.doubled {})).components.size = 3 := by
    decide +kernel
  refine ⟨Graph.reachable_doubled, create_negative _, sizesAfter, fun unchanged => ?_⟩
  rw [unchanged, sizes] at sizesAfter
  omega

end Exploration
end Wiring
