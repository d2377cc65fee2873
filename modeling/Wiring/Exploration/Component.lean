import Wiring.Exploration.Epsilon
import Wiring.Exploration.Noise
import Wiring.Graph.Composition

/-!
Contract: the exploration component, which stands between the actions of a policy and the world.

It has the in-socket `actions` and the out-socket `action`. With a schedule it replaces some actions by random
ones, with noise it changes all of them, and otherwise it passes them through. The first two can be switched
off by the in-socket `use_exploration`. A configuration is checked against the action space before anything
is created.
-/

namespace Wiring

inductive ExplorationMode where
  | epsilon (decider : EpsilonDecider)
  | noise (source : NoiseSource)
  | passThrough

structure Exploration where
  id : ComponentId
  mode : ExplorationMode
  /-- The space of a single action. -/
  actions : Space

namespace Exploration

/-- Records an op with the space of the last of its three inputs. -/
def combine (name : String) : Method where
  name := name
  inputs := 3
  outputs := 1
  run := fun context inputs => do
    let space := (inputs.getD 2 default).space
    let op ← context.record name (inputs.map DataOp.id) space
    return [op]

def passThrough : Method where
  name := "pass_through"
  inputs := 1
  outputs := 1
  run := fun _ inputs => return inputs

/-- Random actions need categories to choose from, noise needs floats to change. -/
def checkActions (config : ExplorationConfig) (actions : Space) : Except Error Unit :=
  if config.epsilon.isSome then
    if actions.asBox?.any fun leaf => leaf.element = .int && leaf.categories.any fun n => 1 ≤ n then .ok ()
    else .error (.epsilonActionSpace actions)
  else if config.noise.isSome then
    if actions.isBoxOf .float then .ok () else .error (.noiseActionSpace actions)
  else .ok ()

def checkConfig (config : ExplorationConfig) (actions : Space) : Except Error Unit := do
  if config.epsilon.isSome && config.noise.isSome then
    throw .bothStrategies
  checkActions config actions

/-- What the hook of the component requires of the spaces of its in-sockets. -/
def checkInputs (spaces : Keyed Space) : Except Error Unit := do
  match Keyed.get? spaces "use_exploration" with
  | some switch => if !switch.isBoxOf .bool then throw (.switchNotBool switch)
  | none => pure ()
  match Keyed.get? spaces "actions" with
  | some actions => if !actions.hasBatchRank then throw (.actionsWithoutBatchRank actions)
  | none => pure ()

def own (name : String) : Endpoint :=
  .socket (.named name)

def inner (component : ComponentId) (name : String) : Endpoint :=
  .socket (.foreign component name)

def wireEpsilon (id : ComponentId) (config : EpsilonConfig) : GraphM ExplorationMode := do
  let decider ← EpsilonDecider.create config
  Graph.add id decider.id .nothing
  let _ ← Graph.defineInputs id ["time_step", "use_exploration"] none
  Graph.connect id (own "actions") (inner decider.id "actions")
  Graph.connect id (own "time_step") (inner decider.id "time_step")
  let _ ← Graph.ensureInternal id "epsilon_decisions"
  Graph.connect id (inner decider.id "do_explore") (own "epsilon_decisions")
  Graph.register id (combine "pick")
  let _ ← Graph.compute id ["use_exploration", "epsilon_decisions", "actions"] ["action"] (some "pick")
    { flattenOps := some false }
  return .epsilon decider

def wireNoise (id : ComponentId) (config : NoiseConfig) : GraphM ExplorationMode := do
  let source ← NoiseSource.create config
  Graph.add id source.id .nothing
  let _ ← Graph.defineInputs id ["use_exploration"] none
  let _ ← Graph.ensureInternal id "noise"
  Graph.connect id (inner source.id "noise") (own "noise")
  Graph.register id (combine "add_noise")
  let _ ← Graph.compute id ["use_exploration", "noise", "actions"] ["action"] (some "add_noise") {}
  return .noise source

def wirePassThrough (id : ComponentId) : GraphM ExplorationMode := do
  Graph.register id passThrough
  let _ ← Graph.compute id ["actions"] ["action"] none {}
  return .passThrough

/-- Creates the component and the one below it that its mode needs. -/
def create (config : ExplorationConfig) (actions : Space) : GraphM Exploration := do
  query fun _ => checkConfig config actions
  let id ← Graph.create { scope := config.scope.getD "exploration" }
  let _ ← Graph.defineInputs id ["actions"] none
  let _ ← Graph.defineOutputs id ["action"]
  Graph.setHook id .explorationInputs
  let mode ← match config.epsilon, config.noise with
    | some epsilon, _ => wireEpsilon id epsilon
    | none, some noise => wireNoise id noise
    | none, none => wirePassThrough id
  return { id, mode, actions }

/-! ### Acting -/

/-- The number of actions to choose from. -/
def categories (exploration : Exploration) : Nat :=
  ((exploration.actions.asBox?.bind Box.categories).getD 1)

/-- Random actions for the items that explore, in order. -/
def replaceExplored (bound fuel : Nat) :
    List (Bool × Int) → WordStream → Option (List Int × WordStream)
  | [], stream => some ([], stream)
  | (false, sample) :: rest, stream => do
      let (picked, stream) ← replaceExplored bound fuel rest stream
      return (sample :: picked, stream)
  | (true, _) :: rest, stream => do
      let (action, stream) ← stream.below? bound fuel
      let (picked, stream) ← replaceExplored bound fuel rest stream
      return ((action : Int) :: picked, stream)

/-- Replaces samples by random actions where the schedule says so. All decisions are drawn before the first
action. The fuel bounds the rejected words of one action; there is no answer if it is used up. -/
def pick (exploration : Exploration) (fuel : Nat) (stream : WordStream) (time : Nat) (samples : List Int)
    (useExploration : Bool) : Option (List Int × WordStream) :=
  match exploration.mode with
  | .epsilon decider =>
      if useExploration then
        let (decisions, stream) := decider.decide time samples.length stream
        replaceExplored exploration.categories fuel (decisions.zip samples) stream
      else some (samples, stream)
  | _ => some (samples, stream)

/-- The actions, with noise where the mode is noise and it is switched on. -/
def addNoise (exploration : Exploration) (stream : WordStream) (actions : Tensor Float32)
    (useExploration : Bool) : Except Error (Tensor Float32 × WordStream) :=
  match exploration.mode with
  | .noise source => if useExploration then source.addTo stream actions else .ok (actions, stream)
  | _ => .ok (actions, stream)

end Exploration

end Wiring
