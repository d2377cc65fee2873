import Wiring.Exploration.Config
import Wiring.Graph.Computations
import Wiring.Graph.Links
import Wiring.WordStream

/-!
Contract: decisions to act at random, with a probability that a schedule gives for each time step.
-/

namespace Wiring

structure EpsilonDecider where
  id : ComponentId
  schedule : Schedule

namespace EpsilonDecider

/-- Records one decision for each item of a batch. -/
def method : Method where
  name := "do_explore"
  inputs := 2
  outputs := 1
  run := fun context inputs => do
    let decisions := Space.withBatchRank (.boolBox [])
    let op ← context.record "epsilon_decisions" (inputs.map DataOp.id) decisions
    return [op]

/-- Creates the component with its two in-sockets and its out-socket. -/
def create (config : EpsilonConfig) : GraphM EpsilonDecider := do
  let id ← Graph.create { scope := "epsilon-exploration" }
  let _ ← Graph.defineInputs id ["actions", "time_step"] none
  let _ ← Graph.defineOutputs id ["do_explore"]
  Graph.register id method
  let _ ← Graph.compute id ["actions", "time_step"] ["do_explore"] none { flattenOps := some false }
  return { id, schedule := config.decay }

/-- The probability of acting at random at a time step. -/
def epsilon (decider : EpsilonDecider) (time : Nat) : Float :=
  decider.schedule.value time

/-- One decision for each item, each from one unit draw. -/
def decide (decider : EpsilonDecider) (time : Nat) : Nat → WordStream → List Bool × WordStream
  | 0, stream => ([], stream)
  | count + 1, stream =>
      let (draw, stream) := stream.unit
      let (decisions, stream) := decider.decide time count stream
      ((draw < decider.epsilon time) :: decisions, stream)

end EpsilonDecider

end Wiring
