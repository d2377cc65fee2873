import Wiring.Exploration.Config
import Wiring.Graph.Computations
import Wiring.Graph.Links
import Wiring.WordStream

/-!
Contract: noise, as a component without inputs and as values that are added to actions.
-/

namespace Wiring

structure NoiseSource where
  id : ComponentId
  config : NoiseConfig

namespace NoiseSource

/-- Records one scalar op. -/
def method : Method where
  name := "get_noise"
  inputs := 0
  outputs := 1
  run := fun context _ => do
    let op ← context.record "noise" [] (.floatBox [])
    return [op]

/-- A deviation must not be negative, and it must be a number. -/
def checkConfig : NoiseConfig → Except Error Unit
  | .gaussian _ deviation =>
      if deviation ≥ 0.0 then .ok () else .error (.negativeDeviation deviation)
  | .constant _ => .ok ()

/-- Creates the component with its out-socket. -/
def create (config : NoiseConfig) : GraphM NoiseSource := do
  query fun _ => checkConfig config
  let id ← Graph.create { scope := "noise" }
  let _ ← Graph.defineOutputs id ["noise"]
  Graph.register id method
  let _ ← Graph.compute id [] ["noise"] none {}
  return { id, config }

/-- One value of noise; a normal one takes words of the stream. -/
def sample (source : NoiseSource) (stream : WordStream) : Except Error (Float × WordStream) :=
  match source.config with
  | .constant value => .ok (value, stream)
  | .gaussian mean deviation =>
      if deviation.isFinite then
        let (normal, stream) := stream.normal
        .ok (mean + deviation * normal, stream)
      else .error .infiniteDeviation

/-- One value for each element, in order. -/
def samples (source : NoiseSource) : Nat → WordStream → Except Error (List Float × WordStream)
  | 0, stream => .ok ([], stream)
  | count + 1, stream => do
      let (value, stream) ← source.sample stream
      let (values, stream) ← source.samples count stream
      return (value :: values, stream)

/-- The actions with a value of noise added to each of their elements. -/
def addTo (source : NoiseSource) (stream : WordStream) (actions : Tensor Float32) :
    Except Error (Tensor Float32 × WordStream) := do
  let (values, stream) ← source.samples (volume actions.shape) stream
  let noise := values.toArray
  let noisy := Tensor.generate actions.shape fun position =>
    actions.flatAt position + (noise.getD position 0.0).toFloat32
  return (noisy, stream)

end NoiseSource

end Wiring
