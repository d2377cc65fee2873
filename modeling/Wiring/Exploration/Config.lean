import Wiring.Schedule
import Wiring.Space.Codec

/-!
Contract: the configuration of explorations, with its JSON form.

An exploration acts at random as a schedule says, adds noise, or does neither. A nested part is read only if
all of it can be read and it is not nested too deep, counted from the start of the text.
-/

namespace Wiring

/-- How often an exploration acts at random. -/
structure EpsilonConfig where
  decay : Schedule := .standard
deriving Inhabited

inductive NoiseConfig where
  /-- The same value at every step. -/
  | constant (value : Float)
  /-- Independent normal samples. -/
  | gaussian (mean deviation : Float)
deriving Inhabited

structure ExplorationConfig where
  scope : Option String := none
  epsilon : Option EpsilonConfig := none
  noise : Option NoiseConfig := none
deriving Inhabited

/-- Reads a document that must be readable throughout, found inside `outer` containers of the text. -/
def readInside (outer : Nat) (decode : Json → Option α) (json : Json) : Option α :=
  if json.readableWithin (Json.nestingLimit - outer) then decode json else none

namespace EpsilonConfig

def ofJson? (outer : Nat) (json : Json) : Option EpsilonConfig := do
  match ← Json.fields? ["decay"] json with
  | [decay] => return { decay := ← Json.fieldOr .standard (readInside (outer + 1) Schedule.ofJson?) decay }
  | _ => none

def toJson (config : EpsilonConfig) : Json :=
  .object [("decay", config.decay.toJson)]

end EpsilonConfig

namespace NoiseConfig

def ofJson? (json : Json) : Option NoiseConfig := do
  let (kind, rest) ← Json.tagged? false ["constant", "gaussian"] json
  let number := Json.required Json.asFloat?
  if kind = 0 then
    match ← Json.fields? ["value"] rest with
    | [value] => return .constant (← number value)
    | _ => none
  else
    match ← Json.fields? ["mean", "sd"] rest with
    | [mean, deviation] => return .gaussian (← number mean) (← number deviation)
    | _ => none

def toJson : NoiseConfig → Json
  | .constant value => .object [("type", .string "constant"), ("value", .ofFloat value)]
  | .gaussian mean deviation =>
      .object [("type", .string "gaussian"), ("mean", .ofFloat mean), ("sd", .ofFloat deviation)]

end NoiseConfig

namespace ExplorationConfig

def ofJson? (json : Json) : Option ExplorationConfig := do
  match ← Json.fields? ["scope", "epsilon", "noise"] json with
  | [scope, epsilon, noise] =>
      return {
        scope := ← Json.fieldOr none (Json.asOption? Json.asString?) scope
        epsilon := ← Json.fieldOr none (Json.asOption? (EpsilonConfig.ofJson? 1)) epsilon
        noise := ← Json.fieldOr none (Json.asOption? (readInside 1 NoiseConfig.ofJson?)) noise }
  | _ => none

def parse? (text : String) : Option ExplorationConfig :=
  (Json.parse? text).bind ofJson?

def toJson (config : ExplorationConfig) : Json :=
  .object
    [("scope", .ofOption .string config.scope),
      ("epsilon", .ofOption EpsilonConfig.toJson config.epsilon),
      ("noise", .ofOption NoiseConfig.toJson config.noise)]

end ExplorationConfig

end Wiring
