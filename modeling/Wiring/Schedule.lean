import Wiring.Json.Reader
import Wiring.Json.Record
import Wiring.Json.Value

/-!
Contract: schedules, parameters that change over time steps.

A linear schedule goes straight from its first to its last value over a number of steps. An exponential one
halves every half life and never falls below its last value.
-/

namespace Wiring

inductive Schedule where
  | constant (value : Float)
  | linear (first last : Float) (startStep steps : Nat)
  | exponential (first last halfLife : Float)
deriving Inhabited

namespace Schedule

/-- What an exploration uses unless it is told otherwise. -/
def standard : Schedule :=
  .linear 1.0 0.1 0 10000

def count (n : Nat) : Float :=
  n.toUInt64.toFloat

/-- The larger of two numbers; a number wins over no number. -/
def larger (a b : Float) : Float :=
  if a.isNaN then b else if b.isNaN then a else if a < b then b else a

/-- The value at a time step. -/
def value (schedule : Schedule) (time : Nat) : Float :=
  match schedule with
  | .constant value => value
  | .linear first last startStep steps =>
      let elapsed := time - startStep
      if steps ≤ elapsed then last else first + (last - first) * (count elapsed / count steps)
  | .exponential first last halfLife => larger (first * Float.pow 0.5 (count time / halfLife)) last

/-! ### JSON -/

def kinds : List String :=
  ["constant", "linear", "exponential"]

/-- A schedule from a document in which every part can be read. -/
def ofJson? (json : Json) : Option Schedule := do
  let (kind, rest) ← Json.tagged? false kinds json
  let number := Json.required Json.asFloat?
  if kind = 0 then
    match ← Json.fields? ["value"] rest with
    | [value] => return .constant (← number value)
    | _ => none
  else if kind = 1 then
    match ← Json.fields? ["from", "to", "start_timestep", "num_timesteps"] rest with
    | [first, last, startStep, steps] =>
        return .linear (← number first) (← number last) (← Json.fieldOr 0 Json.asNat? startStep)
          (← Json.required Json.asNat? steps)
    | _ => none
  else
    match ← Json.fields? ["from", "to", "half_life"] rest with
    | [first, last, halfLife] => return .exponential (← number first) (← number last) (← number halfLife)
    | _ => none

def toJson : Schedule → Json
  | .constant value => .object [("type", .string "constant"), ("value", .ofFloat value)]
  | .linear first last startStep steps =>
      .object
        [("type", .string "linear"), ("from", .ofFloat first), ("to", .ofFloat last),
          ("start_timestep", .ofNat startStep), ("num_timesteps", .ofNat steps)]
  | .exponential first last halfLife =>
      .object
        [("type", .string "exponential"), ("from", .ofFloat first), ("to", .ofFloat last),
          ("half_life", .ofFloat halfLife)]

end Schedule

end Wiring
