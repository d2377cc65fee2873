import Wiring.Graph.Variables

/-!
Contract: sessions, graphs with the history that hooks and builds leave.

Besides its graph a session counts the metered calls since the last build began and keeps a trace of what
builds did. A session step stops with an error of the graph or because its fuel is used up; the two are never
confused, so nothing is concluded from a computation that was cut short.
-/

namespace Wiring

inductive Event where
  | buildStarted (root : ComponentId)
  | hookStarted (component : ComponentId) (hook : Hook) (spaces : Keyed Space)
  | hookFinished (component : ComponentId)
  | fired (computation : ComputationId) (inputs : List OpId)

structure Session where
  graph : Graph := {}
  /-- Metered calls since the last build began. -/
  calls : Nat := 0
  trace : Array Event := #[]

/-- Why a step stops early. -/
inductive Stop where
  | failed (error : Error)
  | exhausted

abbrev SessionM := ExceptT Stop (StateM Session)

namespace Session

def stopOnError : Except Error α → Except Stop α
  | .ok value => .ok value
  | .error error => .error (.failed error)

def ofGraph (step : GraphM α) : SessionM α :=
  ExceptT.mk fun session =>
    let (result, graph) := step.run session.graph
    (stopOnError result, { session with graph })

def fail (error : Error) : SessionM α :=
  throw (.failed error)

def record (event : Event) : SessionM Unit :=
  modify fun session => { session with trace := session.trace.push event }

end Session

/-- How hooks are run during a build. -/
abbrev HookRunner := Hook → ComponentId → Keyed Space → SessionM Unit

end Wiring
