import Wiring.Execution

/-!
Contract: workspaces, several graphs that share blueprints.

A step acts on the current graph, switches to another one, or moves a component from graph to graph as a
blueprint. A graph that is switched to for the first time is empty and has a fresh backend.
-/

namespace Wiring

inductive Step where
  | operation (operation : Operation)
  | blueprint (component : ComponentId)
  | instantiate (blueprint : Nat) (name scope : Option String)
  | dumpBlueprint (blueprint : Nat)
  | useGraph (position : Nat)

inductive StepAnswer where
  | answer (answer : Answer)
  | blueprint (blueprint : Blueprint)
  | failed (error : Error)

structure Workspace where
  /-- The backend that every new graph starts with. -/
  backend : Backend := {}
  sessions : Array Session := #[{ graph := { backend } }]
  current : Nat := 0
  blueprints : Array Blueprint := #[]

namespace Workspace

def fresh (workspace : Workspace) : Session :=
  { graph := { backend := workspace.backend } }

def session (workspace : Workspace) : Session :=
  workspace.sessions.getD workspace.current workspace.fresh

/-- The sessions up to a position, the missing ones created. -/
def withSession (workspace : Workspace) (position : Nat) : Workspace :=
  let missing := position + 1 - workspace.sessions.size
  { workspace with
    sessions := workspace.sessions ++ Array.replicate missing workspace.fresh
    current := position }

/-- Runs a session step on the current graph; there is no answer if its fuel is used up. -/
def onSession (workspace : Workspace) (step : SessionM α) : Option (Except Error α) × Workspace :=
  let (result, session) := step.run workspace.session
  let workspace := { workspace with sessions := workspace.sessions.set! workspace.current session }
  match result with
  | .ok value => (some (.ok value), workspace)
  | .error (.failed error) => (some (.error error), workspace)
  | .error .exhausted => (none, workspace)

def answered (wrap : α → StepAnswer) (result : Option (Except Error α) × Workspace) :
    Option (StepAnswer × Workspace) :=
  match result with
  | (some (.ok value), workspace) => some (wrap value, workspace)
  | (some (.error error), workspace) => some (.failed error, workspace)
  | (none, _) => none

/-- Does one step. -/
def perform (fuel : Nat) (workspace : Workspace) : Step → Option (StepAnswer × Workspace)
  | .operation operation =>
      answered .answer (workspace.onSession (Execution.execute fuel none operation))
  | .blueprint id => do
      let (result, workspace) ← answered .blueprint (workspace.onSession (Execution.ask (·.blueprint id)))
      match result with
      | .blueprint blueprint =>
          return (result, { workspace with blueprints := workspace.blueprints.push blueprint })
      | _ => return (result, workspace)
  | .instantiate position name scope =>
      match workspace.blueprints[position]? with
      | some blueprint =>
          answered (fun id => .answer (.component id))
            (workspace.onSession (Session.ofGraph (Graph.instantiate blueprint name scope)))
      | none => none
  | .dumpBlueprint position =>
      (workspace.blueprints[position]?).map fun blueprint =>
        (.answer (.text blueprint.toTerm.render), workspace)
  | .useGraph position => some (.answer .done, workspace.withSession position)

end Workspace

end Wiring
