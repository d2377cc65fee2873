import Wiring.Graph.Links

/-!
Contract: putting components into components.

A component gets a parent at most once, never below itself, and under a name that no sibling has. The sockets
that the exposure selects are linked to sockets of the parent with the exposed name, which are created where
the parent has none. All checks come before the first edit.
-/

namespace Wiring.Graph

/-- The selected sockets of a component by name, each with the name that the parent shows it under. Of
several selections of one socket the last one counts. -/
def selection (graph : Graph) (child : Component) : Exposure → Except Error (Keyed String)
  | .nothing => .ok []
  | .socket name => .ok [(name, name)]
  | .inputs => do
      let names ← graph.socketNames child.inputs
      return Keyed.ofList (names.map fun name => (name, name))
  | .outputs => do
      let names ← graph.socketNames child.outputs
      return Keyed.ofList (names.map fun name => (name, name))
  | .all => do
      let names ← graph.socketNames (child.inputs ++ child.outputs)
      return Keyed.ofList (names.map fun name => (name, name))
  | .sockets entries =>
      .ok (Keyed.ofList (entries.flatMap fun
        | .keep name => [(name, name)]
        | .rename name exposed => [(name, exposed)]
        | .renames names => names))

/-- A socket of the child with the name and the side that its link to the parent has. -/
structure Exposed where
  socket : String
  exposed : String
  side : Side

/-- Everything that adding a sub-component checks: the name of the child and the links to make. -/
def planAdd (graph : Graph) (parent child : ComponentId) (exposure : Exposure) :
    Except Error (String × List Exposed) := do
  let childNode ← graph.component child
  let parentNode ← graph.component parent
  if Keyed.contains parentNode.children childNode.name then
    throw (.duplicateComponent childNode.name parentNode.name)
  if childNode.added ∨ parent = child then
    throw (.alreadyAdded childNode.name)
  let ancestors ← graph.lineage parent
  if child ∈ ancestors then
    throw (.addBelowDescendant childNode.name parentNode.name)
  let selected ← graph.selection childNode exposure
  let exposed ← selected.mapM fun entry => do
    match ← graph.socketNamed? child entry.1 none with
    | some id =>
        let socket ← graph.heldSocket id
        return (⟨entry.1, entry.2, socket.side⟩ : Exposed)
    | none => throw (.socketNotFound childNode.name entry.1 none)
  return (childNode.name, exposed)

/-- Links one exposed socket with the socket of the parent, creating that one if need be. -/
def expose (parent child : ComponentId) (plan : Exposed) : GraphM Unit := do
  if (← query (·.socketNamed? parent plan.exposed none)).isNone then
    let _ ← addSockets parent [plan.exposed] (some plan.side) false
  let outer : Endpoint := .socket (.named plan.exposed)
  let inner : Endpoint := .socket (.foreign child plan.socket)
  match plan.side with
  | .input => connect parent outer inner
  | .output => connect parent inner outer

/-- Adds a sub-component and exposes its selected sockets. -/
def add (parent child : ComponentId) (exposure : Exposure) : GraphM Unit := do
  let (name, exposed) ← query (·.planAdd parent child exposure)
  editComponent child fun component => { component with added := true, parent := some parent }
  editComponent parent fun component =>
    { component with children := Keyed.insert name child component.children }
  exposed.forM (expose parent child)

/-- Adds sub-components one after the other; those before a failing one stay. -/
def addMany (parent : ComponentId) (children : List ComponentId) (exposures : Exposures) : GraphM Unit :=
  children.forM fun child => do
    let exposure ← match exposures with
      | .each exposure => pure exposure
      | .nothing => pure .nothing
      | .byName chosen => do
          let component ← query (·.component child)
          pure ((Keyed.get? chosen component.name).getD .nothing)
    add parent child exposure

end Wiring.Graph
