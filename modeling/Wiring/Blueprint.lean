import Wiring.Graph.Composition
import Wiring.Graph.Computations

/-!
Contract: blueprints, the descriptions of component subtrees from which copies are made.

A blueprint names everything by path and name, so it is independent of the graph it was taken from. It holds
the links between sockets of the subtree and the spaces bound below its root; connections that leave the
subtree and spaces bound to the root itself are not part of it.
-/

namespace Wiring

structure SocketPlan where
  name : String
  side : Side
  internal : Bool
deriving DecidableEq, Repr, Inhabited

structure ComputationPlan where
  method : String
  inputs : List String
  outputs : List String
  settings : Settings
deriving DecidableEq, Repr, Inhabited

/-- A component with everything below it, without the connections between sockets. -/
inductive ComponentPlan where
  | node (config : ComponentConfig) (sockets : List SocketPlan) (methods : List Method)
      (computations : List ComputationPlan) (hook : Option Hook) (children : List ComponentPlan)
deriving Inhabited

/-- A socket by the names of the sub-components that lead to it and its own name. -/
structure SocketPath where
  path : List String
  name : String
deriving DecidableEq, Repr, Inhabited

structure SpaceBinding where
  socket : SocketPath
  space : Space
  /-- Whether the space feeds the socket or the socket the space. -/
  incoming : Bool
deriving Inhabited

structure Blueprint where
  root : ComponentPlan
  links : List (SocketPath × SocketPath)
  bindings : List SpaceBinding
deriving Inhabited

namespace ComponentPlan

def config : ComponentPlan → ComponentConfig
  | .node config .. => config

def children : ComponentPlan → List ComponentPlan
  | .node _ _ _ _ _ children => children

end ComponentPlan

/-! ### Dumps -/

def SocketPlan.toTerm (plan : SocketPlan) : Term :=
  .record "SocketBlueprint"
    [("name", .quoted plan.name), ("socket_type", .atom plan.side.label), ("internal", .bool plan.internal)]
    false

def ComputationPlan.toTerm (plan : ComputationPlan) : Term :=
  .record "ComputationBlueprint"
    [("method", .quoted plan.method), ("inputs", .list (plan.inputs.map .quoted)),
      ("outputs", .list (plan.outputs.map .quoted)), ("flags", plan.settings.toTerm)]
    false

namespace ComponentPlan

mutual

/-- The dump of a plan that holds the given number of links. -/
def toTerm (links : Nat) : ComponentPlan → Term
  | .node config sockets methods computations hook children =>
      .record "ComponentBlueprint"
        [("config", config.toTerm),
          ("sockets", .list (sockets.map SocketPlan.toTerm)),
          ("methods", .list (methods.map Method.toTerm)),
          ("computations", .list (computations.map ComputationPlan.toTerm)),
          ("has_hook", .bool hook.isSome),
          ("sub_components", .list (childTerms children)),
          ("links", .nat links)]
        true

def childTerms : List ComponentPlan → List Term
  | [] => []
  | child :: rest => toTerm 0 child :: childTerms rest

end

end ComponentPlan

def Blueprint.toTerm (blueprint : Blueprint) : Term :=
  blueprint.root.toTerm blueprint.links.length

namespace Graph

/-! ### Taking a blueprint -/

def planComputation (graph : Graph) (id : ComputationId) : Except Error ComputationPlan := do
  let computation ← graph.heldComputation id
  let inputs ← graph.socketNames computation.inputs
  let outputs ← graph.socketNames computation.outputs
  return { method := computation.method, inputs, outputs, settings := computation.settings }

def planSocket (graph : Graph) (id : SocketId) : Except Error SocketPlan := do
  let socket ← graph.heldSocket id
  return { name := socket.name, side := socket.side, internal := socket.internal }

/-- The plan of a component; the fuel bounds the depth of the tree. -/
def planComponent (graph : Graph) : Nat → ComponentId → Except Error ComponentPlan
  | 0, id => .error (.dangling id.describe)
  | fuel + 1, id => do
      let component ← graph.heldComponent id
      let sockets ← component.sockets.mapM graph.planSocket
      let computations ← component.computations.mapM graph.planComputation
      let children ← (Keyed.values component.children).mapM (graph.planComponent fuel)
      return .node component.toConfig sockets component.methods computations component.hook children

/-- The names that lead from a root down to one of its members. -/
def relativePath (graph : Graph) (root member : ComponentId) : Except Error (List String) := do
  let chain ← graph.lineage member
  (chain.takeWhile fun id => id ≠ root).reverse.mapM fun id => Component.name <$> graph.heldComponent id

/-- The links that leave a socket for another member. -/
def linksFrom (graph : Graph) (root : ComponentId) (members : List ComponentId) (source : SocketPath)
    (connections : List Connection) : Except Error (List (SocketPath × SocketPath)) := do
  let links ← connections.mapM fun
    | .socket id => do
        let target ← graph.heldSocket id
        if target.owner ∈ members then
          let path ← graph.relativePath root target.owner
          return [(source, (⟨path, target.name⟩ : SocketPath))]
        else return []
    | _ => return []
  return links.flatten

/-- The links and the bound spaces of one member. -/
def wiringOf (graph : Graph) (root : ComponentId) (members : List ComponentId) (member : ComponentId) :
    Except Error (List (SocketPath × SocketPath) × List SpaceBinding) := do
  let path ← graph.relativePath root member
  let component ← graph.heldComponent member
  let wirings ← component.sockets.mapM fun id => do
    let socket ← graph.heldSocket id
    let place : SocketPath := ⟨path, socket.name⟩
    let links ← graph.linksFrom root members place socket.outgoing
    let bind (incoming : Bool) (space : Space) : SpaceBinding := { socket := place, space, incoming }
    let bindings := if member = root then [] else
      (socket.outgoing.filterMap Connection.asSpace?).map (bind false) ++
        (socket.incoming.filterMap Connection.asSpace?).map (bind true)
    return (links, bindings)
  return ((wirings.map Prod.fst).flatten, (wirings.map Prod.snd).flatten)

/-- The description of a component and everything below it. -/
def blueprint (graph : Graph) (id : ComponentId) : Except Error Blueprint := do
  let _ ← graph.component id
  let root ← graph.planComponent graph.components.size id
  let members ← graph.subtree id
  let wirings ← members.mapM (graph.wiringOf id members)
  return { root, links := (wirings.map Prod.fst).flatten, bindings := (wirings.map Prod.snd).flatten }

/-! ### Making a copy -/

mutual

/-- Creates the component of a plan, configured as given, with everything below it. -/
def instantiatePlan (config : ComponentConfig) : ComponentPlan → GraphM ComponentId
  | .node _ sockets methods computations hook children => do
      let id ← create config
      sockets.forM fun socket => do
        let _ ← addSockets id [socket.name] (some socket.side) socket.internal
      methods.forM (register id)
      computations.forM fun computation => do
        let _ ← compute id computation.inputs computation.outputs (some computation.method)
          (.ofSettings computation.settings)
      match hook with
      | some hook => setHook id hook
      | none => pure ()
      instantiateChildren id children
      return id

def instantiateChildren (parent : ComponentId) : List ComponentPlan → GraphM Unit
  | [] => return
  | child :: rest => do
      let id ← instantiatePlan child.config child
      add parent id .nothing
      instantiateChildren parent rest

end

/-- Follows the names of a path down from a component. -/
def follow (graph : Graph) (whole : List String) : ComponentId → List String → Except Error ComponentId
  | id, [] => .ok id
  | id, name :: rest => do
      let component ← graph.heldComponent id
      match Keyed.get? component.children name with
      | some child => graph.follow whole child rest
      | none => throw (.pathMissing whole)

def socketAt (graph : Graph) (root : ComponentId) (place : SocketPath) : Except Error SocketId := do
  let owner ← graph.follow place.path root place.path
  graph.resolve owner (.named place.name) none

def restoreLink (root : ComponentId) (link : SocketPath × SocketPath) : GraphM Unit := do
  let source ← query (·.socketAt root link.1)
  let target ← query (·.socketAt root link.2)
  connect root (.socket (.id source)) (.socket (.id target))

def restoreBinding (root : ComponentId) (binding : SpaceBinding) : GraphM Unit := do
  let socket ← query (·.socketAt root binding.socket)
  if binding.incoming then connect root (.space binding.space) (.socket (.id socket))
  else connect root (.socket (.id socket)) (.space binding.space)

/-- Creates a component without parent from a blueprint. A new scope also names it, unless a name is given. -/
def instantiate (blueprint : Blueprint) (name scope : Option String) : GraphM ComponentId := do
  let config := blueprint.root.config
  let config := match scope with
    | some scope => { config with scope, name := some scope }
    | none => config
  let config := match name with
    | some name => { config with name := some name }
    | none => config
  let root ← instantiatePlan config blueprint.root
  blueprint.links.forM (restoreLink root)
  blueprint.bindings.forM (restoreBinding root)
  return root

/-- A copy of a component and everything below it. Its scope is that of the component unless one is given. -/
def copy (id : ComponentId) (name scope : Option String) : GraphM ComponentId := do
  let blueprint ← query (·.blueprint id)
  instantiate blueprint name (some (scope.getD blueprint.root.config.scope))

end Graph

end Wiring
