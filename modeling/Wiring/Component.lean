import Wiring.Operation

/-!
Contract: components and computations, the nodes of a graph.

A component owns sockets in three lists, methods, computations, variables and sub-components by name. The
last group of its fields is the state that builds keep between each other.
-/

namespace Wiring

structure Component where
  scope : String
  name : String
  device : Option String := none
  isGlobal : Bool := false
  settings : Settings := {}
  parent : Option ComponentId := none
  /-- Whether the component was ever given a parent. -/
  added : Bool := false
  children : Keyed ComponentId := []
  inputs : List SocketId := []
  outputs : List SocketId := []
  internals : List SocketId := []
  methods : List Method := []
  computations : List ComputationId := []
  /-- The computations without inputs. -/
  sources : List ComputationId := []
  /-- The variables by registered name. -/
  registry : Keyed VariableValue := []
  hook : Option Hook := none
  /-- Whether every in-socket had a space in the last build. -/
  complete : Bool := false
  /-- Whether the hook has run, or there was none to run. -/
  hookDone : Bool := false
  /-- Sockets whose computations wait for the component to become complete. -/
  deferred : List SocketId := []
deriving Inhabited

namespace Component

def ofConfig (config : ComponentConfig) : Component where
  scope := config.scope
  name := config.resolvedName
  device := config.device
  isGlobal := config.isGlobal
  settings := config.settings

/-- The configuration from which the component could be created again, its name made explicit. -/
def toConfig (component : Component) : ComponentConfig where
  scope := component.scope
  name := some component.name
  device := component.device
  isGlobal := component.isGlobal
  settings := component.settings

/-- In-sockets, out-sockets and internal sockets, in this order. -/
def sockets (component : Component) : List SocketId :=
  component.inputs ++ component.outputs ++ component.internals

def method? (component : Component) (name : String) : Option Method :=
  component.methods.find? fun method => method.name = name

end Component

/-- A method bound to sockets of its component. -/
structure Computation where
  method : String
  owner : ComponentId
  inputs : List SocketId
  outputs : List SocketId
  settings : Settings
deriving Inhabited

end Wiring
