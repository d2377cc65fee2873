import Wiring.Script
import Wiring.Json.Value

/-!
Contract: everything that can be done to a graph, as data.

An `Operation` creates a component, looks something up, or acts within one component. A `Hook` runs when the
inputs of its component are known. It may be a script of operations, in which a component can be named as the
hook's own, so that the same script serves every copy of the component.
-/

namespace Wiring

/-- Ways to name a socket. -/
inductive SocketRef where
  /-- The sole socket of the requested side. -/
  | only
  | named (name : String)
  | foreign (component : ComponentId) (name : String)
  | id (id : SocketId)
deriving DecidableEq, Repr, Inhabited

/-- One end of a connection. -/
inductive Endpoint where
  | space (space : Space)
  /-- A space by its JSON form. -/
  | spec (spec : Json)
  /-- The sole out-socket of a source, the sole in-socket of a target. -/
  | component (id : ComponentId)
  | socket (ref : SocketRef)
deriving Inhabited

inductive ExposedEntry where
  | keep (name : String)
  | rename (name exposed : String)
  | renames (names : Keyed String)
deriving DecidableEq, Repr, Inhabited

/-- Which sockets of a sub-component its parent exposes. -/
inductive Exposure where
  | nothing
  | socket (name : String)
  | sockets (entries : List ExposedEntry)
  | inputs
  | outputs
  | all
deriving DecidableEq, Repr, Inhabited

/-- The exposures of several sub-components. -/
inductive Exposures where
  | each (exposure : Exposure)
  /-- By component name; a name that is missing exposes nothing. -/
  | byName (exposures : Keyed Exposure)
  | nothing
deriving DecidableEq, Repr, Inhabited

/-- A component, possibly the one whose hook is running. -/
inductive ComponentRef where
  | own
  | id (id : ComponentId)
deriving DecidableEq, Repr, Inhabited

mutual

inductive Operation where
  | create (config : ComponentConfig)
  | createFromText (config : String)
  | exploration (config : String) (actions : Space)
  | epsilon (config : String)
  | noise (config : String)
  | transpose (scope : Option String)
  | socket (id : SocketId)
  | computation (id : ComputationId)
  | collection (name : String)
  /-- The whole graph. -/
  | snapshot
  | within (component : ComponentRef) (action : Action)

inductive Action where
  | addSockets (names : List String) (side : Option Side) (internal : Bool)
  | defineInputs (names : List String) (space : Option Space)
  | defineOutputs (names : List String)
  | resolve (ref : SocketRef) (side : Option Side)
  | socketNamed (name : String) (side : Option Side)
  | ensureInternal (name : String)
  | connect (source target : Endpoint)
  | disconnect (source target : Endpoint)
  | register (method : Method)
  | compute (inputs outputs : List String) (method : Option String) (options : Options)
  | setHook (script : List HookStep)
  | add (child : ComponentId) (exposure : Exposure)
  | addMany (children : List ComponentId) (exposures : Exposures)
  | getVariable (name : String) (spec : VariableSpec)
  | registered (names : List String) (collection : Option String)
  | assign (name : String) (value : Tensor Float32)
  | scatter (name : String) (rows : List Nat) (updates : Tensor Float32)
  | read (name : String) (rows : Option (List Nat))
  | copy (name scope : Option String)
  | build (config : BuildConfig)
  | subtree
  | fullScope
  | describe
  | inspect

inductive HookStep where
  | perform (operation : Operation)
  | fail (kind : ErrorKind) (text : String)
  /-- Fails unless the space of an in-socket has a batch rank. -/
  | needBatchRank (socket : String)

end

inductive Hook where
  | script (steps : List HookStep)
  /-- The check of an exploration: a switch is a bool box, actions have a batch rank. -/
  | explorationInputs

end Wiring
