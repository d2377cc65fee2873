import Wiring.Socket
import Wiring.Space.FlatKey
import Wiring.Space.Codec
import Wiring.Variable

/-!
Contract: why an operation on a graph fails.

An `Error` is a cause with the data that its message shows. `Error.kind` sorts the causes into the classes
that callers tell apart, and `Error.message` is the wording: the heading of the kind and the detail of the
cause.
-/

namespace Wiring

inductive ErrorKind where
  | scopeFormat
  | duplicateSocket
  | duplicateComponent
  | alreadyAdded
  | ambiguousSocket
  | socketNotFound
  | nameInference
  | typeMismatch
  | sameComponentConnection
  | configuration
  | variableNotFound
  | nameConflict
  | unimplemented
  | incompleteBuild
  | componentNotFound
  | computation
  | backend
  | serialization
  | other
  /-- A stored identifier points nowhere. -/
  | corrupt
deriving DecidableEq, Repr

inductive BackendKind where
  | ndArray
  | tensorFlow
  | pyTorch
deriving DecidableEq, Repr, Inhabited

def BackendKind.label : BackendKind → String
  | .ndArray => "NdArray"
  | .tensorFlow => "TensorFlow"
  | .pyTorch => "PyTorch"

def BackendKind.name : BackendKind → String
  | .ndArray => "ndarray"
  | .tensorFlow => "tensorflow"
  | .pyTorch => "pytorch"

/-- What a backend may be able to do. -/
inductive Capability where
  | create
  | scatter
  | assign
  | read
  | collection
deriving DecidableEq, Repr

def Capability.name : Capability → String
  | .create => "create_variable"
  | .scatter => "scatter_update"
  | .assign => "assign"
  | .read => "read"
  | .collection => "collection"

/-- The side that a lookup asks for, as messages show it. -/
def Side.requested : Option Side → String
  | none => "??"
  | some side => side.name

inductive Error where
  -- Names and sockets.
  | scopeFormat (scope : String)
  | duplicateSocket (component socket : String)
  | duplicateComponent (child parent : String)
  | alreadyAdded (component : String)
  | ambiguousSocket (component : String) (side : Option Side) (count : Nat)
  | socketNotFound (component socket : String) (side : Option Side)
  | nameInference (name : String)
  | componentNotFound (id : ComponentId)
  -- Connections.
  | spaceToSpace
  | spaceIntoOutSocket (space : Space) (socket : String)
  | inSocketIntoSpace (socket : String) (space : Space)
  | sameComponent (first second component : String)
  | notConnected (source target : String)
  | noSuchConnection (socket : String) (connection : Connection)
  | addBelowDescendant (child parent : String)
  -- Computations.
  | methodRegistered (method component : String)
  | unknownMethod (component method : String)
  | methodNotUnique (component : String) (count : Nat)
  | arityMismatch (method : String) (inputs outputs givenInputs givenOutputs : Nat)
  | methodMissing (method component : String)
  | outputCount (method : String) (returned declared : Nat)
  | splitKeyMissing (space : Space) (key : String)
  -- Spaces and variables.
  | flatKeys (fault : FlatKey.Fault)
  | unknownSpaceName (name : String)
  | valuesAgainstOpenShape (items : List Nat) (shape : List (Option Nat))
  | valuesAgainstShape (items shape : List Nat)
  | spaceNotResolved (socket : String)
  | containerVariable (name component : String)
  | variableNotFound (component name : String)
  | nameConflict (name : String)
  -- Backends.
  | unimplemented (capability : Capability) (backend : BackendKind)
  | unknownVariable (name : String)
  | rowOutOfBounds (row : Nat) (name : String) (length : Nat)
  | updatesDoNotFit (updates : List Nat) (rows : Nat) (name : String) (shape : List Nat)
  | cannotAssign (value : List Nat) (name : String) (shape : List (Option Nat))
  | gatherFromScalar (name : String)
  -- Builds and copies.
  | incompleteBuild (components : List String)
  | pathMissing (path : List String)
  -- Exploration.
  | bothStrategies
  | epsilonActionSpace (space : Space)
  | noiseActionSpace (space : Space)
  | switchNotBool (space : Space)
  | actionsWithoutBatchRank (space : Space)
  | negativeDeviation (deviation : Float)
  | infiniteDeviation
  | cannotTranspose (shape : List Nat)
  -- Texts, scripts and stored identifiers.
  | malformedText
  /-- An error that a scripted method or hook raises by itself. -/
  | raised (kind : ErrorKind) (text : String)
  | dangling (reference : String)
deriving Inhabited

namespace Error

def kind : Error → ErrorKind
  | .scopeFormat .. => .scopeFormat
  | .duplicateSocket .. => .duplicateSocket
  | .duplicateComponent .. => .duplicateComponent
  | .alreadyAdded .. => .alreadyAdded
  | .ambiguousSocket .. => .ambiguousSocket
  | .socketNotFound .. => .socketNotFound
  | .nameInference .. => .nameInference
  | .componentNotFound .. => .componentNotFound
  | .spaceToSpace | .spaceIntoOutSocket .. | .inSocketIntoSpace .. => .typeMismatch
  | .sameComponent .. => .sameComponentConnection
  | .notConnected .. | .noSuchConnection .. | .addBelowDescendant .. => .configuration
  | .methodRegistered .. | .unknownMethod .. | .methodNotUnique .. | .arityMismatch .. => .configuration
  | .methodMissing .. | .outputCount .. | .splitKeyMissing .. => .computation
  | .flatKeys .. | .unknownSpaceName .. => .configuration
  | .valuesAgainstOpenShape .. | .valuesAgainstShape .. => .configuration
  | .spaceNotResolved .. | .containerVariable .. => .configuration
  | .variableNotFound .. => .variableNotFound
  | .nameConflict .. => .nameConflict
  | .unimplemented .. => .unimplemented
  | .unknownVariable .. | .rowOutOfBounds .. | .updatesDoNotFit .. => .backend
  | .cannotAssign .. | .gatherFromScalar .. => .backend
  | .incompleteBuild .. => .incompleteBuild
  | .pathMissing .. => .configuration
  | .bothStrategies | .epsilonActionSpace .. | .noiseActionSpace .. => .configuration
  | .switchNotBool .. | .actionsWithoutBatchRank .. => .configuration
  | .negativeDeviation .. | .infiniteDeviation | .cannotTranspose .. => .configuration
  | .malformedText => .serialization
  | .raised kind _ => kind
  | .dangling .. => .corrupt

def stringsText (names : List String) : String :=
  (Term.list (names.map .quoted)).render

def shapeText (shape : List Nat) : String :=
  (Term.shape shape).render

def openShapeText (shape : List (Option Nat)) : String :=
  (Term.openShape shape).render

def detail : Error → String
  | .scopeFormat scope => s!"Scope '{scope}' does not match scope-pattern! Needs to be \\w or '-'"
  | .duplicateSocket component socket =>
      s!"Socket of name '{socket}' already exists in component '{component}'"
  | .duplicateComponent child parent =>
      s!"Sub-component with name '{child}' already exists in '{parent}'"
  | .alreadyAdded component =>
      s!"Component '{component}' has already been added once to a container component"
  | .ambiguousSocket component side count =>
      s!"Cannot return only {Side.requested side}-socket of '{component}': {count} candidates"
  | .socketNotFound component socket side =>
      s!"No '{Side.requested side}'-socket named '{socket}' found in '{component}'"
  | .nameInference name => s!"Cannot infer socket type (in/out) from socket name: '{name}'"
  | .componentNotFound id => s!"Component id {id.index} not found"
  | .spaceToSpace => "cannot connect a Space to another Space"
  | .spaceIntoOutSocket space socket =>
      s!"Space {space.describe} can only be connected to an in-socket, but '{socket}' is an out-socket"
  | .inSocketIntoSpace socket space =>
      s!"in-socket '{socket}' cannot be connected to Space {space.describe}"
  | .sameComponent first second component =>
      s!"Cannot connect two sockets ('{first}', '{second}') that belong to the same component '{component}'"
  | .notConnected source target => s!"socket '{source}' is not connected to socket '{target}'"
  | .noSuchConnection socket connection =>
      s!"socket '{socket}' has no connection {connection.toTerm.render} to remove"
  | .addBelowDescendant child parent => s!"Cannot add '{child}' below its own descendant '{parent}'"
  | .methodRegistered method component =>
      s!"method '{method}' is already registered on component '{component}'"
  | .unknownMethod component method => s!"component '{component}' has no computation method '{method}'"
  | .methodNotUnique component count =>
      s!"component '{component}' has {count} computation methods, cannot pick one without a name"
  | .arityMismatch method inputs outputs givenInputs givenOutputs =>
      s!"method '{method}' takes {inputs} inputs and returns {outputs} outputs, " ++
        s!"got {givenInputs} and {givenOutputs}"
  | .methodMissing method component => s!"method '{method}' not registered on '{component}'"
  | .outputCount method returned declared =>
      s!"method '{method}' returned {returned} ops, declared {declared}"
  | .splitKeyMissing space key => s!"container input {space.describe} has no key '{key}' to split on"
  | .flatKeys fault => fault.message
  | .unknownSpaceName name => s!"Unknown space type name '{name}'"
  | .valuesAgainstOpenShape items shape =>
      s!"Shape of given items ({shapeText items}) not identical with shape ({openShapeText shape})"
  | .valuesAgainstShape items shape =>
      s!"Shape of given items ({shapeText items}) not identical with shape ({shapeText shape})"
  | .spaceNotResolved socket => s!"space of in-socket '{socket}' is not resolved yet"
  | .containerVariable handle component => s!"variable '{handle}' of '{component}' is a container"
  | .variableNotFound component handle =>
      s!"Variable with name '{handle}' not found in registry of component '{component}'"
  | .nameConflict handle => s!"Variable '{handle}' already exists in the backend namespace"
  | .unimplemented capability backend =>
      s!"Operation '{capability.name}' is not implemented for backend {backend.label}"
  | .unknownVariable handle => s!"Unknown variable '{handle}'"
  | .rowOutOfBounds row handle length =>
      s!"Index {row} out of bounds for axis 0 of '{handle}' (length {length})"
  | .updatesDoNotFit updates rows handle shape =>
      s!"Updates of shape {shapeText updates} do not fit {rows} rows of '{handle}' {shapeText shape}"
  | .cannotAssign value handle shape =>
      s!"Cannot assign value of shape {shapeText value} to '{handle}' {openShapeText shape}"
  | .gatherFromScalar handle => s!"Cannot gather rows from scalar '{handle}'"
  | .incompleteBuild components => s!"Components not input-complete after build: {stringsText components}"
  | .pathMissing path => "blueprint path '" ++ String.intercalate "/" path ++ "' does not exist"
  | .bothStrategies => "Cannot use both epsilon exploration and a noise component at the same time"
  | .epsilonActionSpace space =>
      s!"epsilon exploration needs an int action space with categories, got {space.describe}"
  | .noiseActionSpace space => s!"noise exploration needs a float action space, got {space.describe}"
  | .switchNotBool space => s!"use_exploration space {space.describe} must be a bool box"
  | .actionsWithoutBatchRank space => s!"actions space {space.describe} must have a batch rank"
  | .negativeDeviation deviation =>
      s!"noise standard deviation must be non-negative, got {Decimal.Style.plain.write (.ofFloat deviation)}"
  | .infiniteDeviation => "variance is non-finite in normal distribution"
  | .cannotTranspose shape =>
      s!"cannot transpose batch and time of an array with shape {shapeText shape}"
  | .malformedText => "malformed text"
  | .raised _ text => text
  | .dangling reference => s!"{reference} points nowhere"

end Error

def ErrorKind.heading : ErrorKind → String
  | .typeMismatch => "Type mismatch: "
  | .configuration => "Configuration error: "
  | .computation => "Computation error: "
  | .backend => "Backend error: "
  | .serialization => "Serialization error: "
  | _ => ""

def Error.message (error : Error) : String :=
  error.kind.heading ++ error.detail

/-- The error of a specification that describes no space. -/
def Error.ofSpecFault : Space.SpecFault → Error
  | .unknownName name => .unknownSpaceName name
  | .malformed => .malformedText

end Wiring
