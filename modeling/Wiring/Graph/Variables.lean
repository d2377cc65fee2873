import Wiring.Graph.Sockets

/-!
Contract: the variables of components.

A variable is stored under the scope of its component and registered under its plain name. Variables that
follow a space are stored leaf by leaf, the name extended by the flat key, and registered as a container of
the same form or as one flat collection. No leaf is stored if one of their names is taken.
-/

namespace Wiring.Graph

/-- The name under which a component stores a variable. -/
def fullName (scope name : String) : String :=
  if scope = "" then name else scope ++ "/" ++ name

def spaceOfSource (graph : Graph) (owner : ComponentId) : SpaceSource → Except Error Space
  | .space space => .ok space
  | .socket name => do
      let id ← graph.resolve owner (.named name) (some .input)
      let socket ← graph.heldSocket id
      match socket.space with
      | some space => return space
      | none => throw (.spaceNotResolved name)

/-- What all leaves of one variable share. -/
structure LeafRequest where
  batchRank : BatchRank
  trainable : Bool
  initializer : Initializer

def createLeaf (request : LeafRequest) (name : String) (leaf : Box) : GraphM Variable :=
  useBackend fun backend => backend.create
    { name, shape := request.batchRank.dimensions ++ leaf.shape.map some, element := leaf.element,
      trainable := request.trainable, initializer := request.initializer }

mutual

/-- Stores the leaves of a space under names below `name`, in depth-first order. -/
def createNested (request : LeafRequest) (name : String) : Space → GraphM VariableValue
  | .box leaf => do
      let handle ← createLeaf request name leaf
      return .single handle
  | .dict entries => do
      let entries ← createEntries request name entries
      return .dict entries
  | .tuple parts => do
      let parts ← createParts request name 0 parts
      return .tuple parts

def createEntries (request : LeafRequest) (name : String) :
    List (String × Space) → GraphM (List (String × VariableValue))
  | [] => return []
  | (key, space) :: rest => do
      let value ← createNested request (FlatKey.entry name key) space
      let values ← createEntries request name rest
      return (key, value) :: values

def createParts (request : LeafRequest) (name : String) (index : Nat) :
    List Space → GraphM (List VariableValue)
  | [] => return []
  | space :: rest => do
      let value ← createNested request (FlatKey.part name index) space
      let values ← createParts request name (index + 1) rest
      return value :: values

end

/-- Stores the leaves of a space in flat order, each under its own registered name. -/
def createFlat (request : LeafRequest) (fullName name : String) (leaves : Keyed Box) : GraphM VariableValue := do
  let handles ← leaves.mapM fun leaf => do
    let handle ← createLeaf request (fullName ++ leaf.1) leaf.2
    return (name ++ leaf.1, handle)
  return .flat (Keyed.ofList handles)

/-- Fails if one of the names that the leaves need is taken. -/
def checkLeafNames (fullName : String) (leaves : Keyed Box) : GraphM Unit := do
  let taken ← query fun graph => graph.backend.collection Store.globalVariables
  match leaves.find? fun leaf => (fullName ++ leaf.1) ∈ taken with
  | some leaf => throw (.nameConflict (fullName ++ leaf.1))
  | none => return

def createVariable (owner : ComponentId) (name : String) (spec : VariableSpec) : GraphM VariableValue := do
  let scope ← query (·.fullScope owner)
  let stored := fullName scope name
  let initializer := spec.initializer.getD .spread
  match spec.source with
  | some source => do
      let space ← query (·.spaceOfSource owner source)
      let request : LeafRequest := { batchRank := spec.batchRank, trainable := spec.trainable, initializer }
      checkLeafNames stored space.flatten
      if spec.flatten then createFlat request stored name space.flatten
      else createNested request stored space
  | none => do
      let shape ← query fun _ => initializer.resolveShape spec.shape
      let handle ← useBackend fun backend => backend.create
        { name := stored, shape, element := spec.element, trainable := spec.trainable, initializer }
      return .single handle

/-- The registered variable of a name; unless the request only looks it up, it is created first and replaces
what was registered under the name. -/
def getVariable (owner : ComponentId) (name : String) (spec : VariableSpec) : GraphM VariableValue := do
  let component ← query (·.component owner)
  if spec.isLookup then
    match Keyed.get? component.registry name with
    | some value => return value
    | none => throw (.variableNotFound component.name name)
  let value ← createVariable owner name spec
  editComponent owner fun component =>
    { component with registry := Keyed.insert name value component.registry }
  return value

/-- The registered variables of the given names, or all of them, as far as a leaf is in the collection. -/
def registered (graph : Graph) (owner : ComponentId) (names : List String) (collection : Option String) :
    Except Error (Keyed VariableValue) := do
  let component ← graph.component owner
  let collected : Option (List String) ← match collection with
    | some collection => some <$> graph.backend.collection collection
    | none => pure none
  return component.registry.filter fun entry =>
    (names.isEmpty || names.contains entry.1) &&
      collected.all fun collected => entry.2.leaves.any fun leaf => collected.contains leaf.name

/-- The handle of a registered variable that is no container. -/
def singleVariable (graph : Graph) (owner : ComponentId) (name : String) : Except Error Variable := do
  let component ← graph.component owner
  match Keyed.get? component.registry name with
  | some (.single handle) => return handle
  | some _ => throw (.containerVariable name component.name)
  | none => throw (.variableNotFound component.name name)

def scatterVariable (owner : ComponentId) (name : String) (rows : List Nat) (updates : Tensor Float32) :
    GraphM Unit := do
  let handle ← query (·.singleVariable owner name)
  useBackend fun backend => ((), ·) <$> backend.scatter handle rows updates

def assignVariable (owner : ComponentId) (name : String) (value : Tensor Float32) : GraphM Unit := do
  let handle ← query (·.singleVariable owner name)
  useBackend fun backend => ((), ·) <$> backend.assign handle value

def readVariable (graph : Graph) (owner : ComponentId) (name : String) (rows : Option (List Nat)) :
    Except Error (Tensor Float32) := do
  let handle ← graph.singleVariable owner name
  graph.backend.read handle rows

end Wiring.Graph
