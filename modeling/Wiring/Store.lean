import Wiring.Error
import Wiring.Generator

/-!
Contract: stored arrays under their full names, and backends, which offer a store with some of its operations.

A name is taken once. A dynamic axis starts with length zero and takes the length of the assigned value;
every other axis keeps the length that was asked for. Every operation either returns the new store or fails
and leaves the store as it is.
-/

namespace Wiring

/-! ### Initial values -/

namespace Initializer

/-- The shape of a new variable. Given values bring their own, which must agree with a requested one. -/
def resolveShape (initializer : Initializer) (requested : Option (List (Option Nat))) :
    Except Error (List (Option Nat)) :=
  match initializer, requested with
  | .values tensor, none => .ok (tensor.shape.map some)
  | .values tensor, some shape =>
      if shape.length = tensor.shape.length ∧
          (shape.zip tensor.shape).all (fun axis => axis.1.all (· = axis.2)) then
        .ok (tensor.shape.map some)
      else .error (.valuesAgainstOpenShape tensor.shape shape)
  | _, some shape => .ok shape
  | _, none => .ok []

def tensorOf (shape : List Nat) (draw : Generator → Float32 × Generator) (generator : Generator) :
    Tensor Float32 × Generator :=
  let (drawn, generator) := generator.draws draw (volume shape)
  let elements := drawn.toArray
  (Tensor.generate shape fun position => elements.getD position 0.0, generator)

def single (n : Nat) : Float32 :=
  n.toUInt64.toFloat32

/-- Initial values of the given lengths. -/
def materialize (initializer : Initializer) (shape : List Nat) (generator : Generator) :
    Except Error (Tensor Float32 × Generator) :=
  match initializer with
  | .spread =>
      let first := max (shape.headD 1) 1
      let last := max (shape.getLastD 1) 1
      let bound := Float32.sqrt (6.0 / single (first + last))
      .ok (tensorOf shape (Generator.uniform bound) generator)
  | .truncatedNormal =>
      let deviation := 1.0 / Float32.sqrt (single (max (shape.headD 1) 1))
      .ok (tensorOf shape (Generator.truncatedNormal deviation) generator)
  | .constant value => .ok (Tensor.replicate shape value.toFloat32, generator)
  | .values tensor =>
      if tensor.shape = shape then .ok (tensor, generator)
      else .error (.valuesAgainstShape tensor.shape shape)

end Initializer

/-! ### Stores -/

structure Slot where
  tensor : Tensor Float32
  trainable : Bool

structure Store where
  slots : Keyed Slot := []
  nextId : Nat := 0
  generator : Generator := .halfway

namespace Store

/-- The collection of every variable. -/
def globalVariables : String := "global_variables"

/-- The collection of the variables that training changes. -/
def trainableVariables : String := "trainable_variables"

def create (store : Store) (request : VariableRequest) : Except Error (Variable × Store) := do
  if Keyed.contains store.slots request.name then
    throw (.nameConflict request.name)
  let lengths := request.shape.map fun length => length.getD 0
  let (tensor, generator) ← request.initializer.materialize lengths store.generator
  let handle : Variable :=
    { id := store.nextId, name := request.name, shape := request.shape, element := request.element,
      trainable := request.trainable }
  let slot : Slot := { tensor, trainable := request.trainable }
  return (handle, { slots := store.slots ++ [(request.name, slot)], nextId := store.nextId + 1, generator })

def slot (store : Store) (handle : Variable) : Except Error Slot :=
  match Keyed.get? store.slots handle.name with
  | some slot => .ok slot
  | none => .error (.unknownVariable handle.name)

def put (store : Store) (handle : Variable) (slot : Slot) (tensor : Tensor Float32) : Store :=
  { store with slots := Keyed.insert handle.name { slot with tensor } store.slots }

def checkRows (length : Nat) (rows : List Nat) (name : String) : Except Error Unit :=
  match rows.find? fun row => length ≤ row with
  | some row => .error (.rowOutOfBounds row name length)
  | none => .ok ()

/-- Writes the rows of the updates over the named rows. -/
def scatter (store : Store) (handle : Variable) (rows : List Nat) (updates : Tensor Float32) :
    Except Error Store := do
  let slot ← store.slot handle
  let shape := slot.tensor.shape
  match shape, updates.shape with
  | length :: rowShape, updateLength :: updateShape =>
      if updateLength ≠ rows.length ∨ updateShape ≠ rowShape then
        throw (.updatesDoNotFit updates.shape rows.length handle.name shape)
      checkRows length rows handle.name
      return store.put handle slot (slot.tensor.scatterRows updates rows)
  | _, _ => throw (.updatesDoNotFit updates.shape rows.length handle.name shape)

/-- Replaces the value; only dynamic axes may change their length. -/
def assign (store : Store) (handle : Variable) (value : Tensor Float32) : Except Error Store := do
  let compatible := value.shape.length = handle.shape.length ∧
    (handle.shape.zip value.shape).all (fun axis => axis.1.all (· = axis.2))
  if ¬compatible then
    throw (.cannotAssign value.shape handle.name handle.shape)
  let slot ← store.slot handle
  return store.put handle slot value

/-- The value, or some of its rows in the given order. -/
def read (store : Store) (handle : Variable) (rows : Option (List Nat)) :
    Except Error (Tensor Float32) := do
  let slot ← store.slot handle
  match rows with
  | none => return slot.tensor
  | some rows =>
      match slot.tensor.shape with
      | [] => throw (.gatherFromScalar handle.name)
      | length :: _ =>
          checkRows length rows handle.name
          return slot.tensor.selectRows rows

/-- The names of a collection, in creation order. -/
def collection (store : Store) (name : String) : List String :=
  if name = trainableVariables then
    Keyed.keys (store.slots.filter fun entry => entry.2.trainable)
  else if name = globalVariables then Keyed.keys store.slots
  else []

end Store

/-! ### Backends -/

/-- A store of some kind that offers only some operations. -/
structure Backend where
  kind : BackendKind := .ndArray
  offers : List Capability := [.create, .scatter, .assign, .read, .collection]
  store : Store := {}

namespace Backend

/-- Fails unless the backend offers the operation. -/
def require (backend : Backend) (capability : Capability) : Except Error Unit :=
  if backend.offers.contains capability then .ok () else .error (.unimplemented capability backend.kind)

def create (backend : Backend) (request : VariableRequest) : Except Error (Variable × Backend) := do
  backend.require .create
  let (handle, store) ← backend.store.create request
  return (handle, { backend with store })

def scatter (backend : Backend) (handle : Variable) (rows : List Nat) (updates : Tensor Float32) :
    Except Error Backend := do
  backend.require .scatter
  let store ← backend.store.scatter handle rows updates
  return { backend with store }

def assign (backend : Backend) (handle : Variable) (value : Tensor Float32) : Except Error Backend := do
  backend.require .assign
  let store ← backend.store.assign handle value
  return { backend with store }

def read (backend : Backend) (handle : Variable) (rows : Option (List Nat)) :
    Except Error (Tensor Float32) := do
  backend.require .read
  backend.store.read handle rows

def collection (backend : Backend) (name : String) : Except Error (List String) := do
  backend.require .collection
  return backend.store.collection name

def toTerm (backend : Backend) : Term :=
  .record "NdArrayBackend" [("variables", .nat backend.store.slots.length)] false

end Backend

end Wiring
