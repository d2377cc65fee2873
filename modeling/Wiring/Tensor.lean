/-!
Contract: arrays of any rank, stored row by row.

The elements stand in one array whose size is the product of the lengths of the axes, so every operation
below fixes the shape and says what stands at each position. `Tensor.at?` is the view by index.
-/

namespace Wiring

/-- The number of elements of a shape. -/
def volume : List Nat → Nat
  | [] => 1
  | length :: rest => length * volume rest

structure Tensor (α : Type) where
  shape : List Nat
  data : Array α
  size_eq : data.size = volume shape

namespace Tensor

variable {α : Type}

def ofData? (shape : List Nat) (data : Array α) : Option (Tensor α) :=
  if h : data.size = volume shape then some ⟨shape, data, h⟩ else none

/-- The tensor that holds `element position` at every position of the flat data. -/
def generate (shape : List Nat) (element : Nat → α) : Tensor α where
  shape := shape
  data := Array.ofFn fun position : Fin (volume shape) => element position
  size_eq := by simp

def replicate (shape : List Nat) (value : α) : Tensor α :=
  generate shape fun _ => value

def rank (tensor : Tensor α) : Nat :=
  tensor.shape.length

/-- The position of an index in the flat data; an index has one entry below the length of each axis. -/
def offset? : List Nat → List Nat → Option Nat
  | [], [] => some 0
  | length :: shape, i :: index =>
      if i < length then (offset? shape index).map (i * volume shape + ·) else none
  | _, _ => none

def at? (tensor : Tensor α) (index : List Nat) : Option α :=
  (offset? tensor.shape index).bind (tensor.data[·]?)

theorem offset?_lt_volume {shape index : List Nat} {position : Nat}
    (found : offset? shape index = some position) : position < volume shape := by
  induction shape generalizing index position with
  | nil =>
      cases index with
      | nil => simp_all [offset?, volume]
      | cons i index => simp [offset?] at found
  | cons length shape inductionHypothesis =>
      cases index with
      | nil => simp [offset?] at found
      | cons i index =>
          simp only [offset?] at found
          split at found
          · next below =>
              obtain ⟨inner, innerFound, rfl⟩ := Option.map_eq_some_iff.1 found
              have innerBelow := inductionHypothesis innerFound
              calc i * volume shape + inner < i * volume shape + volume shape := by omega
                _ = (i + 1) * volume shape := by rw [Nat.add_mul, Nat.one_mul]
                _ ≤ length * volume shape := Nat.mul_le_mul_right _ below
          · simp at found

/-- A generated tensor holds at every index what was asked for at its position. -/
theorem at?_generate (shape : List Nat) (element : Nat → α) (index : List Nat) :
    (generate shape element).at? index = (offset? shape index).map element := by
  unfold at? generate
  cases found : offset? shape index with
  | none => rfl
  | some position => simp [offset?_lt_volume found]

variable [Inhabited α]

def flatAt (tensor : Tensor α) (position : Nat) : α :=
  tensor.data.getD position default

/-! ### Rows along the first axis -/

def rowShape (tensor : Tensor α) : List Nat :=
  tensor.shape.tail

def rowSize (tensor : Tensor α) : Nat :=
  volume tensor.rowShape

/-- The rows with the given numbers, in their order. -/
def selectRows (tensor : Tensor α) (rows : List Nat) : Tensor α :=
  generate (rows.length :: tensor.rowShape) fun position =>
    let row := rows.getD (position / tensor.rowSize) 0
    tensor.flatAt (row * tensor.rowSize + position % tensor.rowSize)

/-- Replaces row `target` by row `source` of the updates. -/
def setRow (tensor updates : Tensor α) (target source : Nat) : Tensor α :=
  generate tensor.shape fun position =>
    if position / tensor.rowSize = target then
      updates.flatAt (source * tensor.rowSize + position % tensor.rowSize)
    else tensor.flatAt position

/-- Writes the rows of the updates to the given rows, one after the other. -/
def scatterRows (tensor updates : Tensor α) (rows : List Nat) : Tensor α :=
  rows.zipIdx.foldl (fun written row => written.setRow updates row.1 row.2) tensor

/-! ### The two leading axes -/

/-- Exchanges the first two axes; there is nothing to exchange below rank two. -/
def swapLeading? (tensor : Tensor α) : Option (Tensor α) :=
  match tensor.shape with
  | first :: second :: rest =>
      let inner := volume rest
      some <| generate (second :: first :: rest) fun position =>
        let i := position / (first * inner)
        let j := position / inner % first
        tensor.flatAt ((j * second + i) * inner + position % inner)
  | _ => none

end Tensor

end Wiring
