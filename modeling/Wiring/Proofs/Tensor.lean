import Mathlib.Data.List.Induction
import Wiring.Tensor

/-!
Contract: arrays by index.

Owns: that the shape and what stands at each index determine an array; what stands in the rows that are selected or
replaced; `Overwrites`, by which rows are written in order, so that the last update of a row stays; and `Exchanges`, by
which two arrays differ in the order of their first two axes only.

Does not own: stores.
-/

namespace Wiring

variable {α : Type}

namespace Tensor

/-! ### Positions and indices -/

theorem offset?_cons_of_lt {length row : Nat} (below : row < length) (shape index : List Nat) :
    offset? (length :: shape) (row :: index) = (offset? shape index).map (row * volume shape + ·) := by
  rw [offset?, if_pos below]

/-- Every position has an index. -/
theorem exists_offset {shape : List Nat} {position : Nat} (below : position < volume shape) :
    ∃ index, offset? shape index = some position := by
  induction shape generalizing position with
  | nil =>
      obtain rfl : position = 0 := Nat.lt_one_iff.mp below
      exact ⟨[], rfl⟩
  | cons length shape inductionHypothesis =>
      have positive : 0 < volume shape := by
        by_contra none
        rw [volume, Nat.eq_zero_of_not_pos none, Nat.mul_zero] at below
        exact absurd below (Nat.not_lt_zero position)
      rcases inductionHypothesis (Nat.mod_lt position positive) with ⟨index, found⟩
      refine ⟨position / volume shape :: index, ?_⟩
      rw [offset?_cons_of_lt (Nat.div_lt_of_lt_mul (Nat.mul_comm _ _ ▸ below)), found, Option.map_some,
        Nat.div_add_mod']

/-- An array is determined by its shape and by what stands at each index. -/
theorem ext_at {first second : Tensor α} (shape : first.shape = second.shape)
    (same : ∀ index, first.at? index = second.at? index) : first = second := by
  have data : first.data = second.data := by
    refine Array.ext (by rw [first.size_eq, second.size_eq, shape]) fun position below belowToo => ?_
    rcases exists_offset (first.size_eq ▸ below) with ⟨index, found⟩
    have here := same index
    rw [at?, at?, ← shape, found, Option.bind_some, Option.bind_some, Array.getElem?_eq_getElem below,
      Array.getElem?_eq_getElem belowToo] at here
    exact Option.some.inj here
  cases first
  cases second
  cases shape
  cases data
  rfl

variable [Inhabited α]

theorem at?_eq (tensor : Tensor α) (index : List Nat) :
    tensor.at? index = (offset? tensor.shape index).map tensor.flatAt := by
  unfold at? flatAt
  cases found : offset? tensor.shape index with
  | none => rfl
  | some position =>
      have within : position < tensor.data.size := tensor.size_eq ▸ offset?_lt_volume found
      rw [Option.bind_some, Option.map_some, Array.getElem?_eq_getElem within, Array.getD, dif_pos within]
      rfl

/-! ### Rows -/

variable {tensor updates : Tensor α} {length : Nat} {rowShape : List Nat}

theorem at?_row (shape : tensor.shape = length :: rowShape) {row : Nat} (below : row < length) (index : List Nat) :
    tensor.at? (row :: index) =
      (offset? rowShape index).map fun inner => tensor.flatAt (row * volume rowShape + inner) := by
  rw [at?_eq, shape, offset?_cons_of_lt below, Option.map_map]
  rfl

omit [Inhabited α] in
theorem at?_generate_row (element : Nat → α) {row : Nat} (below : row < length) (index : List Nat) :
    (generate (length :: rowShape) element).at? (row :: index) =
      (offset? rowShape index).map fun inner => element (row * volume rowShape + inner) := by
  rw [at?_generate, offset?_cons_of_lt below, Option.map_map]
  rfl

/-- The number of the row and the position within it. -/
theorem row_of_position {index : List Nat} {inner : Nat} (found : offset? rowShape index = some inner) (row : Nat) :
    (row * volume rowShape + inner) / volume rowShape = row ∧
      (row * volume rowShape + inner) % volume rowShape = inner := by
  have below := offset?_lt_volume found
  constructor
  · rw [Nat.mul_comm, Nat.mul_add_div (Nat.zero_lt_of_lt below), Nat.div_eq_of_lt below, Nat.add_zero]
  · rw [Nat.mul_comm, Nat.mul_add_mod, Nat.mod_eq_of_lt below]

/-- There are the named rows of the array, in this order. -/
structure Picks (tensor : Tensor α) (rows : List Nat) (picked : Tensor α) : Prop where
  shape : picked.shape = rows.length :: tensor.shape.tail
  row : ∀ place row, rows[place]? = some row → ∀ index, picked.at? (place :: index) = tensor.at? (row :: index)

/-- Nothing else has these rows in this order. -/
theorem Picks.unique {rows : List Nat} {first second : Tensor α} (left : tensor.Picks rows first)
    (right : tensor.Picks rows second) : first = second := by
  have shape : first.shape = second.shape := left.shape.trans right.shape.symm
  refine ext_at shape fun index => ?_
  have outside {index : List Nat} (absent : offset? first.shape index = none) : first.at? index = second.at? index := by
    rw [at?_eq, at?_eq, ← shape, absent]
    rfl
  cases index with
  | nil => exact outside (by rw [left.shape]; rfl)
  | cons place index =>
      cases named : rows[place]? with
      | some row => rw [left.row place row named index, right.row place row named index]
      | none =>
          refine outside ?_
          rw [left.shape, offset?, if_neg (Nat.not_lt.mpr (List.getElem?_eq_none_iff.mp named))]

theorem at?_setRow (shape : tensor.shape = length :: rowShape) {updateLength source : Nat}
    (updateShape : updates.shape = updateLength :: rowShape) (sourceBelow : source < updateLength) (target : Nat)
    {row : Nat} (below : row < length) (index : List Nat) :
    (tensor.setRow updates target source).at? (row :: index) =
      if row = target then updates.at? (source :: index) else tensor.at? (row :: index) := by
  have tail : tensor.rowShape = rowShape := congrArg List.tail shape
  rw [setRow, shape, at?_generate_row _ below, at?_row shape below, at?_row updateShape sourceBelow]
  split
  · next same =>
      refine Option.map_congr fun inner found => ?_
      rcases row_of_position (Option.mem_def.mp found) row with ⟨quotient, remainder⟩
      rw [rowSize, tail, quotient, remainder, if_pos same]
  · next differ =>
      refine Option.map_congr fun inner found => ?_
      rcases row_of_position (Option.mem_def.mp found) row with ⟨quotient, -⟩
      rw [rowSize, tail, quotient, if_neg differ]

/-- The rows of the updates are written to the named rows in order: the last one for a row stays, and what is not in
one of these rows is as before. -/
structure Overwrites (old : Tensor α) (rows : List Nat) (updates new : Tensor α) : Prop where
  shape : new.shape = old.shape
  last : ∀ place row, rows[place]? = some row → (∀ later, place < later → rows[later]? ≠ some row) →
    ∀ index, new.at? (row :: index) = updates.at? (place :: index)
  untouched : ∀ index, (∀ row ∈ rows, index.head? ≠ some row) → new.at? index = old.at? index

omit [Inhabited α] in
theorem Overwrites.refl (old updates : Tensor α) : old.Overwrites [] updates old where
  shape := rfl
  last _ _ named := nomatch named
  untouched _ _ := rfl

/-- One more row is written. -/
theorem Overwrites.setRow {old new : Tensor α} {rows : List Nat} (overwrites : old.Overwrites rows updates new)
    (shape : old.shape = length :: rowShape) {updateLength : Nat}
    (updateShape : updates.shape = updateLength :: rowShape) (more : rows.length < updateLength) {target : Nat}
    (within : ∀ row ∈ rows ++ [target], row < length) :
    old.Overwrites (rows ++ [target]) updates (new.setRow updates target rows.length) where
  shape := overwrites.shape
  last place row named last index := by
    have below := within row (List.mem_of_getElem? named)
    rw [at?_setRow (overwrites.shape.trans shape) updateShape more target below]
    have unnamed : place ≠ rows.length → row ≠ target := by
      rintro earlier rfl
      have bound := (List.getElem?_eq_some_iff.mp named).1
      rw [List.length_append, List.length_singleton] at bound
      exact last rows.length (by omega) List.getElem?_concat_length
    by_cases final : place = rows.length
    · subst final
      rw [List.getElem?_concat_length] at named
      rw [if_pos (Option.some.inj named).symm]
    · rw [if_neg (unnamed final)]
      have bound := (List.getElem?_eq_some_iff.mp named).1
      rw [List.length_append, List.length_singleton] at bound
      rw [List.getElem?_append_left (by omega)] at named
      refine overwrites.last place row named (fun later after same => last later after ?_) index
      rwa [List.getElem?_append_left (List.getElem?_eq_some_iff.mp same).1]
  untouched index outside := by
    have before := overwrites.untouched index fun row named => outside row (List.mem_append_left _ named)
    have written : (new.setRow updates target rows.length).shape = new.shape := rfl
    rw [← before]
    cases index with
    | nil => rw [at?_eq, at?_eq, written, overwrites.shape, shape]; rfl
    | cons row index =>
        by_cases below : row < length
        · have differ : row ≠ target := fun same => outside target (by simp) (congrArg some same)
          rw [at?_setRow (overwrites.shape.trans shape) updateShape more target below, if_neg differ]
        · rw [at?_eq, at?_eq, written, overwrites.shape, shape, offset?, if_neg below]
          rfl

theorem overwrites_scatterRows {old : Tensor α} (shape : old.shape = length :: rowShape) {updateLength : Nat}
    (updateShape : updates.shape = updateLength :: rowShape) {rows : List Nat} (fit : rows.length ≤ updateLength)
    (within : ∀ row ∈ rows, row < length) : old.Overwrites rows updates (old.scatterRows updates rows) := by
  induction rows using List.reverseRecOn with
  | nil => exact .refl old updates
  | append_singleton rows target inductionHypothesis =>
      rw [List.length_append, List.length_singleton] at fit
      have before := inductionHypothesis (by omega) fun row named => within row (List.mem_append_left _ named)
      have written : old.scatterRows updates (rows ++ [target]) =
          (old.scatterRows updates rows).setRow updates target rows.length := by
        rw [scatterRows, List.zipIdx_append, List.foldl_append]
        simp [scatterRows]
      exact written ▸ before.setRow shape updateShape fit within

/-- A row that is named has a last place. -/
theorem exists_last {rows : List Nat} {row : Nat} (named : row ∈ rows) :
    ∃ place : Nat, rows[place]? = some row ∧ ∀ later : Nat, place < later → rows[later]? ≠ some row := by
  induction rows with
  | nil => cases named
  | cons first rest inductionHypothesis =>
      by_cases again : row ∈ rest
      · rcases inductionHypothesis again with ⟨place, here, last⟩
        refine ⟨place + 1, here, fun later after => ?_⟩
        obtain ⟨later, rfl⟩ : ∃ before, later = before + 1 := ⟨later - 1, by omega⟩
        exact last later (by omega)
      · obtain rfl := (List.mem_cons.mp named).resolve_right again
        refine ⟨0, rfl, fun later after same => again ?_⟩
        obtain ⟨later, rfl⟩ : ∃ before, later = before + 1 := ⟨later - 1, by omega⟩
        exact List.mem_of_getElem? same

omit [Inhabited α] in
/-- Nothing else comes of writing these rows. -/
theorem Overwrites.unique {old first second : Tensor α} {rows : List Nat} (left : old.Overwrites rows updates first)
    (right : old.Overwrites rows updates second) : first = second := by
  refine ext_at (left.shape.trans right.shape.symm) fun index => ?_
  by_cases outside : ∀ row ∈ rows, index.head? ≠ some row
  · rw [left.untouched index outside, right.untouched index outside]
  · push Not at outside
    rcases outside with ⟨row, named, head⟩
    rcases List.head?_eq_some_iff.mp head with ⟨rest, rfl⟩
    rcases exists_last named with ⟨place, here, last⟩
    rw [left.last place row here last rest, right.last place row here last rest]

/-! ### The two leading axes -/

/-- The arrays differ in the order of their first two axes: in the lengths, and in the index of each element. -/
structure Exchanges (tensor turned : Tensor α) : Prop where
  shape : ∃ first second rest, tensor.shape = first :: second :: rest ∧ turned.shape = second :: first :: rest
  element : ∀ i j index, turned.at? (i :: j :: index) = tensor.at? (j :: i :: index)

omit [Inhabited α] in
theorem Exchanges.symm {tensor turned : Tensor α} (exchanges : tensor.Exchanges turned) : turned.Exchanges tensor where
  shape := by
    rcases exchanges.shape with ⟨first, second, rest, shape, shapeToo⟩
    exact ⟨second, first, rest, shapeToo, shape⟩
  element i j index := (exchanges.element j i index).symm

theorem at?_eq_none_of_short {tensor : Tensor α} {index : List Nat} (short : index.length < tensor.rank) :
    tensor.at? index = none := by
  rw [at?_eq, Option.map_eq_none_iff]
  unfold rank at short
  generalize tensor.shape = shape at short
  induction index generalizing shape with
  | nil =>
      cases shape with
      | nil => exact absurd short (Nat.lt_irrefl 0)
      | cons length shape => rfl
  | cons i index inductionHypothesis =>
      cases shape with
      | nil => exact absurd short (Nat.not_lt_zero _)
      | cons length shape =>
          rw [offset?, inductionHypothesis shape (Nat.lt_of_succ_lt_succ short)]
          exact ite_self _

/-- Nothing else has the first two axes exchanged. -/
theorem Exchanges.unique {tensor first second : Tensor α} (left : tensor.Exchanges first)
    (right : tensor.Exchanges second) : first = second := by
  rcases left.shape with ⟨_, _, _, shape, firstShape⟩
  rcases right.shape with ⟨_, _, _, shapeToo, secondShape⟩
  obtain ⟨rfl, rest⟩ := List.cons.inj (shape.symm.trans shapeToo)
  obtain ⟨rfl, rfl⟩ := List.cons.inj rest
  refine ext_at (firstShape.trans secondShape.symm) fun index => ?_
  match index with
  | i :: j :: index => rw [left.element, right.element]
  | [] | [_] =>
      rw [at?_eq_none_of_short (by simp [rank, firstShape]), at?_eq_none_of_short (by simp [rank, secondShape])]

/-- The numbers of the row and of the row within it, and the position in the latter. -/
theorem leading_of_position {rest index : List Nat} {inner : Nat} (found : offset? rest index = some inner)
    {length j : Nat} (below : j < length) (i : Nat) :
    (i * volume (length :: rest) + (j * volume rest + inner)) / volume (length :: rest) = i ∧
      (i * volume (length :: rest) + (j * volume rest + inner)) / volume rest % length = j ∧
      (i * volume (length :: rest) + (j * volume rest + inner)) % volume rest = inner := by
  have row : offset? (length :: rest) (j :: index) = some (j * volume rest + inner) := by
    rw [offset?_cons_of_lt below, found]
    rfl
  rcases row_of_position row i with ⟨quotient, remainder⟩
  rcases row_of_position found j with ⟨innerQuotient, innerRemainder⟩
  refine ⟨quotient, ?_, ?_⟩
  · rw [← Nat.mod_mul_right_div_self, Nat.mul_comm (volume rest) length]
    exact (congrArg (· / volume rest) remainder).trans innerQuotient
  · rw [← Nat.mod_mod_of_dvd _ (Nat.dvd_mul_left (volume rest) length)]
    exact (congrArg (· % volume rest) remainder).trans innerRemainder

omit [Inhabited α] in
theorem offset?_leading (first second : Nat) (rest : List Nat) (i j : Nat) (index : List Nat) :
    offset? (first :: second :: rest) (i :: j :: index) =
      if i < first ∧ j < second then
        (offset? rest index).map fun inner => i * volume (second :: rest) + (j * volume rest + inner)
      else none := by
  split
  · next below =>
      rw [offset?_cons_of_lt below.1, offset?_cons_of_lt below.2, Option.map_map]
      rfl
  · next outside =>
      rw [offset?, offset?]
      split
      · next below => rw [if_neg fun belowToo => outside ⟨below, belowToo⟩, Option.map_none]
      · rfl

/-- Two axes are enough to be exchanged. -/
theorem exchanges_swapLeading? {first second : Nat} {rest : List Nat} (shape : tensor.shape = first :: second :: rest) :
    ∃ turned, tensor.swapLeading? = some turned ∧ tensor.Exchanges turned := by
  rw [swapLeading?, shape]
  refine ⟨_, rfl, ⟨first, second, rest, shape, rfl⟩, fun i j index => ?_⟩
  rw [at?_generate, at?_eq, shape, offset?_leading, offset?_leading]
  -- One index is outside the axes of its array exactly if the other is.
  by_cases below : i < second ∧ j < first
  · rw [if_pos below, if_pos below.symm, Option.map_map, Option.map_map]
    refine Option.map_congr fun inner found => ?_
    rcases leading_of_position (Option.mem_def.mp found) below.2 i with ⟨row, column, remainder⟩
    have position :
        (j * second + i) * volume rest + inner = j * volume (second :: rest) + (i * volume rest + inner) := by
      rw [volume, Nat.add_mul, Nat.mul_assoc, Nat.add_assoc]
    show tensor.flatAt ((_ % first * second + _ / volume (first :: rest)) * volume rest + _ % volume rest) = _
    rw [row, column, remainder, position]
    rfl
  · rw [if_neg below, if_neg (mt And.symm below)]
    rfl

theorem swapLeading?_eq_none_iff : tensor.swapLeading? = none ↔ tensor.rank < 2 := by
  unfold swapLeading? rank
  split
  · next shape => simp [shape]
  · next short =>
      refine iff_of_true rfl ?_
      rcases shape : tensor.shape with _ | ⟨first, _ | ⟨second, rest⟩⟩
      · decide
      · exact Nat.one_lt_two
      · exact absurd shape (short first second rest)

end Tensor

end Wiring
