import Wiring.Proofs.Keyed
import Wiring.Proofs.Steps
import Wiring.Store

/-!
Contract: what stores hold after their operations.

Owns: `VariableRequest.Fits`; `Variable.Admits`, by which a shape agrees with the declared one; that a variable is
created exactly if it fits and its name is free, and then stands last; when assigning, scattering and reading succeed,
and with what; `Store.Writes`, by which only the array of one variable differs, with what this leaves of names and of
the other arrays; and that all writing, of stores and of backends, does only this, to variables that are stored.

Does not own: the values of new variables, or which rows are written.
-/

namespace Wiring

/-! ### New variables -/

/-- The lengths that a new variable begins with; open ones begin with zero. -/
def VariableRequest.lengths (request : VariableRequest) : List Nat :=
  request.shape.map fun length => length.getD 0

/-- Given values, if there are any, have the shape of the variable. -/
def VariableRequest.Fits (request : VariableRequest) : Prop :=
  ∀ tensor, request.initializer = .values tensor → tensor.shape = request.lengths

theorem VariableRequest.fits_iff {request : VariableRequest} (generator : Generator) :
    (∃ filled, request.initializer.materialize request.lengths generator = .ok filled) ↔ request.Fits := by
  unfold Fits Initializer.materialize
  cases request.initializer with
  | values tensor =>
      by_cases same : tensor.shape = request.lengths
      · simp [same]
      · simp [same]
  | spread => simp
  | truncatedNormal => simp
  | constant value => simp

/-! ### Shapes -/

/-- The shape has the declared rank and the declared lengths, where there are any. -/
def Variable.Admits (handle : Variable) (shape : List Nat) : Prop :=
  List.Forall₂ (fun declared length => ∀ fixed, declared = some fixed → length = fixed) handle.shape shape

theorem Variable.admits_iff {handle : Variable} {shape : List Nat} : handle.Admits shape ↔
    shape.length = handle.shape.length ∧ (handle.shape.zip shape).all (fun axis => axis.1.all (· = axis.2)) = true := by
  have axis (declared : Option Nat) (length : Nat) :
      (declared.all (· = length)) = true ↔ ∀ fixed, declared = some fixed → length = fixed := by
    cases declared with
    | none => simp
    | some fixed => simp [eq_comm]
  rw [Variable.Admits, List.forall₂_iff_zip, List.all_eq_true, eq_comm]
  refine and_congr_right fun _ => ⟨fun each pair member => (axis _ _).mpr (each member), fun each _ _ member => ?_⟩
  exact (axis _ _).mp (each _ member)

theorem Initializer.shape_of_materialize {initializer : Initializer} {lengths : List Nat} {generator spent : Generator}
    {initial : Tensor Float32} (made : initializer.materialize lengths generator = .ok (initial, spent)) :
    initial.shape = lengths := by
  cases initializer with
  | spread =>
      cases made
      rfl
  | truncatedNormal =>
      cases made
      rfl
  | constant value =>
      cases made
      rfl
  | values tensor =>
      simp only [Initializer.materialize] at made
      split at made
      · next same =>
          cases made
          exact same
      · cases made

/-- A variable is created with its declared lengths, where open ones begin with zero. -/
theorem VariableRequest.admits_lengths {request : VariableRequest} {handle : Variable}
    (declared : handle.shape = request.shape) : handle.Admits request.lengths := by
  rw [Variable.Admits, declared, VariableRequest.lengths, List.forall₂_map_right_iff, List.forall₂_same]
  rintro _ - fixed rfl
  rfl

namespace Store

variable {store later : Store} {request : VariableRequest} {handle : Variable}

theorem create_eq_ok {result : Variable × Store} : store.create request = .ok result ↔
    request.name ∉ Keyed.keys store.slots ∧
      ∃ filled, request.initializer.materialize request.lengths store.generator = .ok filled ∧
        result =
          ({ id := store.nextId, name := request.name, shape := request.shape, element := request.element,
             trainable := request.trainable },
           { slots := store.slots ++ [(request.name, { tensor := filled.1, trainable := request.trainable })],
             nextId := store.nextId + 1, generator := filled.2 }) := by
  have known : Keyed.contains store.slots request.name = true ↔ request.name ∈ Keyed.keys store.slots :=
    Keyed.contains_iff_mem_keys _ _
  unfold create
  by_cases taken : request.name ∈ Keyed.keys store.slots
  · rw [if_pos (known.mpr taken)]
    exact ⟨fun created => (by cases created), fun created => absurd taken created.1⟩
  · rw [if_neg (fun listed => taken (known.mp listed))]
    constructor
    · intro created
      rcases except_bind_eq_ok.mp created with ⟨filled, made, same⟩
      exact ⟨taken, filled, made, (Except.ok.inj same).symm⟩
    · rintro ⟨-, filled, made, rfl⟩
      exact except_bind_eq_ok.mpr ⟨filled, made, rfl⟩

/-- A variable is created exactly if its name is free and it fits. -/
theorem create_ok_iff : (∃ result, store.create request = .ok result) ↔
    request.name ∉ Keyed.keys store.slots ∧ request.Fits := by
  rw [← VariableRequest.fits_iff store.generator]
  constructor
  · rintro ⟨result, created⟩
    rcases create_eq_ok.mp created with ⟨free, filled, made, -⟩
    exact ⟨free, filled, made⟩
  · rintro ⟨free, filled, made⟩
    exact ⟨_, create_eq_ok.mpr ⟨free, filled, made, rfl⟩⟩

/-- The name of the request is taken, or it does not fit. -/
def Refuses (store : Store) (request : VariableRequest) : Prop :=
  request.name ∈ Keyed.keys store.slots ∨ ¬request.Fits

theorem refuses_of_create_error {error : Error} (failed : store.create request = .error error) :
    store.Refuses request := by
  by_contra met
  rw [Refuses, not_or, not_not, ← create_ok_iff] at met
  rcases met with ⟨result, created⟩
  cases failed.symm.trans created

/-- It then stands last, under its name. -/
theorem of_create_ok (created : store.create request = .ok (handle, later)) :
    handle.name = request.name ∧ request.name ∉ Keyed.keys store.slots ∧
      ∃ slot, later.slots = store.slots ++ [(request.name, slot)] := by
  rcases create_eq_ok.mp created with ⟨free, filled, -, same⟩
  cases same
  exact ⟨rfl, free, _, rfl⟩

/-! ### Stored variables -/

theorem slot_eq_ok {slot : Slot} : store.slot handle = .ok slot ↔ Keyed.get? store.slots handle.name = some slot := by
  unfold Store.slot
  cases Keyed.get? store.slots handle.name <;> simp

theorem exists_slot (stored : handle.name ∈ Keyed.keys store.slots) : ∃ slot, store.slot handle = .ok slot := by
  cases held : Keyed.get? store.slots handle.name with
  | some slot => exact ⟨slot, slot_eq_ok.mpr held⟩
  | none =>
      rcases List.mem_map.mp stored with ⟨entry, listed, same⟩
      have absent := List.lookup_eq_none_iff.mp held entry listed
      rw [same] at absent
      simp at absent

/-! ### What the operations need and do -/

theorem checkRows_eq_ok {length : Nat} {rows : List Nat} {name : String} :
    checkRows length rows name = .ok ⟨⟩ ↔ ∀ row ∈ rows, row < length := by
  unfold checkRows
  cases found : rows.find? fun row => length ≤ row with
  | some row =>
      have outside := List.find?_some found
      rw [decide_eq_true_eq] at outside
      refine ⟨fun checked => (by cases checked), fun within => ?_⟩
      exact absurd (within row (List.mem_of_find?_eq_some found)) (Nat.not_lt.mpr outside)
  | none =>
      refine ⟨fun _ row member => ?_, fun _ => rfl⟩
      simpa using List.find?_eq_none.mp found row member

theorem assign_eq_ok {value : Tensor Float32} : store.assign handle value = .ok later ↔
    handle.Admits value.shape ∧ ∃ slot, store.slot handle = .ok slot ∧ later = store.put handle slot value := by
  rw [Variable.admits_iff]
  unfold assign
  dsimp only
  by_cases compatible : value.shape.length = handle.shape.length ∧
      (handle.shape.zip value.shape).all (fun axis => axis.1.all (· = axis.2)) = true
  · rw [if_neg (not_not.mpr compatible), and_iff_right compatible]
    constructor
    · intro done
      rcases except_bind_eq_ok.mp done with ⟨slot, found, done⟩
      exact ⟨slot, found, (Except.ok.inj done).symm⟩
    · rintro ⟨slot, found, rfl⟩
      exact except_bind_eq_ok.mpr ⟨slot, found, rfl⟩
  · rw [if_pos compatible]
    exact ⟨fun done => (by cases done), fun done => absurd done.1 compatible⟩

theorem scatter_eq_ok {rows : List Nat} {updates : Tensor Float32} : store.scatter handle rows updates = .ok later ↔
    ∃ slot length rowShape, store.slot handle = .ok slot ∧ slot.tensor.shape = length :: rowShape ∧
      updates.shape = rows.length :: rowShape ∧ (∀ row ∈ rows, row < length) ∧
      later = store.put handle slot (slot.tensor.scatterRows updates rows) := by
  unfold scatter
  constructor
  · intro done
    rcases except_bind_eq_ok.mp done with ⟨slot, found, done⟩
    dsimp only at done
    split at done
    · next length rowShape updateLength updateShape shape updatesShape =>
        split at done
        · cases done
        · next fit =>
            rw [not_or, not_not, not_not] at fit
            rcases except_bind_eq_ok.mp done with ⟨_, checked, done⟩
            refine ⟨slot, length, rowShape, found, shape, ?_, checkRows_eq_ok.mp checked, (Except.ok.inj done).symm⟩
            rw [updatesShape, fit.1, fit.2]
    · cases done
  · rintro ⟨slot, length, rowShape, found, shape, updatesShape, within, rfl⟩
    refine except_bind_eq_ok.mpr ⟨slot, found, ?_⟩
    simp only [shape, updatesShape, ne_eq, not_true, or_self, if_false]
    exact except_bind_eq_ok.mpr ⟨⟨⟩, checkRows_eq_ok.mpr within, rfl⟩

/-- Only the array of the variable differs. -/
def Writes (store : Store) (handle : Variable) (later : Store) : Prop :=
  ∃ slot tensor, store.slot handle = .ok slot ∧ later = store.put handle slot tensor

theorem Writes.keys (writes : store.Writes handle later) : Keyed.keys later.slots = Keyed.keys store.slots := by
  rcases writes with ⟨slot, tensor, found, rfl⟩
  have listed := List.mem_map_of_mem (f := Prod.fst) (Keyed.mem_of_get? (slot_eq_ok.mp found))
  exact (Keyed.keys_insert _ _ _).trans (if_pos listed)

/-- Other variables are read as before. -/
theorem Writes.read {other : Variable} (writes : store.Writes handle later) (differ : other.name ≠ handle.name)
    (rows : Option (List Nat)) : later.read other rows = store.read other rows := by
  rcases writes with ⟨slot, tensor, -, rfl⟩
  have same : (store.put handle slot tensor).slot other = store.slot other := by
    unfold Store.slot
    rw [show Keyed.get? (store.put handle slot tensor).slots other.name = Keyed.get? store.slots other.name from
      Keyed.get?_insert_of_ne differ _ _]
  unfold Store.read
  rw [same]

theorem writes_of_scatter {rows : List Nat} {updates : Tensor Float32}
    (done : store.scatter handle rows updates = .ok later) : store.Writes handle later := by
  rcases scatter_eq_ok.mp done with ⟨slot, length, rowShape, found, -, -, -, same⟩
  exact ⟨slot, _, found, same⟩

theorem writes_of_assign {value : Tensor Float32} (done : store.assign handle value = .ok later) :
    store.Writes handle later := by
  rcases assign_eq_ok.mp done with ⟨-, slot, found, same⟩
  exact ⟨slot, value, found, same⟩

/-! ### Variables that are known -/

theorem checkRows_ne_unknown {length : Nat} {rows : List Nat} {name other : String} :
    checkRows length rows name ≠ .error (.unknownVariable other) := by
  unfold checkRows
  split <;> exact fun refused => by cases refused

theorem slot_ne_unknown (stored : handle.name ∈ Keyed.keys store.slots) {name : String} :
    store.slot handle ≠ .error (.unknownVariable name) := by
  rcases exists_slot stored with ⟨slot, found⟩
  rw [found]
  exact fun refused => by cases refused

theorem scatter_ne_unknown (stored : handle.name ∈ Keyed.keys store.slots) {rows : List Nat}
    {updates : Tensor Float32} {name : String} :
    store.scatter handle rows updates ≠ .error (.unknownVariable name) := by
  intro refused
  rcases except_bind_eq_error.mp refused with missing | ⟨slot, -, refused⟩
  · exact slot_ne_unknown stored missing
  dsimp only at refused
  split at refused
  · split at refused
    · cases refused
    · rcases except_bind_eq_error.mp refused with checked | ⟨_, -, done⟩
      · exact checkRows_ne_unknown checked
      · cases done
  · cases refused

theorem assign_ne_unknown (stored : handle.name ∈ Keyed.keys store.slots) {value : Tensor Float32} {name : String} :
    store.assign handle value ≠ .error (.unknownVariable name) := by
  intro refused
  unfold assign at refused
  dsimp only at refused
  split at refused
  · cases refused
  · rcases except_bind_eq_error.mp refused with missing | ⟨slot, -, done⟩
    · exact slot_ne_unknown stored missing
    · cases done

end Store

/-! ### Backends -/

namespace Backend

/-- An action on a variable that writes its array, if it succeeds, and knows it, if it is stored. -/
structure IsWrite (act : Variable → Backend → Except Error Backend) : Prop where
  writes : ∀ handle backend written, act handle backend = .ok written →
    ∃ store, backend.store.Writes handle store ∧ written = { backend with store }
  known : ∀ handle backend, handle.name ∈ Keyed.keys backend.store.slots →
    ∀ name, act handle backend ≠ .error (.unknownVariable name)

theorem require_of_mem {backend : Backend} {capability : Capability} (offered : capability ∈ backend.offers) :
    backend.require capability = .ok ⟨⟩ := by
  rw [require, if_pos (by simpa using offered)]

theorem require_of_notMem {backend : Backend} {capability : Capability} (missing : capability ∉ backend.offers) :
    backend.require capability = .error (.unimplemented capability backend.kind) := by
  rw [require, if_neg (by simpa using missing)]

theorem require_ne_unknown {backend : Backend} {capability : Capability} {name : String} :
    backend.require capability ≠ .error (.unknownVariable name) := by
  intro refused
  by_cases offered : capability ∈ backend.offers
  · cases (require_of_mem offered).symm.trans refused
  · cases (require_of_notMem offered).symm.trans refused

theorem isWrite_of_store (capability : Capability) {act : Variable → Store → Except Error Store}
    (writes : ∀ handle store written, act handle store = .ok written → store.Writes handle written)
    (known : ∀ handle store, handle.name ∈ Keyed.keys store.slots →
      ∀ name, act handle store ≠ .error (.unknownVariable name)) :
    IsWrite fun handle backend => do
      backend.require capability
      let store ← act handle backend.store
      return { backend with store } where
  writes handle backend written done := by
    rcases except_bind_eq_ok.mp done with ⟨_, -, done⟩
    rcases except_bind_eq_ok.mp done with ⟨store, done, same⟩
    exact ⟨store, writes handle _ store done, (Except.ok.inj same).symm⟩
  known handle backend stored name refused := by
    rcases except_bind_eq_error.mp refused with missing | ⟨_, -, refused⟩
    · exact require_ne_unknown missing
    rcases except_bind_eq_error.mp refused with failed | ⟨_, -, done⟩
    · exact known handle _ stored name failed
    · cases done

theorem isWrite_scatter (rows : List Nat) (updates : Tensor Float32) :
    IsWrite fun handle backend => backend.scatter handle rows updates :=
  isWrite_of_store .scatter (fun _ _ _ => Store.writes_of_scatter) fun _ _ stored _ => Store.scatter_ne_unknown stored

theorem isWrite_assign (value : Tensor Float32) : IsWrite fun handle backend => backend.assign handle value :=
  isWrite_of_store .assign (fun _ _ _ => Store.writes_of_assign) fun _ _ stored _ => Store.assign_ne_unknown stored

end Backend

end Wiring
