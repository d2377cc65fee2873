import Mathlib.Data.List.Nodup
import Wiring.Proofs.Store
import Wiring.Proofs.Tensor

/-!
Contract: a backend is a map from its variables to arrays.

Owns: calls of a backend and the histories they make, in which only variables are used that were created before;
`Holds`, the value that a history gives to a variable; `Mirrors`, by which a backend stores what the history says in
arrays of the declared shapes; that every call preserves it; and what is read after any history.

Does not own: how random values are drawn.
-/

namespace Wiring.Backend

/-! ### Histories -/

inductive Call where
  | create (request : VariableRequest)
  | assign (handle : Variable) (value : Tensor Float32)
  | scatter (handle : Variable) (rows : List Nat) (updates : Tensor Float32)
  | read (handle : Variable) (rows : Option (List Nat))

inductive Reply where
  | created (handle : Variable)
  | done
  | value (tensor : Tensor Float32)

namespace Call

/-- The variables that a call uses. -/
def uses : Call → List Variable
  | .create _ => []
  | .assign handle _ | .scatter handle _ _ | .read handle _ => [handle]

/-- The variable that a call writes. -/
def target? : Call → Option Variable
  | .assign handle _ | .scatter handle _ _ => some handle
  | .create _ | .read _ _ => none

/-- The reply to a call with the backend afterwards. -/
def answer (backend : Backend) : Call → Except Error (Reply × Backend)
  | .create request => (fun made => (.created made.1, made.2)) <$> backend.create request
  | .assign handle value => (.done, ·) <$> backend.assign handle value
  | .scatter handle rows updates => (.done, ·) <$> backend.scatter handle rows updates
  | .read handle rows => (fun tensor => (.value tensor, backend)) <$> backend.read handle rows

/-- The backend after a call, which stays if the call fails. -/
def leave (backend : Backend) (call : Call) : Backend :=
  match call.answer backend with
  | .ok answered => answered.2
  | .error _ => backend

end Call

/-- A call that was made, with the source of random values at that time. -/
structure Step where
  call : Call
  generator : Generator
  reply : Except Error Reply

/-- The variables that were created, the newest first. -/
def created (history : List Step) : List Variable :=
  history.filterMap fun step => match step.reply with
    | .ok (.created handle) => some handle
    | _ => none

/-- A new backend, with any source of random values, after calls that use only variables that were created before.
The newest call stands first. -/
inductive Lived : List Step → Backend → Prop where
  | start (generator : Generator) : Lived [] { store := { generator } }
  | call {history : List Step} {backend : Backend} (lived : Lived history backend) (call : Call)
      (known : ∀ handle ∈ call.uses, handle ∈ created history) :
      Lived (⟨call, backend.store.generator, Prod.fst <$> call.answer backend⟩ :: history) (call.leave backend)

/-- The variable whose value a step has set. -/
def Step.writes? (step : Step) : Option Variable :=
  match step.reply with
  | .ok (.created handle) => some handle
  | .ok _ => step.call.target?
  | .error _ => none

/-- The value that a history gives to a variable: the latest initial or assigned one, with the later updates. -/
inductive Holds (handle : Variable) : List Step → Tensor Float32 → Prop where
  | created {request : VariableRequest} {initial : Tensor Float32} {generator spent : Generator} {history : List Step}
      (given : request.initializer.materialize request.lengths generator = .ok (initial, spent)) :
      Holds handle (⟨.create request, generator, .ok (.created handle)⟩ :: history) initial
  | assigned {value : Tensor Float32} {generator : Generator} {history : List Step} :
      Holds handle (⟨.assign handle value, generator, .ok .done⟩ :: history) value
  | scattered {rows : List Nat} {updates old new : Tensor Float32} {generator : Generator} {history : List Step}
      (before : Holds handle history old) (overwrites : old.Overwrites rows updates new) :
      Holds handle (⟨.scatter handle rows updates, generator, .ok .done⟩ :: history) new
  | kept {step : Step} {history : List Step} {tensor : Tensor Float32} (before : Holds handle history tensor)
      (other : step.writes? ≠ some handle) : Holds handle (step :: history) tensor

/-- A history gives a variable one value. -/
theorem Holds.unique {handle : Variable} {history : List Step} {first second : Tensor Float32}
    (left : Holds handle history first) (right : Holds handle history second) : first = second := by
  induction left generalizing second with
  | created given =>
      cases right with
      | created givenToo => exact (Prod.mk.inj (Except.ok.inj (given.symm.trans givenToo))).1
      | kept _ other => exact absurd rfl other
  | assigned =>
      cases right with
      | assigned => rfl
      | kept _ other => exact absurd rfl other
  | scattered before overwrites inductionHypothesis =>
      cases right with
      | scattered beforeToo overwritesToo =>
          obtain rfl := inductionHypothesis beforeToo
          exact overwrites.unique overwritesToo
      | kept _ other => exact absurd rfl other
  | kept before other inductionHypothesis =>
      cases right with
      | created => exact absurd rfl other
      | assigned => exact absurd rfl other
      | scattered => exact absurd rfl other
      | kept beforeToo _ => exact inductionHypothesis beforeToo

/-! ### What a backend stores -/

/-- The backend stores the variables of the history, each with an array of its declared shape, which is the one that
the history gives to it. -/
structure Mirrors (history : List Step) (backend : Backend) : Prop where
  offers : ∀ capability, backend.require capability = .ok ⟨⟩
  ids : ∀ handle ∈ created history, handle.id < backend.store.nextId
  apart : ((created history).map Variable.id).Nodup
  listed : Keyed.keys backend.store.slots = ((created history).map Variable.name).reverse
  distinct : ((created history).map Variable.name).Nodup
  stored : ∀ handle ∈ created history, ∃ slot, backend.store.slot handle = .ok slot ∧
    handle.Admits slot.tensor.shape ∧ Holds handle history slot.tensor

/-- What a call does that succeeds. -/
inductive Answered (backend : Backend) : Call → Reply → Backend → Prop where
  | created {request : VariableRequest} {handle : Variable} {store : Store}
      (made : backend.store.create request = .ok (handle, store)) :
      Answered backend (.create request) (.created handle) { backend with store }
  | assigned {handle : Variable} {value : Tensor Float32} {slot : Slot} (found : backend.store.slot handle = .ok slot)
      (admits : handle.Admits value.shape) :
      Answered backend (.assign handle value) .done { backend with store := backend.store.put handle slot value }
  | scattered {handle : Variable} {rows : List Nat} {updates new : Tensor Float32} {slot : Slot}
      (found : backend.store.slot handle = .ok slot) (overwrites : slot.tensor.Overwrites rows updates new) :
      Answered backend (.scatter handle rows updates) .done { backend with store := backend.store.put handle slot new }
  | read (handle : Variable) (rows : Option (List Nat)) (tensor : Tensor Float32) :
      Answered backend (.read handle rows) (.value tensor) backend

section Offered

variable {backend : Backend} (offers : ∀ capability, backend.require capability = .ok ⟨⟩)
include offers

theorem create_of_offers (request : VariableRequest) : backend.create request =
    (fun made => (made.1, { backend with store := made.2 })) <$> backend.store.create request := by
  unfold Backend.create
  rw [offers]
  cases backend.store.create request <;> rfl

theorem assign_of_offers (handle : Variable) (value : Tensor Float32) : backend.assign handle value =
    (fun store => { backend with store }) <$> backend.store.assign handle value := by
  unfold Backend.assign
  rw [offers]
  cases backend.store.assign handle value <;> rfl

theorem scatter_of_offers (handle : Variable) (rows : List Nat) (updates : Tensor Float32) :
    backend.scatter handle rows updates =
      (fun store => { backend with store }) <$> backend.store.scatter handle rows updates := by
  unfold Backend.scatter
  rw [offers]
  cases backend.store.scatter handle rows updates <;> rfl

/-- What a call that succeeds does, one case for each kind of call. -/
theorem answered {call : Call} {reply : Reply} {later : Backend} (answer : call.answer backend = .ok (reply, later)) :
    Answered backend call reply later := by
  cases call with
  | create request =>
      rw [Call.answer, create_of_offers offers, except_map_eq_ok] at answer
      rcases answer with ⟨made, created, same⟩
      rcases except_map_eq_ok.mp created with ⟨⟨handle, store⟩, stored, rfl⟩
      cases same
      exact .created stored
  | assign handle value =>
      rw [Call.answer, assign_of_offers offers, except_map_eq_ok] at answer
      rcases answer with ⟨other, assigned, same⟩
      rcases except_map_eq_ok.mp assigned with ⟨store, stored, rfl⟩
      rcases Store.assign_eq_ok.mp stored with ⟨admits, slot, found, rfl⟩
      cases same
      exact .assigned found admits
  | scatter handle rows updates =>
      rw [Call.answer, scatter_of_offers offers, except_map_eq_ok] at answer
      rcases answer with ⟨other, scattered, same⟩
      rcases except_map_eq_ok.mp scattered with ⟨store, stored, rfl⟩
      rcases Store.scatter_eq_ok.mp stored with ⟨slot, length, rowShape, found, shape, updatesShape, within, rfl⟩
      cases same
      exact .scattered found (Tensor.overwrites_scatterRows shape updatesShape (Nat.le_refl _) within)
  | read handle rows =>
      rcases except_map_eq_ok.mp answer with ⟨tensor, -, same⟩
      cases same
      exact .read handle rows tensor

end Offered

namespace Mirrors

variable {history : List Step} {backend : Backend}

theorem start (generator : Generator) : Mirrors [] { store := { generator } } where
  offers capability := by cases capability <;> rfl
  ids _ member := nomatch member
  apart := List.nodup_nil
  listed := rfl
  distinct := List.nodup_nil
  stored _ member := nomatch member

variable (mirrors : Mirrors history backend)
include mirrors

theorem eq_of_name {first second : Variable} (left : first ∈ created history) (right : second ∈ created history)
    (same : first.name = second.name) : first = second :=
  List.inj_on_of_nodup_map mirrors.distinct left right same

/-- A step that creates and writes nothing. -/
theorem idle {step : Step} (fixed : created (step :: history) = created history) (still : step.writes? = none) :
    Mirrors (step :: history) backend where
  offers := mirrors.offers
  ids := fixed ▸ mirrors.ids
  apart := fixed ▸ mirrors.apart
  listed := fixed ▸ mirrors.listed
  distinct := fixed ▸ mirrors.distinct
  stored handle member := by
    rcases mirrors.stored handle (fixed ▸ member) with ⟨slot, found, admits, holds⟩
    exact ⟨slot, found, admits, .kept holds (by rw [still]; exact fun same => nomatch same)⟩

/-- A step that writes one variable. -/
theorem write {step : Step} {handle : Variable} (known : handle ∈ created history)
    (fixed : created (step :: history) = created history) (target : step.writes? = some handle) {slot : Slot}
    (found : backend.store.slot handle = .ok slot) {tensor : Tensor Float32} (admits : handle.Admits tensor.shape)
    (holds : Holds handle (step :: history) tensor) :
    Mirrors (step :: history) { backend with store := backend.store.put handle slot tensor } where
  offers := mirrors.offers
  ids := fixed ▸ mirrors.ids
  apart := fixed ▸ mirrors.apart
  listed := fixed ▸ (Store.Writes.keys ⟨slot, tensor, found, rfl⟩).trans mirrors.listed
  distinct := fixed ▸ mirrors.distinct
  stored other member := by
    by_cases same : other.name = handle.name
    · obtain rfl := mirrors.eq_of_name (fixed ▸ member) known same
      exact ⟨{ slot with tensor }, Store.slot_eq_ok.mpr (Keyed.get?_insert_self _ _ _), admits, holds⟩
    · rcases mirrors.stored other (fixed ▸ member) with ⟨kept, keptFound, keptAdmits, keptHolds⟩
      refine ⟨kept, ?_, keptAdmits, .kept keptHolds ?_⟩
      · rw [Store.slot_eq_ok] at keptFound ⊢
        exact (Keyed.get?_insert_of_ne same _ _).trans keptFound
      · rw [target]
        exact fun equal => same (congrArg Variable.name (Option.some.inj equal)).symm

/-- A new variable has a name and an identifier of its own. -/
theorem create {request : VariableRequest} {handle : Variable} {store : Store}
    (made : backend.store.create request = .ok (handle, store)) :
    Mirrors (⟨.create request, backend.store.generator, .ok (.created handle)⟩ :: history) { backend with store } := by
  rcases Store.create_eq_ok.mp made with ⟨free, filled, given, same⟩
  obtain ⟨sameHandle, rfl⟩ := Prod.mk.inj same
  have id : handle.id = backend.store.nextId := by rw [sameHandle]
  have name : handle.name = request.name := by rw [sameHandle]
  have shape : handle.shape = request.shape := by rw [sameHandle]
  have fresh : handle.name ∉ (created history).map Variable.name := by
    rw [name]
    rwa [mirrors.listed, List.mem_reverse] at free
  have added : created (⟨.create request, backend.store.generator, .ok (.created handle)⟩ :: history) =
      handle :: created history := rfl
  refine ⟨mirrors.offers, ?_, ?_, ?_, ?_, ?_⟩
  · intro other member
    rw [added] at member
    rcases List.mem_cons.mp member with rfl | old
    · exact id ▸ Nat.lt_succ_self _
    · exact Nat.lt_succ_of_lt (mirrors.ids other old)
  · rw [added, List.map_cons, List.nodup_cons]
    refine ⟨fun member => ?_, mirrors.apart⟩
    rcases List.mem_map.mp member with ⟨other, old, sameId⟩
    have below := mirrors.ids other old
    omega
  · rw [added, List.map_cons, List.reverse_cons, ← mirrors.listed, name, Keyed.keys, List.map_append]
    rfl
  · rw [added, List.map_cons, List.nodup_cons]
    exact ⟨fresh, mirrors.distinct⟩
  · intro other member
    rw [added] at member
    rcases List.mem_cons.mp member with rfl | old
    · refine ⟨⟨filled.1, request.trainable⟩, Store.slot_eq_ok.mpr ?_, ?_, .created given⟩
      · have here := Keyed.get?_insert_self request.name ({ tensor := filled.1, trainable := request.trainable } : Slot)
          backend.store.slots
        rw [Keyed.insert_of_notMem free] at here
        exact name.symm ▸ here
      · exact Initializer.shape_of_materialize given ▸ VariableRequest.admits_lengths shape
    · have differ : other.name ≠ request.name := fun same =>
        fresh (name ▸ same ▸ List.mem_map_of_mem old)
      rcases mirrors.stored other old with ⟨kept, keptFound, keptAdmits, keptHolds⟩
      refine ⟨kept, ?_, keptAdmits, .kept keptHolds ?_⟩
      · rw [Store.slot_eq_ok] at keptFound ⊢
        rw [← Keyed.insert_of_notMem free, Keyed.get?_insert_of_ne differ, keptFound]
      · exact fun equal => differ ((congrArg Variable.name (Option.some.inj equal)).symm.trans name)

/-- Every call preserves that the backend stores what the history says. -/
theorem call (call : Call) (known : ∀ handle ∈ call.uses, handle ∈ created history) :
    Mirrors (⟨call, backend.store.generator, Prod.fst <$> call.answer backend⟩ :: history) (call.leave backend) := by
  unfold Call.leave
  cases answer : call.answer backend with
  | error error => exact mirrors.idle rfl rfl
  | ok result =>
      rcases result with ⟨reply, later⟩
      cases answered mirrors.offers answer with
      | created made => exact mirrors.create made
      | assigned found admits => exact mirrors.write (known _ List.mem_cons_self) rfl rfl found admits .assigned
      | @scattered handle _ _ _ _ found overwrites =>
          rcases mirrors.stored handle (known handle List.mem_cons_self) with ⟨other, otherFound, admits, holds⟩
          obtain rfl := Except.ok.inj (found.symm.trans otherFound)
          exact mirrors.write (known handle List.mem_cons_self) rfl rfl found (overwrites.shape ▸ admits)
            (.scattered holds overwrites)
      | read handle rows tensor => exact mirrors.idle rfl rfl

end Mirrors

/-- After every history the backend stores what it says. -/
theorem Lived.mirrors {history : List Step} {backend : Backend} (lived : Lived history backend) :
    Mirrors history backend := by
  induction lived with
  | start generator => exact .start generator
  | call lived call known inductionHypothesis => exact inductionHypothesis.call call known

/-! ### What is read -/

namespace Mirrors

variable {history : List Step} {backend : Backend} (mirrors : Mirrors history backend)
include mirrors

end Mirrors

end Wiring.Backend
