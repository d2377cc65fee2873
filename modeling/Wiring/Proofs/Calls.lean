import Wiring.Proofs.Methods

/-!
Contract: how many ops a firing calls its method with, and which of its errors are those of the method.

Owns: that a firing depends only on how its method runs on as many ops as the firing has, split or not; and that a
firing fails for its own reasons, which are known, or with an error that such a run of the method has answered.

Does not own: which ops these are.
-/

namespace Wiring.Method

variable {method : Method} {settings : Settings} {context : MethodContext} {inputs : List DataOp}

/-- Items that are visited alike, with what comes of them put to the same use. -/
theorem mapM_congr {α β : Type} {left right : α → Recording β} {items : List α}
    (alike : ∀ item ∈ items, left item = right item) : items.mapM left = items.mapM right := by
  induction items with
  | nil => rfl
  | cons first rest inductionHypothesis =>
      rw [List.mapM_cons, List.mapM_cons, alike first List.mem_cons_self,
        inductionHypothesis fun item member => alike item (List.mem_cons_of_mem first member)]

/-- A recording that comes first and returns what is needed makes the rest run alike. -/
theorem bind_congr {α β : Type} {first : Recording α} {left right : α → Recording β}
    (alike : ∀ recorder value final, first recorder = .ok (value, final) → left value final = right value final) :
    (first >>= left) = (first >>= right) := by
  funext recorder
  show Except.bind (first recorder) (fun ran => left ran.1 ran.2) =
    Except.bind (first recorder) (fun ran => right ran.1 ran.2)
  cases ran : first recorder with
  | error error => rfl
  | ok answer => exact alike recorder answer.1 answer.2 ran

/-! ### Numbers of ops -/

section SameRuns

variable {run : MethodContext → List DataOp → Recording (List DataOp)} (count : Nat)
  (alike : ∀ context given, given.length = count → run context given = method.run context given)
include alike

theorem call_congr (context : MethodContext) {given : List DataOp} (length : given.length = count) :
    { method with run }.call context given = method.call context given := by
  show (run context given >>= _) = (method.run context given >>= _)
  rw [alike context given length]

/-- A firing does not depend on how its method runs on any other number of ops. -/
theorem apply_congr (length : inputs.length = count) :
    { method with run }.apply settings context inputs = method.apply settings context inputs := by
  have keyed (key : String) : { method with run }.callForKey settings context inputs key =
      method.callForKey settings context inputs key := by
    refine bind_congr fun recorder parts final split => ?_
    rw [call_congr count alike _ ((length_mapM split).trans length)]
  unfold apply
  split
  · rw [mapM_congr fun key _ => keyed key]
  · exact call_congr count alike _ length

end SameRuns

/-! ### Errors -/

/-- Whatever the recording fails with is allowed. -/
def FailsWith {α : Type} (allowed : Error → Prop) (recording : Recording α) : Prop :=
  ∀ recorder error, recording recorder = .error error → allowed error

namespace FailsWith

variable {α β : Type} {allowed : Error → Prop}

theorem pure (value : α) : FailsWith allowed (Pure.pure value : Recording α) := by
  intro recorder error failed
  cases failed

theorem throw {error : Error} (may : allowed error) :
    FailsWith allowed (MonadExcept.throw error : Recording α) := by
  intro recorder other failed
  cases failed
  exact may

theorem record (context : MethodContext) (label : String) (ids : List OpId) (space : Space) :
    FailsWith allowed (context.record label ids space) := by
  intro recorder error failed
  cases failed

/-- The second part may rely on how the first one has returned. -/
theorem bind {first : Recording α} {next : α → Recording β} (fails : FailsWith allowed first)
    (nextFails : ∀ recorder value final, first recorder = .ok (value, final) → FailsWith allowed (next value)) :
    FailsWith allowed (first >>= next) := by
  intro recorder error failed
  rcases except_bind_eq_error.mp failed with here | ⟨⟨value, final⟩, ran, later⟩
  · exact fails recorder error here
  · exact nextFails recorder value final ran final error later

theorem mapM {visit : α → Recording β} {items : List α} (fails : ∀ item ∈ items, FailsWith allowed (visit item)) :
    FailsWith allowed (items.mapM visit) := by
  intro recorder error failed
  rcases Recording.of_mapM_error failed with ⟨done, next, rest, _, middle, rfl, -, failed⟩
  exact fails next (by simp) middle error failed

end FailsWith

/-- Why a firing on as many ops fails. -/
inductive Refuses (method : Method) (count : Nat) : Error → Prop where
  /-- The method returned a wrong number of ops. -/
  | outputs (returned : Nat) : Refuses method count (.outputCount method.name returned method.outputs)
  /-- A container has no part at the key. -/
  | key (space : Space) (key : String) : Refuses method count (.splitKeyMissing space key)
  /-- The keys do not fit together. -/
  | keys (fault : FlatKey.Fault) : Refuses method count (.flatKeys fault)
  /-- The method failed, called with as many ops. -/
  | method {context : MethodContext} {given : List DataOp} {recorder : Recorder} {error : Error}
      (length : given.length = count) (answered : method.run context given recorder = .error error) :
      Refuses method count error

theorem call_fails (context : MethodContext) {count : Nat} (length : inputs.length = count) :
    FailsWith (method.Refuses count) (method.call context inputs) := by
  refine FailsWith.bind (fun recorder error answered => .method length answered) fun _ returned _ _ => ?_
  split
  · exact .pure returned
  · exact .throw (.outputs _)

theorem splitInput_fails (context : MethodContext) (key : String) (input : DataOp) (count : Nat) :
    FailsWith (method.Refuses count) (splitInput context key input) := by
  unfold splitInput
  split
  · cases Keyed.get? input.space.flatten key with
    | some part => exact .record context _ _ _
    | none => exact .throw (.key _ _)
  · exact .pure input

theorem merge_fails (settings : Settings) (context : MethodContext) (calls : List (String × List DataOp)) (j : Nat)
    (count : Nat) : FailsWith (method.Refuses count) (merge settings context calls j) := by
  unfold merge
  dsimp only
  split
  · split
    · exact .record context _ _ _
    · exact .throw (.keys _)
  · exact .record context _ _ _

/-- A firing fails for a reason of its own or with what its method answered, called with as many ops. -/
theorem apply_fails (method : Method) (settings : Settings) (context : MethodContext) (inputs : List DataOp) :
    FailsWith (method.Refuses inputs.length) (method.apply settings context inputs) := by
  have keyed (key : String) :
      FailsWith (method.Refuses inputs.length) (method.callForKey settings context inputs key) := by
    refine (FailsWith.mapM fun input _ => splitInput_fails context key input _).bind fun _ parts _ split => ?_
    exact (call_fails _ (length_mapM split)).bind fun _ _ _ _ => .pure _
  unfold apply
  split
  · exact (FailsWith.mapM fun key _ => keyed key).bind fun _ calls _ _ =>
      .mapM fun j _ => merge_fails settings context calls j _
  · exact call_fails _ rfl

end Wiring.Method
