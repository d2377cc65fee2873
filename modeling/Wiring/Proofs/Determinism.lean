import Wiring.Proofs.Steps
import Wiring.Method

/-!
Contract: methods whose results depend on their inputs only.

Owns: `Agrees`, by which two runs that both succeed from logs of one size return the same and leave logs of one
size; deterministic methods; and that firings with such a method agree, split or not, even of different
components.

Does not own: the records in the log, which name the component that made an op.
-/

namespace Wiring

variable {α β : Type}

/-- What succeeds in both runs is the same, and so is the number of ops that it records. -/
def Recording.Agrees (first second : Recording α) : Prop :=
  ∀ recorder other value valueToo final finalToo, recorder.log.size = other.log.size →
    first recorder = .ok (value, final) → second other = .ok (valueToo, finalToo) →
      value = valueToo ∧ final.log.size = finalToo.log.size

/-- Two running methods see the same flat key and backend; they may be of different components. -/
structure MethodContext.Alike (context other : MethodContext) : Prop where
  key : context.key = other.key
  backend : context.backend = other.backend

/-- The returned ops depend on nothing but the inputs, the flat key and the kind of backend. -/
def Method.Deterministic (method : Method) : Prop :=
  ∀ context other : MethodContext, context.Alike other → ∀ inputs,
    Recording.Agrees (method.run context inputs) (method.run other inputs)

namespace Recording.Agrees

theorem pure (value : α) : Agrees (Pure.pure value : Recording α) (Pure.pure value) := by
  intro recorder other value valueToo final finalToo sizes ran ranToo
  cases ran
  cases ranToo
  exact ⟨rfl, sizes⟩

/-- A run that fails agrees with every other one. -/
theorem throw (error : Error) (second : Recording α) : Agrees (MonadExcept.throw error) second := by
  intro recorder other value valueToo final finalToo sizes ran
  cases ran

theorem bind {first second : Recording α} {next nextToo : α → Recording β} (agrees : Agrees first second)
    (nextAgrees : ∀ value, Agrees (next value) (nextToo value)) :
    Agrees (first >>= next) (second >>= nextToo) := by
  intro recorder other value valueToo final finalToo sizes ran ranToo
  rcases except_bind_eq_ok.mp ran with ⟨⟨between, middle⟩, firstRan, ran⟩
  rcases except_bind_eq_ok.mp ranToo with ⟨⟨betweenToo, middleToo⟩, secondRan, ranToo⟩
  rcases agrees _ _ _ _ _ _ sizes firstRan secondRan with ⟨rfl, middleSizes⟩
  exact nextAgrees between _ _ _ _ _ _ middleSizes ran ranToo

theorem record {context other : MethodContext} (label : String) (inputs : List OpId) (space : Space) :
    Agrees (context.record label inputs space) (other.record label inputs space) := by
  intro recorder started op opToo final finalToo sizes ran ranToo
  cases ran
  cases ranToo
  refine ⟨?_, ?_⟩
  · show (⟨⟨recorder.log.size⟩, space⟩ : DataOp) = ⟨⟨started.log.size⟩, space⟩
    rw [sizes]
  · show (recorder.log.push _).2.size = (started.log.push _).2.size
    rw [OpLog.size_push, OpLog.size_push, sizes]

theorem mapM {visit visitToo : α → Recording β} (agrees : ∀ item, Agrees (visit item) (visitToo item))
    (items : List α) : Agrees (items.mapM visit) (items.mapM visitToo) := by
  induction items with
  | nil => exact pure []
  | cons first rest inductionHypothesis =>
      rw [List.mapM_cons, List.mapM_cons]
      exact (agrees first).bind fun value => inductionHypothesis.bind fun values => pure (value :: values)

end Recording.Agrees

/-! ### Firings -/

namespace Method

open Recording

variable {method : Method} {context other : MethodContext}

theorem agrees_call (deterministic : method.Deterministic) (alike : context.Alike other) (inputs : List DataOp) :
    Agrees (method.call context inputs) (method.call other inputs) := by
  refine (deterministic context other alike inputs).bind fun returned => ?_
  by_cases many : returned.length = method.outputs
  · simp only [if_pos many]
    exact .pure returned
  · simp only [if_neg many]
    exact .throw _ _

theorem agrees_splitInput (key : String) (input : DataOp) :
    Agrees (splitInput context key input) (splitInput other key input) := by
  unfold splitInput
  split
  · cases Keyed.get? input.space.flatten key with
    | some part => exact .record _ _ _
    | none => exact .throw _ _
  · exact .pure input

theorem agrees_callForKey (deterministic : method.Deterministic) (alike : context.Alike other)
    (settings : Settings) (inputs : List DataOp) (key : String) :
    Agrees (method.callForKey settings context inputs key) (method.callForKey settings other inputs key) := by
  have parts : Agrees (inputs.mapM (splitInput context key)) (inputs.mapM (splitInput other key)) :=
    .mapM (agrees_splitInput key) inputs
  refine parts.bind fun parts => ?_
  refine (agrees_call deterministic ?_ parts).bind fun outputs => .pure (key, outputs)
  exact ⟨rfl, alike.backend⟩

theorem agrees_merge (settings : Settings) (calls : List (String × List DataOp)) (j : Nat) :
    Agrees (merge settings context calls j) (merge settings other calls j) := by
  unfold merge
  dsimp only
  split
  · split
    · exact .record _ _ _
    · exact .throw _ _
  · exact .record _ _ _

/-- Firings with a deterministic method agree. -/
theorem agrees_apply (deterministic : method.Deterministic) (alike : context.Alike other) (settings : Settings)
    (inputs : List DataOp) :
    Agrees (method.apply settings context inputs) (method.apply settings other inputs) := by
  unfold apply
  split
  · have calls : Agrees ((splitKeys inputs).mapM (method.callForKey settings context inputs))
        ((splitKeys inputs).mapM (method.callForKey settings other inputs)) :=
      .mapM (agrees_callForKey deterministic alike settings inputs) (splitKeys inputs)
    exact calls.bind fun calls => .mapM (agrees_merge settings calls) (List.range method.outputs)
  · refine agrees_call deterministic ?_ inputs
    exact ⟨rfl, alike.backend⟩

end Method

end Wiring
