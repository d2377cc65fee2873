import Wiring.Proofs.Steps
import Wiring.Session

/-!
Contract: steps that do the same on corresponding states.

Owns: `Echo`, by which two answers are successes with corresponding values or failures of one kind; `Follows`, by
which one step run at one state answers and ends as another step does at another state, up to a correspondence; and
how both pass through the constructions of steps.

Does not own: any correspondence between graphs or builds.
-/

namespace Wiring

/-- Reasons to stop that fall into kinds; a step that was cut short has none. -/
class Kinded (ε : Type) where
  kind : ε → Option ErrorKind

instance : Kinded Error where
  kind error := some error.kind

instance : Kinded Stop where
  kind
    | .failed error => some error.kind
    | .exhausted => none

variable {σ τ ε α β γ δ : Type} [Kinded ε]

/-! ### Answers -/

/-- Both succeed with corresponding values, or both fail for reasons of one kind. -/
inductive Echo (agree : α → β → Prop) : Except ε α → Except ε β → Prop where
  | ok {value : α} {other : β} (agrees : agree value other) : Echo agree (.ok value) (.ok other)
  | error {error other : ε} (same : Kinded.kind error = Kinded.kind other) : Echo agree (.error error) (.error other)

namespace Echo

variable {agree : α → β → Prop} {agreeNext : γ → δ → Prop} {answer : Except ε α} {other : Except ε β}

theorem refl (answer : Except ε α) : Echo (fun value same => same = value) answer answer := by
  cases answer with
  | ok value => exact .ok rfl
  | error error => exact .error rfl

theorem bind {next : α → Except ε γ} {nextToo : β → Except ε δ} (echo : Echo agree answer other)
    (second : ∀ value valueToo, agree value valueToo → Echo agreeNext (next value) (nextToo valueToo)) :
    Echo agreeNext (answer >>= next) (other >>= nextToo) := by
  cases echo with
  | ok agrees => exact second _ _ agrees
  | error same => exact .error same

theorem map {wrap : α → γ} {wrapToo : β → δ} (echo : Echo agree answer other)
    (wraps : ∀ value valueToo, agree value valueToo → agreeNext (wrap value) (wrapToo valueToo)) :
    Echo agreeNext (wrap <$> answer) (wrapToo <$> other) := by
  cases echo with
  | ok agrees => exact .ok (wraps _ _ agrees)
  | error same => exact .error same

theorem of_ok {value : α} (echo : Echo agree answer other) (answered : answer = .ok value) :
    ∃ valueToo, other = .ok valueToo ∧ agree value valueToo := by
  subst answered
  cases echo with
  | ok agrees => exact ⟨_, rfl, agrees⟩

theorem of_error {error : ε} (echo : Echo agree answer other) (answered : answer = .error error) :
    ∃ errorToo, other = .error errorToo ∧ Kinded.kind error = Kinded.kind errorToo := by
  subst answered
  cases echo with
  | error same => exact ⟨_, rfl, same⟩

theorem imp {weaker : α → β → Prop} (echo : Echo agree answer other)
    (implies : ∀ value valueToo, agree value valueToo → weaker value valueToo) : Echo weaker answer other := by
  cases echo with
  | ok agrees => exact .ok (implies _ _ agrees)
  | error same => exact .error same

/-- Corresponding questions about corresponding items. -/
theorem mapM {relates : γ → δ → Prop} {ask : γ → Except ε α} {askToo : δ → Except ε β} {items : List γ}
    {others : List δ} (related : List.Forall₂ relates items others)
    (each : ∀ item itemToo, relates item itemToo → Echo agree (ask item) (askToo itemToo)) :
    Echo (List.Forall₂ agree) (items.mapM ask) (others.mapM askToo) := by
  induction related with
  | nil => exact .ok .nil
  | cons head _ inductionHypothesis =>
      rw [List.mapM_cons, List.mapM_cons]
      refine (each _ _ head).bind fun value valueToo agrees => ?_
      exact inductionHypothesis.bind fun values valuesToo others => .ok (.cons agrees others)

end Echo

/-! ### Steps -/

omit [Kinded ε] in
theorem run_of_outcome {step : ExceptT ε (StateM σ) α} {state : σ} {answer : Except ε α}
    (answered : outcome step state = answer) : step.run state = (answer, after step state) := by
  rw [run_eq, answered]

/-- Run at its state, the second step answers as the first one does at its own, and leaves a corresponding state. -/
structure Follows (related : σ → τ → Prop) (agree : α → β → Prop) (step : ExceptT ε (StateM σ) α)
    (other : ExceptT ε (StateM τ) β) (state : σ) (stateToo : τ) : Prop where
  answers : Echo agree (outcome step state) (outcome other stateToo)
  leaves : related (after step state) (after other stateToo)

/-- Nothing is asked of the values that are answered. -/
abbrev Any (α β : Type) : α → β → Prop :=
  fun _ _ => True

namespace Follows

variable {related : σ → τ → Prop} {agree : α → β → Prop} {agreeNext : γ → δ → Prop}
  {step : ExceptT ε (StateM σ) α} {other : ExceptT ε (StateM τ) β} {state : σ} {stateToo : τ}

theorem pure {value : α} {valueToo : β} (holds : related state stateToo) (agrees : agree value valueToo) :
    Follows related agree (Pure.pure value : ExceptT ε (StateM σ) α) (Pure.pure valueToo : ExceptT ε (StateM τ) β)
      state stateToo :=
  ⟨.ok agrees, holds⟩

theorem throw {error errorToo : ε} (holds : related state stateToo)
    (same : Kinded.kind error = Kinded.kind errorToo) :
    Follows related agree (MonadExcept.throw error : ExceptT ε (StateM σ) α)
      (MonadExcept.throw errorToo : ExceptT ε (StateM τ) β) state stateToo :=
  ⟨.error same, holds⟩

/-- What follows may rely on where the first part has led. -/
theorem bind {next : α → ExceptT ε (StateM σ) γ} {nextToo : β → ExceptT ε (StateM τ) δ}
    (first : Follows related agree step other state stateToo)
    (second : ∀ value valueToo, agree value valueToo → outcome step state = .ok value →
      related (after step state) (after other stateToo) →
      Follows related agreeNext (next value) (nextToo valueToo) (after step state) (after other stateToo)) :
    Follows related agreeNext (step >>= next) (other >>= nextToo) state stateToo := by
  rcases first with ⟨answers, leaves⟩
  have ran : step.run state = (outcome step state, after step state) := run_eq step state
  have ranToo : other.run stateToo = (outcome other stateToo, after other stateToo) := run_eq other stateToo
  cases answered : outcome step state with
  | ok value =>
      cases answeredToo : outcome other stateToo with
      | ok valueToo =>
          rw [answered, answeredToo] at answers
          cases answers with
          | ok agrees =>
              rcases second value valueToo agrees answered leaves with ⟨answersNext, leavesNext⟩
              rw [answered] at ran
              rw [answeredToo] at ranToo
              have whole := run_bind_ok ran next
              have wholeToo := run_bind_ok ranToo nextToo
              refine ⟨?_, ?_⟩
              · rw [outcome, outcome, whole, wholeToo]
                exact answersNext
              · rw [after, after, whole, wholeToo]
                exact leavesNext
      | error errorToo =>
          rw [answered, answeredToo] at answers
          cases answers
  | error error =>
      cases answeredToo : outcome other stateToo with
      | ok valueToo =>
          rw [answered, answeredToo] at answers
          cases answers
      | error errorToo =>
          rw [answered, answeredToo] at answers
          cases answers with
          | error same =>
              rw [answered] at ran
              rw [answeredToo] at ranToo
              have whole := run_bind_error ran next
              have wholeToo := run_bind_error ranToo nextToo
              refine ⟨?_, ?_⟩
              · rw [outcome_of_run whole, outcome_of_run wholeToo]
                exact .error same
              · rw [after_of_run whole, after_of_run wholeToo]
                exact leaves

theorem imp {weaker : α → β → Prop} (follows : Follows related agree step other state stateToo)
    (implies : ∀ value valueToo, agree value valueToo → weaker value valueToo) :
    Follows related weaker step other state stateToo :=
  ⟨follows.answers.imp implies, follows.leaves⟩

theorem of_isOk (follows : Follows related agree step other state stateToo)
    (succeeds : (outcome step state).isOk = true) :
    ∃ value valueToo, outcome step state = .ok value ∧ outcome other stateToo = .ok valueToo ∧ agree value valueToo := by
  cases answered : outcome step state with
  | error error =>
      rw [answered] at succeeds
      cases succeeds
  | ok value =>
      rcases follows.answers.of_ok answered with ⟨valueToo, answeredToo, agrees⟩
      exact ⟨value, valueToo, rfl, answeredToo, agrees⟩

theorem get (holds : related state stateToo) :
    Follows related related (MonadState.get : ExceptT ε (StateM σ) σ) (MonadState.get : ExceptT ε (StateM τ) τ)
      state stateToo :=
  ⟨.ok holds, holds⟩

theorem set {given : σ} {givenToo : τ} (holds : related given givenToo) :
    Follows related (Any PUnit PUnit) (MonadStateOf.set given : ExceptT ε (StateM σ) PUnit)
      (MonadStateOf.set givenToo : ExceptT ε (StateM τ) PUnit) state stateToo :=
  ⟨.ok trivial, holds⟩

theorem modify {change : σ → σ} {changeToo : τ → τ} (holds : related (change state) (changeToo stateToo)) :
    Follows related (Any PUnit PUnit) (modify change : ExceptT ε (StateM σ) PUnit)
      (modify changeToo : ExceptT ε (StateM τ) PUnit) state stateToo :=
  ⟨.ok trivial, holds⟩

/-- Corresponding visits to corresponding items. -/
theorem forM {relates : α → β → Prop} {visit : α → ExceptT ε (StateM σ) PUnit}
    {visitToo : β → ExceptT ε (StateM τ) PUnit} {items : List α} {others : List β}
    (items_related : List.Forall₂ relates items others)
    (each : ∀ item itemToo state stateToo, relates item itemToo → related state stateToo →
      Follows related (Any PUnit PUnit) (visit item) (visitToo itemToo) state stateToo)
    (holds : related state stateToo) :
    Follows related (Any PUnit PUnit) (items.forM visit) (others.forM visitToo) state stateToo := by
  induction items_related generalizing state stateToo with
  | nil => exact .pure holds trivial
  | cons head _ inductionHypothesis =>
      exact (each _ _ _ _ head holds).bind fun _ _ _ _ leaves => inductionHypothesis leaves

theorem mapM {relates : γ → δ → Prop} {visit : γ → ExceptT ε (StateM σ) α}
    {visitToo : δ → ExceptT ε (StateM τ) β} {items : List γ} {others : List δ}
    (items_related : List.Forall₂ relates items others)
    (each : ∀ item itemToo state stateToo, relates item itemToo → related state stateToo →
      Follows related agree (visit item) (visitToo itemToo) state stateToo)
    (holds : related state stateToo) :
    Follows related (List.Forall₂ agree) (items.mapM visit) (others.mapM visitToo) state stateToo := by
  induction items_related generalizing state stateToo with
  | nil => exact .pure holds .nil
  | cons head _ inductionHypothesis =>
      rw [List.mapM_cons, List.mapM_cons]
      refine (each _ _ _ _ head holds).bind fun value valueToo agrees _ leaves => ?_
      exact (inductionHypothesis leaves).bind fun values valuesToo others _ leaves => .pure leaves (.cons agrees others)

end Follows

end Wiring
