import Wiring.Proofs.Build.Telling

/-!
Contract: builds step by step.

Owns: that a build with one more step of fuel continues the build without it, by a tale of its own; that the trace only
grows with the steps; and the step at which a component becomes complete.

Does not own: how much fuel a build needs, which is the concern of its termination.
-/

namespace Wiring.Build

open Wiring.Graph

variable {hooks : HookRunner} {session : Session} {root : ComponentId} {config : BuildConfig}

/-- What happens from the one session to the other is told by a tale. -/
def Continues (session later : Session) : Prop :=
  ∃ events ending, later.trace.toList = session.trace.toList ++ events ∧
    Tale session.graph events later.graph ending

instance : Std.Refl Continues where
  refl session := ⟨[], none, (List.append_nil _).symm, .done session.graph⟩

instance : Std.Refl (Order.Preimage BuildState.session Continues) where
  refl state := Std.Refl.refl state.session

/-- One more step of the work. -/
theorem work_continues (hooksEdit : hooks.Edits) (steps : Nat) {state : BuildState} {tasks : List Task}
    (underway : Underway state.graph tasks) :
    Order.Preimage BuildState.session Continues (after (work hooks steps tasks) state)
      (after (work hooks (steps + 1) tasks) state) := by
  induction steps generalizing state tasks with
  | zero =>
      rcases work_tells state hooksEdit 1 underway with ⟨events, ending, tells, tale, -⟩
      exact ⟨events, ending, tells, tale⟩
  | succ steps inductionHypothesis =>
      cases tasks with
      | nil =>
          refine after_bind_related (Order.Preimage BuildState.session Continues) fun answer served => ?_
          cases answer with
          | none => exact Std.Refl.refl (after serve state)
          | some more => exact inductionHypothesis (underway.serve served)
      | cons task waiting =>
          refine after_bind_related (Order.Preimage BuildState.session Continues) fun more performed => ?_
          exact inductionHypothesis (underway.perform hooksEdit performed)

/-- The session after some steps of a build. -/
def stepped (hooks : HookRunner) (root : ComponentId) (config : BuildConfig) (session : Session) (steps : Nat) :
    Session :=
  after (run hooks steps root config) session

/-- One more step of a build. -/
theorem stepped_continues (hooksEdit : hooks.Edits) (sound : Sound session.graph) (steps : Nat) :
    Continues (stepped hooks root config session steps) (stepped hooks root config session (steps + 1)) := by
  unfold stepped
  cases listed : session.graph.subtree root with
  | error error =>
      rw [after_of_run (run_unlisted listed), after_of_run (run_unlisted listed)]
      exact Std.Refl.refl _
  | ok members =>
      rw [after_run sound listed, after_run sound listed]
      exact work_continues hooksEdit steps (.initial (sound.wiped members) members)

/-- The trace grows with the steps. -/
theorem stepped_trace (hooksEdit : hooks.Edits) (sound : Sound session.graph) {steps fuel : Nat} (most : steps ≤ fuel) :
    (stepped hooks root config session steps).trace.toList <+: (stepped hooks root config session fuel).trace.toList := by
  induction most with
  | refl => exact List.prefix_rfl
  | @step fuel _ inductionHypothesis =>
      have continues : Continues (stepped hooks root config session fuel) _ := stepped_continues hooksEdit sound fuel
      rcases continues with ⟨events, -, trace, -⟩
      exact inductionHypothesis.trans ⟨events, trace.symm⟩

/-- Before its first step a build has reset the members of the subtree. -/
theorem stepped_zero {members : List ComponentId} (sound : Sound session.graph)
    (listed : session.graph.subtree root = .ok members) :
    (stepped hooks root config session 0).graph = session.graph.wiped members :=
  congrArg Session.graph (after_run sound listed)

/-- What becomes complete does so at some step. -/
theorem exists_step {id : ComponentId} {fuel : Nat}
    (incomplete : (stepped hooks root config session 0).graph.isComplete id = false)
    (complete : (stepped hooks root config session fuel).graph.isComplete id = true) :
    ∃ steps < fuel, (stepped hooks root config session steps).graph.isComplete id = false ∧
      (stepped hooks root config session (steps + 1)).graph.isComplete id = true := by
  induction fuel with
  | zero =>
      rw [incomplete] at complete
      cases complete
  | succ fuel inductionHypothesis =>
      cases was : (stepped hooks root config session fuel).graph.isComplete id with
      | false => exact ⟨fuel, Nat.lt_succ_self fuel, was, complete⟩
      | true =>
          rcases inductionHypothesis was with ⟨steps, below, turns⟩
          exact ⟨steps, Nat.lt_succ_of_lt below, turns⟩

end Wiring.Build
