import Wiring.Proofs.Graph.Operations.Marks
import Wiring.Session

/-!
Contract: what the trace of a build tells.

Owns: `Beat`, what one task may do to the marks of components and write into the trace; `Tale`, a sequence of
beats that may break off with a hook that fails; and what follows for the order of events: a hook that is
started was not done and becomes done at once, nothing of a component fires before its hook has finished, and a
component with a hook that is not done cannot become complete without it.

Does not own: that builds follow such tales.
-/

namespace Wiring.Build

open Wiring.Graph

/-- The component has become complete, and all else about marks, hooks and computations is as it was. -/
structure Completed (id : ComponentId) (done : Bool) (before later : Graph) : Prop where
  complete : later.isComplete = Function.update before.isComplete id true
  hookDone : later.isHookDone = Function.update before.isHookDone id done
  hook : ∀ other, before.hasHook other = true → later.hasHook other = true
  computation : ∀ other computation, before.computation? other = some computation →
    later.computation? other = some computation

inductive Beat : Graph → List Event → Graph → Prop where
  | quiet {before later : Graph} (stays : before.Stays later) : Beat before [] later
  | fires {graph : Graph} (id : ComputationId) (computation : Computation) (inputs : List OpId)
      (found : graph.computation? id = some computation) (complete : graph.isComplete computation.owner = true) :
      Beat graph [.fired id inputs] graph
  /-- There is no hook, or it is done. -/
  | completes {before later : Graph} (id : ComponentId) (incomplete : before.isComplete id = false)
      (settled : before.hasHook id = false ∨ before.isHookDone id = true) (marked : Completed id true before later) :
      Beat before [] later
  | calls {before later : Graph} (id : ComponentId) (hook : Hook) (spaces : Keyed Space)
      (incomplete : before.isComplete id = false) (pending : before.isHookDone id = false)
      (marked : Completed id true before later) :
      Beat before [.hookStarted id hook spaces, .hookFinished id] later

/-- A hook that is run. -/
structure Call where
  component : ComponentId
  hook : Hook
  spaces : Keyed Space

def Call.started (call : Call) : Event :=
  .hookStarted call.component call.hook call.spaces

/-- What happens in a build, with the call of a hook that fails if there is one. -/
inductive Tale : Graph → List Event → Graph → Option Call → Prop where
  | done (graph : Graph) : Tale graph [] graph none
  | fails {before later : Graph} (call : Call) (incomplete : before.isComplete call.component = false)
      (pending : before.isHookDone call.component = false) (has : before.hasHook call.component = true)
      (marked : Completed call.component false before later) : Tale before [call.started] later (some call)
  | beat {first middle last : Graph} {events more : List Event} {ending : Option Call}
      (beat : Beat first events middle) (tale : Tale middle more last ending) :
      Tale first (events ++ more) last ending

/-! ### One beat -/

namespace Beat

variable {before later : Graph} {events : List Event} (beat : Beat before events later)
include beat

/-- Marks stay where they are. -/
theorem complete {id : ComponentId} (was : before.isComplete id = true) : later.isComplete id = true := by
  cases beat with
  | quiet stays => rw [stays.complete, was]
  | fires => exact was
  | completes other _ _ marked =>
      rw [marked.complete, Function.update_apply]
      split
      · rfl
      · exact was
  | calls other _ _ _ _ marked =>
      rw [marked.complete, Function.update_apply]
      split
      · rfl
      · exact was

theorem hookDone {id : ComponentId} (was : before.isHookDone id = true) : later.isHookDone id = true := by
  cases beat with
  | quiet stays => rw [stays.hookDone, was]
  | fires => exact was
  | completes other _ _ marked =>
      rw [marked.hookDone, Function.update_apply]
      split
      · rfl
      · exact was
  | calls other _ _ _ _ marked =>
      rw [marked.hookDone, Function.update_apply]
      split
      · rfl
      · exact was

theorem hook {id : ComponentId} (has : before.hasHook id = true) : later.hasHook id = true := by
  cases beat with
  | quiet stays => exact stays.hook id has
  | fires => exact has
  | completes _ _ _ marked => exact marked.hook id has
  | calls _ _ _ _ _ marked => exact marked.hook id has

theorem computation {id : ComputationId} {computation : Computation}
    (found : before.computation? id = some computation) : later.computation? id = some computation := by
  cases beat with
  | quiet stays => exact stays.computation id computation found
  | fires => exact found
  | completes _ _ _ marked => exact marked.computation id computation found
  | calls _ _ _ _ _ marked => exact marked.computation id computation found

/-- A component whose completion does not change keeps the mark of its hook. -/
theorem hookDone_eq {id : ComponentId} (same : later.isComplete id = before.isComplete id) :
    later.isHookDone id = before.isHookDone id := by
  have other {other : ComponentId} (incomplete : before.isComplete other = false)
      (marked : Completed other true before later) : later.isHookDone id = before.isHookDone id := by
    rw [marked.hookDone, Function.update_apply]
    split
    · next isOther =>
        subst isOther
        rw [marked.complete, Function.update_self, incomplete] at same
        cases same
    · rfl
  cases beat with
  | quiet stays => rw [stays.hookDone]
  | fires => rfl
  | completes _ incomplete _ marked => exact other incomplete marked
  | calls _ _ _ incomplete _ marked => exact other incomplete marked

/-- A hook that is started was not done, in a component that was not complete. -/
theorem started {id : ComponentId} {hook : Hook} {spaces : Keyed Space}
    (member : .hookStarted id hook spaces ∈ events) :
    before.isComplete id = false ∧ before.isHookDone id = false ∧ .hookFinished id ∈ events := by
  cases beat with
  | quiet => cases member
  | fires => simp at member
  | completes => cases member
  | calls other _ _ incomplete pending =>
      obtain ⟨rfl, rfl, rfl⟩ : id = other ∧ hook = _ ∧ spaces = _ := by simpa using member
      exact ⟨incomplete, pending, by simp⟩

theorem finished {id : ComponentId} (member : .hookFinished id ∈ events) : later.isHookDone id = true := by
  cases beat with
  | quiet => cases member
  | fires => simp at member
  | completes => cases member
  | calls other _ _ _ _ marked =>
      obtain rfl : id = other := by simpa using member
      rw [marked.hookDone, Function.update_self]

/-- A component with a hook that is not done becomes complete by running it. -/
theorem calls_of_complete {id : ComponentId} (incomplete : before.isComplete id = false)
    (pending : before.isHookDone id = false) (has : before.hasHook id = true)
    (complete : later.isComplete id = true) : ∃ hook spaces, .hookStarted id hook spaces ∈ events := by
  have own {other : ComponentId} {done : Bool} (marked : Completed other done before later) : other = id := by
    rw [marked.complete, Function.update_apply] at complete
    by_contra apart
    rw [if_neg (Ne.symm apart), incomplete] at complete
    cases complete
  cases beat with
  | quiet stays =>
      rw [stays.complete, incomplete] at complete
      cases complete
  | fires =>
      rw [incomplete] at complete
      cases complete
  | completes other _ settled marked =>
      obtain rfl := own marked
      rcases settled with none | done
      · rw [none] at has
        cases has
      · rw [done] at pending
        cases pending
  | calls other hook spaces _ _ marked =>
      obtain rfl := own marked
      exact ⟨hook, spaces, List.mem_cons_self⟩

end Beat

/-! ### A whole tale -/

namespace Tale

variable {first last : Graph} {events : List Event} {ending : Option Call} (tale : Tale first events last ending)
include tale

theorem complete {id : ComponentId} (was : first.isComplete id = true) : last.isComplete id = true := by
  induction tale with
  | done => exact was
  | fails call _ _ _ marked =>
      rw [marked.complete, Function.update_apply]
      split
      · rfl
      · exact was
  | beat beat _ inductionHypothesis => exact inductionHypothesis (beat.complete was)

theorem hookDone {id : ComponentId} (was : first.isHookDone id = true) : last.isHookDone id = true := by
  induction tale with
  | done => exact was
  | fails call _ pending _ marked =>
      rw [marked.hookDone, ← pending, Function.update_eq_self]
      exact was
  | beat beat _ inductionHypothesis => exact inductionHypothesis (beat.hookDone was)

theorem hook {id : ComponentId} (has : first.hasHook id = true) : last.hasHook id = true := by
  induction tale with
  | done => exact has
  | fails call _ _ _ marked => exact marked.hook id has
  | beat beat _ inductionHypothesis => exact inductionHypothesis (beat.hook has)

theorem computation {id : ComputationId} {computation : Computation}
    (found : first.computation? id = some computation) : last.computation? id = some computation := by
  induction tale with
  | done => exact found
  | fails call _ _ _ marked => exact marked.computation id computation found
  | beat beat _ inductionHypothesis => exact inductionHypothesis (beat.computation found)

theorem hookDone_eq {id : ComponentId} (same : last.isComplete id = first.isComplete id) :
    last.isHookDone id = first.isHookDone id := by
  induction tale with
  | done => rfl
  | fails call _ pending _ marked => rw [marked.hookDone, ← pending, Function.update_eq_self]
  | @beat before middle _ _ _ _ beat rest inductionHypothesis =>
      -- What is complete in between is complete before or afterwards.
      have between : middle.isComplete id = before.isComplete id := by
        cases was : before.isComplete id with
        | true => exact beat.complete was
        | false =>
            cases now : middle.isComplete id with
            | false => rfl
            | true => rw [← same, rest.complete now] at was; cases was
      exact (inductionHypothesis (same.trans between.symm)).trans (beat.hookDone_eq between)

/-- A hook that is started was not done at the beginning, and its component was not complete. -/
theorem started {id : ComponentId} {hook : Hook} {spaces : Keyed Space}
    (member : .hookStarted id hook spaces ∈ events) :
    first.isComplete id = false ∧ first.isHookDone id = false := by
  induction tale with
  | done => cases member
  | fails call incomplete pending =>
      obtain ⟨rfl, rfl, rfl⟩ : id = call.component ∧ hook = call.hook ∧ spaces = call.spaces := by
        simpa [Call.started] using member
      exact ⟨incomplete, pending⟩
  | beat beat _ inductionHypothesis =>
      rcases List.mem_append.mp member with now | later
      · exact ⟨(beat.started now).1, (beat.started now).2.1⟩
      · rcases inductionHypothesis later with ⟨incomplete, pending⟩
        constructor
        · by_contra complete
          rw [beat.complete (Bool.not_eq_false _ ▸ complete)] at incomplete
          cases incomplete
        · by_contra done
          rw [beat.hookDone (Bool.not_eq_false _ ▸ done)] at pending
          cases pending

theorem finished {id : ComponentId} (member : .hookFinished id ∈ events) : last.isHookDone id = true := by
  induction tale with
  | done => cases member
  | fails call => simp [Call.started] at member
  | beat beat rest inductionHypothesis =>
      rcases List.mem_append.mp member with now | later
      · exact rest.hookDone (beat.finished now)
      · exact inductionHypothesis later

/-- No hook is started after it has finished. -/
theorem not_restarted : events.Pairwise fun earlier later =>
    ∀ id hook spaces, earlier = .hookFinished id → later ≠ .hookStarted id hook spaces := by
  induction tale with
  | done => exact .nil
  | fails => exact List.pairwise_singleton _ _
  | beat beat rest inductionHypothesis =>
      refine List.pairwise_append.mpr ⟨?_, inductionHypothesis, ?_⟩
      · cases beat with
        | quiet => exact .nil
        | fires => exact List.pairwise_singleton _ _
        | completes => exact .nil
        | calls id hook spaces =>
            refine List.pairwise_pair.mpr fun other _ _ same => ?_
            cases same
      · rintro _ now _ later id hook spaces rfl rfl
        have pending := (rest.started later).2
        rw [beat.finished now] at pending
        cases pending

/-- Where a hook is started at all, it has finished before a computation of its component fires. -/
theorem finished_before {before after : List Event} {id : ComputationId} {inputs : List OpId}
    {computation : Computation} (split : events = before ++ .fired id inputs :: after)
    (found : last.computation? id = some computation) {hook : Hook} {spaces : Keyed Space}
    (member : .hookStarted computation.owner hook spaces ∈ events) :
    .hookFinished computation.owner ∈ before := by
  induction tale generalizing before with
  | done => cases member
  | fails call =>
      have fired : .fired id inputs ∈ [call.started] := split ▸ List.mem_append_right _ List.mem_cons_self
      simp [Call.started] at fired
  | beat beat rest inductionHypothesis =>
      cases beat with
      | quiet => exact inductionHypothesis split found member
      | completes => exact inductionHypothesis split found member
      | fires other known given knownFound complete =>
          have later := (List.mem_cons.mp member).resolve_left (by simp)
          cases before with
          | nil =>
              -- The component has fired, so it is complete, and its hook is not started any more.
              rcases List.cons.inj split with ⟨same, -⟩
              cases same
              obtain rfl := Option.some.inj ((rest.computation knownFound).symm.trans found)
              rw [(rest.started later).1] at complete
              cases complete
          | cons head before =>
              exact List.mem_cons_of_mem _ (inductionHypothesis (List.cons.inj split).2 found later)
      | calls other otherHook otherSpaces =>
          rcases before with _ | ⟨head, _ | ⟨next, before⟩⟩
          · cases (List.cons.inj split).1
          · cases (List.cons.inj (List.cons.inj split).2).1
          · rcases List.cons.inj split with ⟨-, tails⟩
            rcases List.cons.inj tails with ⟨finished, tails⟩
            by_cases same : computation.owner = other
            · rw [same, ← finished]
              exact List.mem_cons_of_mem _ List.mem_cons_self
            · have later := member
              simp only [List.cons_append, List.nil_append, List.mem_cons, Event.hookStarted.injEq, same, false_and,
                reduceCtorEq, false_or] at later
              exact List.mem_cons_of_mem _ (List.mem_cons_of_mem _ (inductionHypothesis tails found later))

/-- A component with a hook that is not done becomes complete by running it, whatever becomes of the hook. -/
theorem calls_of_complete {id : ComponentId} (incomplete : first.isComplete id = false)
    (pending : first.isHookDone id = false) (has : first.hasHook id = true) (complete : last.isComplete id = true) :
    ∃ hook spaces, .hookStarted id hook spaces ∈ events := by
  induction tale with
  | done =>
      rw [incomplete] at complete
      cases complete
  | fails call _ _ _ marked =>
      rw [marked.complete, Function.update_apply] at complete
      by_cases same : id = call.component
      · exact ⟨call.hook, call.spaces, same ▸ List.mem_cons_self⟩
      · rw [if_neg same, incomplete] at complete
        cases complete
  | @beat _ middle _ _ _ _ beat _ inductionHypothesis =>
      cases now : middle.isComplete id with
      | true =>
          rcases beat.calls_of_complete incomplete pending has now with ⟨hook, spaces, member⟩
          exact ⟨hook, spaces, List.mem_append_left _ member⟩
      | false =>
          have pendingStill := (beat.hookDone_eq (now.trans incomplete.symm)).trans pending
          rcases inductionHypothesis now pendingStill (beat.hook has) complete with ⟨hook, spaces, member⟩
          exact ⟨hook, spaces, List.mem_append_right _ member⟩

/-- A hook that is started finishes, unless it is the one with which the tale breaks off. -/
theorem finished_or_last {before after : List Event} {id : ComponentId} {hook : Hook} {spaces : Keyed Space}
    (split : events = before ++ .hookStarted id hook spaces :: after) (unfinished : .hookFinished id ∉ after) :
    after = [] ∧ ending = some ⟨id, hook, spaces⟩ := by
  induction tale generalizing before with
  | done => simp at split
  | fails call =>
      cases before with
      | nil =>
          rcases List.cons.inj split with ⟨same, rfl⟩
          cases same
          exact ⟨rfl, rfl⟩
      | cons head before => simp at split
  | beat beat rest inductionHypothesis =>
      cases beat with
      | quiet => exact inductionHypothesis split
      | completes => exact inductionHypothesis split
      | fires other known given =>
          cases before with
          | nil => cases (List.cons.inj split).1
          | cons head before => exact inductionHypothesis (List.cons.inj split).2
      | calls other otherHook otherSpaces =>
          rcases before with _ | ⟨head, _ | ⟨next, before⟩⟩
          · rcases List.cons.inj split with ⟨same, tails⟩
            cases same
            exact absurd (tails ▸ List.mem_cons_self) unfinished
          · cases (List.cons.inj (List.cons.inj split).2).1
          · exact inductionHypothesis (List.cons.inj (List.cons.inj split).2).2

/-- A hook that fails is not done. -/
theorem owes {call : Call} (ends : ending = some call) :
    last.isHookDone call.component = false ∧ last.hasHook call.component = true := by
  induction tale with
  | done => cases ends
  | fails other _ pending has marked =>
      obtain rfl := Option.some.inj ends
      rw [marked.hookDone, Function.update_self]
      exact ⟨rfl, marked.hook _ has⟩
  | beat _ _ inductionHypothesis => exact inductionHypothesis ends

end Tale

end Wiring.Build
