import Wiring.Proofs.Build.Hooks
import Wiring.Proofs.Build.Progress

/-!
Contract: which hooks are not skipped.

Owns: `Hooked`, by which a component has a hook at the step at which it becomes complete; `Prepared`, the histories in
which this is so in every build; `Accounted`, by which the marks of such a component tell of hooks in the trace; and that
in these histories a component becomes complete in a build that returns a report only if a hook of it has succeeded by
then.

Does not own: components that became complete before they had a hook, whose hook is marked as done.
-/

namespace Wiring

open Relation (ReflTransGen)
open Build

namespace Build.Tale

variable {first last : Graph} {events : List Event} {ending : Option Call} (tale : Tale first events last ending)
include tale

theorem started_of_finished {id : ComponentId} (member : .hookFinished id ∈ events) :
    ∃ hook spaces, .hookStarted id hook spaces ∈ events := by
  induction tale with
  | done => cases member
  | fails call => simp [Call.started] at member
  | beat beat _ inductionHypothesis =>
      rcases List.mem_append.mp member with now | later
      · cases beat with
        | quiet => cases now
        | fires => simp at now
        | completes => cases now
        | calls other hook spaces =>
            obtain rfl : id = other := by simpa using now
            exact ⟨hook, spaces, List.mem_append_left _ List.mem_cons_self⟩
      · rcases inductionHypothesis later with ⟨hook, spaces, started⟩
        exact ⟨hook, spaces, List.mem_append_right _ started⟩

/-- A hook that is started finishes, unless the tale breaks off with a hook of the component. -/
theorem finished_of_started {id : ComponentId} {hook : Hook} {spaces : Keyed Space}
    (member : .hookStarted id hook spaces ∈ events) (whole : ∀ call, ending = some call → call.component ≠ id) :
    .hookFinished id ∈ events := by
  rcases List.append_of_mem member with ⟨before, after, split⟩
  by_contra unfinished
  have notAfter : .hookFinished id ∉ after := by
    intro finished
    rw [split] at unfinished
    exact unfinished (List.mem_append_right _ (List.mem_cons_of_mem _ finished))
  exact whole _ (tale.finished_or_last split notAfter).2 rfl

/-- A hook becomes done only where its component becomes complete. -/
theorem completes_of_done {id : ComponentId} (pending : first.isHookDone id = false)
    (done : last.isHookDone id = true) : first.isComplete id = false ∧ last.isComplete id = true := by
  have changes : last.isComplete id ≠ first.isComplete id := by
    intro same
    rw [tale.hookDone_eq same, pending] at done
    cases done
  have incomplete : first.isComplete id = false := by
    by_contra was
    rw [Bool.not_eq_false] at was
    exact changes ((tale.complete was).trans was.symm)
  rw [incomplete] at changes
  exact ⟨incomplete, Bool.not_eq_false _ ▸ changes⟩

end Build.Tale

namespace Session

/-! ### Histories -/

/-- At the step of a build at which the component becomes complete it has a hook. -/
def Hooked (id : ComponentId) (hooks : HookRunner) (fuel : Nat) (root : ComponentId) (config : BuildConfig)
    (session : Session) : Prop :=
  ∀ steps < fuel, (stepped hooks root config session steps).graph.isComplete id = false →
    (stepped hooks root config session (steps + 1)).graph.isComplete id = true →
    (stepped hooks root config session steps).graph.hasHook id = true

/-- Such are the builds of sessions in which the component has a hook already. -/
theorem Hooked.of_hasHook {id : ComponentId} {hooks : HookRunner} (hooksEdit : hooks.Edits) {session : Session}
    (sound : Graph.Sound session.graph) (has : session.graph.hasHook id = true) (fuel : Nat) (root : ComponentId)
    (config : BuildConfig) : Hooked id hooks fuel root config session := by
  intro steps _ _ _
  rcases run_tells hooksEdit sound (run_eq (run hooks steps root config) session) with ⟨_, _, _, _, recounted⟩
  exact recounted.tale.hook (recounted.clears.hook id has)

/-- An edit, or a build in which the component does not become complete without a hook. -/
inductive Prepares (id : ComponentId) : Session → Session → Prop where
  | edit (session : Session) (graph : Graph) (edits : session.graph.Edits graph) :
      Prepares id session { session with graph }
  | build (hooks : HookRunner) (fuel : Nat) (root : ComponentId) (config : BuildConfig) (session : Session)
      (hooksEdit : hooks.Edits) (hooked : Hooked id hooks fuel root config session) :
      Prepares id session (after (run hooks fuel root config) session)

/-- A session in which the component never became complete without a hook. -/
def Prepared (id : ComponentId) (session : Session) : Prop :=
  ∃ backend : Backend, ReflTransGen (Prepares id) { graph := { backend } } session

theorem Prepares.advances {id : ComponentId} {session later : Session} (prepares : Prepares id session later) :
    session.Advances later := by
  cases prepares with
  | edit _ graph edits => exact .edit session graph edits
  | build hooks fuel root config _ hooksEdit hooked => exact .build hooks fuel root config session hooksEdit

theorem Prepared.lived {id : ComponentId} {session : Session} (prepared : session.Prepared id) : session.Lived := by
  rcases prepared with ⟨backend, history⟩
  exact ⟨backend, ReflTransGen.mono (fun _ _ => Prepares.advances) _ _ history⟩

/-! ### Marks and the trace -/

/-- A mark tells of a hook in the trace. -/
structure Accounted (id : ComponentId) (session : Session) : Prop where
  done : session.graph.isHookDone id = true → .hookFinished id ∈ session.trace.toList
  complete : session.graph.isComplete id = true → ∃ hook spaces, .hookStarted id hook spaces ∈ session.trace.toList
  finished : .hookFinished id ∈ session.trace.toList →
    ∃ hook spaces, .hookStarted id hook spaces ∈ session.trace.toList

namespace Accounted

variable {id : ComponentId} {session final : Session}

theorem empty (backend : Backend) (id : ComponentId) : Accounted id { graph := { backend } } where
  done is := by simp [Graph.isHookDone, Graph.component?] at is
  complete is := by simp [Graph.isComplete, Graph.component?] at is
  finished member := nomatch member

theorem edit (accounted : Accounted id session) {graph : Graph} (edits : session.graph.Edits graph) :
    Accounted id { session with graph } where
  done is := accounted.done (edits.stays.hookDone ▸ is)
  complete is := accounted.complete (edits.stays.complete ▸ is)
  finished := accounted.finished

section Build

variable {hooks : HookRunner} {fuel : Nat} {root : ComponentId} {config : BuildConfig} {answer : Except Stop Report}
  {members : List ComponentId} {opened : Graph} {events : List Event} {ending : Option Call}
  (accounted : Accounted id session)
  (recounted : Recounted hooks root session final answer members opened events ending)
include recounted

/-- What is in the trace of the session or happens in the build is in the trace of the final session. -/
theorem mem_trace {event : Event} : event ∈ final.trace.toList ↔
    event ∈ session.trace.toList ∨ event = .buildStarted root ∨ event ∈ events := by
  rw [recounted.trace, List.mem_append, List.mem_cons]

/-- A component that is incomplete when the work begins is so before its first step. -/
theorem incomplete_stepped (sound : Graph.Sound session.graph) (incomplete : opened.isComplete id = false) :
    (stepped hooks root config session 0).graph.isComplete id = false := by
  cases listed : session.graph.subtree root with
  | error error =>
      have outside : id ∉ members := by
        rw [← recounted.listed, listed]
        exact List.not_mem_nil
      rw [stepped, after_of_run (run_unlisted listed)]
      exact (recounted.clears.others id outside).symm.trans incomplete
  | ok found =>
      obtain rfl : found = members := by rw [← recounted.listed, listed]; rfl
      rw [stepped_zero sound listed, Graph.isComplete_wiped]
      by_cases member : id ∈ found
      · rw [if_pos member]
      · rw [if_neg member]
        exact (recounted.clears.others id member).symm.trans incomplete

variable (hooksEdit : hooks.Edits) (sound : Graph.Sound session.graph)
  (ran : (run hooks fuel root config).run session = (answer, final)) (hooked : Hooked id hooks fuel root config session)
include hooksEdit sound ran hooked

/-- A component that becomes complete, and whose hook is not done, starts a hook. -/
theorem starts (incomplete : opened.isComplete id = false) (pending : opened.isHookDone id = false)
    (complete : final.graph.isComplete id = true) : ∃ hook spaces, .hookStarted id hook spaces ∈ events := by
  have last : stepped hooks root config session fuel = final := after_of_run ran
  rcases exists_step (incomplete_stepped recounted sound incomplete) (last.symm ▸ complete) with
    ⟨steps, below, before, now⟩
  -- At this step the component has a hook, which is not done.
  have has := hooked steps below before now
  rcases run_tells hooksEdit sound (run_eq (run hooks steps root config) session) with ⟨_, _, earlier, _, begun⟩
  have pendingStill : (stepped hooks root config session steps).graph.isHookDone id = false := by
    by_contra done
    rw [Bool.not_eq_false] at done
    rw [recounted.clears.hookDone, ← begun.clears.hookDone] at pending
    exact Bool.false_ne_true (before.symm.trans (begun.tale.completes_of_done pending done).2)
  rcases stepped_continues hooksEdit sound steps with ⟨new, _, trace, tale⟩
  rcases tale.calls_of_complete before pendingStill has now with ⟨hook, spaces, started⟩
  -- What happens at the step is part of the build.
  rcases stepped_trace hooksEdit sound below with ⟨rest, whole⟩
  have same : earlier ++ new ++ rest = events := by
    have begunTrace : (stepped hooks root config session steps).trace.toList = _ := begun.trace
    rw [last, trace, recounted.trace, begunTrace] at whole
    simpa using whole
  exact ⟨hook, spaces, same ▸ List.mem_append_left rest (List.mem_append_right earlier started)⟩

include accounted

theorem build : Accounted id final where
  done is := by
    rw [mem_trace recounted]
    cases was : session.graph.isHookDone id with
    | true => exact .inl (accounted.done was)
    | false =>
        have pending : opened.isHookDone id = false := recounted.clears.hookDone ▸ was
        rcases recounted.tale.completes_of_done pending is with ⟨incomplete, complete⟩
        rcases starts recounted hooksEdit sound ran hooked incomplete pending complete with ⟨hook, spaces, started⟩
        refine .inr (.inr (recounted.tale.finished_of_started started fun call ends own => ?_))
        rw [← own, (recounted.tale.owes ends).1] at is
        cases is
  complete is := by
    simp only [mem_trace recounted]
    cases was : opened.isComplete id with
    | true =>
        -- The component is no member, so it was complete before the build.
        have outside : id ∉ members := by
          intro member
          rw [recounted.cleared id member] at was
          cases was
        rcases accounted.complete (recounted.clears.others id outside ▸ was) with ⟨hook, spaces, started⟩
        exact ⟨hook, spaces, .inl started⟩
    | false =>
        cases done : opened.isHookDone id with
        | true =>
            rw [recounted.clears.hookDone] at done
            rcases accounted.finished (accounted.done done) with ⟨hook, spaces, started⟩
            exact ⟨hook, spaces, .inl started⟩
        | false =>
            rcases starts recounted hooksEdit sound ran hooked was done is with ⟨hook, spaces, started⟩
            exact ⟨hook, spaces, .inr (.inr started)⟩
  finished member := by
    rcases (mem_trace recounted).mp member with old | is | new
    · rcases accounted.finished old with ⟨hook, spaces, started⟩
      exact ⟨hook, spaces, (mem_trace recounted).mpr (.inl started)⟩
    · cases is
    · rcases recounted.tale.started_of_finished new with ⟨hook, spaces, started⟩
      exact ⟨hook, spaces, (mem_trace recounted).mpr (.inr (.inr started))⟩

/-- In a build that returns a report, a component becomes complete only if a hook of it succeeds or has done so. -/
theorem finishes (completes : Completes root session.graph final.graph id)
    (whole : ∀ stop, answer ≠ .error stop) : .hookFinished id ∈ final.trace.toList := by
  rw [mem_trace recounted]
  cases was : session.graph.isHookDone id with
  | true => exact .inl (accounted.done was)
  | false =>
      have pending : opened.isHookDone id = false := recounted.clears.hookDone ▸ was
      rcases starts recounted hooksEdit sound ran hooked (recounted.opened_incomplete completes) pending completes.1 with
        ⟨hook, spaces, started⟩
      refine .inr (.inr (recounted.tale.finished_of_started started fun call ends _ => ?_))
      rcases recounted.stopped call ends with ⟨_, stop, -, -, stopped⟩
      exact whole stop stopped

end Build

end Accounted

theorem Prepared.accounted {id : ComponentId} {session : Session} (prepared : session.Prepared id) :
    Accounted id session := by
  rcases prepared with ⟨backend, history⟩
  induction history with
  | refl => exact .empty backend id
  | tail earlier last inductionHypothesis =>
      cases last with
      | edit _ graph edits => exact inductionHypothesis.edit edits
      | build hooks fuel root config _ hooksEdit hooked =>
          have sound := (Prepared.lived ⟨backend, earlier⟩).reachable.sound
          rcases run_tells hooksEdit sound (run_eq (run hooks fuel root config) _) with ⟨_, _, _, _, recounted⟩
          exact inductionHypothesis.build recounted hooksEdit sound (run_eq _ _) hooked

/-- Over any history of operations and builds, whose hooks do operations but start no builds, and in which a component
never became complete without a hook: after a build that returns a report, a hook of the component has been started if
it is complete, in this build or before. If it has become complete in this build, a hook of it has succeeded. -/
theorem Prepared.hook_has_run {id : ComponentId} {session final : Session} (prepared : session.Prepared id)
    {hooks : HookRunner} (hooksEdit : hooks.Edits) {fuel : Nat} {root : ComponentId} {config : BuildConfig}
    {report : Report} (ran : (run hooks fuel root config).run session = (.ok report, final))
    (hooked : Hooked id hooks fuel root config session) :
    (final.graph.isComplete id = true → ∃ hook spaces, .hookStarted id hook spaces ∈ final.trace.toList) ∧
    (Completes root session.graph final.graph id → .hookFinished id ∈ final.trace.toList) := by
  have sound := prepared.lived.reachable.sound
  rcases run_tells hooksEdit sound ran with ⟨_, _, _, _, recounted⟩
  exact ⟨(prepared.accounted.build recounted hooksEdit sound ran hooked).complete, fun completes =>
    prepared.accounted.finishes recounted hooksEdit sound ran hooked completes fun _ same => nomatch same⟩

end Session

/-! ### Hooks that are skipped -/

/-- The hook has succeeded. -/
def hookedSession : Session :=
  reboundSession.built ⟨0⟩ {}

/-- Another hook has taken its place. -/
def rehookedSession : Session :=
  hookedSession.edited (Graph.setHook ⟨0⟩ (.script []))

/-- A component that has nothing to do with the first one. -/
def apart : GraphM Unit := do
  let other ← Graph.create { scope := "apart" }
  let _ ← Graph.defineInputs other ["in"] (some (.box {}))

/-- The hook has failed, and there is another component. -/
def failedSession : Session :=
  (needySession.built ⟨0⟩ {}).edited apart

theorem lived_rehookedSession : rehookedSession.Lived := by
  have unbound : ((needySession.built ⟨0⟩ {}).edited unbind).Lived :=
    (lived_needySession.built ⟨0⟩ {}).edited (Graph.Edits.of_step (.disconnect ..))
  have rebound : reboundSession.Lived := unbound.edited (Graph.Edits.of_step (.connect ..))
  exact (rebound.built ⟨0⟩ {}).edited (Graph.Edits.of_step (.setHook ..))

theorem lived_failedSession : failedSession.Lived := by
  refine (lived_needySession.built ⟨0⟩ {}).edited ?_
  refine Keeps.bind (Graph.Edits.of_step (.create _)) fun other => ?_
  exact Keeps.bind (Graph.Edits.of_step (.defineInputs other _ _)) fun _ => Keeps.pure _

/-- A hook that takes the place of one that has succeeded is not started in a build that returns a report, though its
component becomes complete. And where a hook has failed, its component stays complete in a build of another subtree,
which returns a report without running it. -/
theorem hooks_are_skipped :
    (rehookedSession.Lived ∧ (outcome (Build.run batching 60 ⟨0⟩ {}) rehookedSession).isOk = true ∧
      (rehookedSession.built ⟨0⟩ {}).graph.isComplete ⟨0⟩ = true ∧
      (rehookedSession.built ⟨0⟩ {}).graph.hasHook ⟨0⟩ = true ∧
      (rehookedSession.built ⟨0⟩ {}).starts ⟨0⟩ = hookedSession.starts ⟨0⟩) ∧
    failedSession.Lived ∧ (outcome (Build.run batching 60 ⟨1⟩ {}) failedSession).isOk = true ∧
      (failedSession.built ⟨1⟩ {}).graph.isComplete ⟨0⟩ = true ∧
      (failedSession.built ⟨1⟩ {}).graph.hasHook ⟨0⟩ = true ∧
      (failedSession.built ⟨1⟩ {}).finishes ⟨0⟩ = 0 := by
  refine ⟨⟨lived_rehookedSession, ?_⟩, lived_failedSession, ?_⟩
  · decide +kernel
  · decide +kernel

/-- A component with a hook is never complete without one. -/
theorem prepared_reboundSession : reboundSession.Prepared ⟨0⟩ := by
  have edit {session : Session} (step : GraphM Unit) (edits : Keeps Graph.Edits step) :
      Session.Prepares ⟨0⟩ session (session.edited step) := .edit session _ (edits session.graph)
  have began : Session.Prepared ⟨0⟩ needySession := by
    refine ⟨{}, .single (edit needy ?_)⟩
    refine Keeps.bind (Graph.Edits.of_step (.create _)) fun part => ?_
    refine Keeps.bind (Graph.Edits.of_step (.defineInputs part _ _)) fun _ => ?_
    exact Graph.Edits.of_step (.setHook part _)
  rcases began with ⟨backend, history⟩
  refine ⟨backend, ((history.tail ?_).tail (edit unbind ?_)).tail (edit bindBatched ?_)⟩
  · refine .build batching 60 ⟨0⟩ {} needySession batching_edits ?_
    exact .of_hasHook batching_edits lived_needySession.reachable.sound (by decide +kernel) 60 ⟨0⟩ {}
  · exact Graph.Edits.of_step (.disconnect ..)
  · exact Graph.Edits.of_step (.connect ..)

/-- The hook failed at first and has succeeded in the end. -/
theorem hook_has_run_rebound : (∃ hook spaces, .hookStarted ⟨0⟩ hook spaces ∈ hookedSession.trace.toList) ∧
    .hookFinished ⟨0⟩ ∈ hookedSession.trace.toList := by
  have general (session final : Session) (is : session.built ⟨0⟩ {} = final) (prepared : session.Prepared ⟨0⟩)
      (succeeds : (outcome (Build.run batching 60 ⟨0⟩ {}) session).isOk = true)
      (has : session.graph.hasHook ⟨0⟩ = true) (listed : (session.graph.subtree ⟨0⟩).toOption = some [⟨0⟩])
      (complete : final.graph.isComplete ⟨0⟩ = true) :
      (∃ hook spaces, .hookStarted ⟨0⟩ hook spaces ∈ final.trace.toList) ∧
        .hookFinished ⟨0⟩ ∈ final.trace.toList := by
    cases answered : outcome (Build.run batching 60 ⟨0⟩ {}) session with
    | error stop =>
        rw [answered] at succeeds
        cases succeeds
    | ok report =>
        have ran : (Build.run batching 60 ⟨0⟩ {}).run session = (.ok report, final) := Prod.ext answered is
        have members : ∃ members, session.graph.subtree ⟨0⟩ = .ok members ∧ ⟨0⟩ ∈ members :=
          ⟨[⟨0⟩], except_toOption_eq_some.mp listed, List.mem_singleton_self _⟩
        have hooked := Session.Hooked.of_hasHook batching_edits prepared.lived.reachable.sound has 60 ⟨0⟩ {}
        rcases prepared.hook_has_run batching_edits ran hooked with ⟨started, finished⟩
        exact ⟨started complete, finished ⟨complete, .inr members⟩⟩
  exact general reboundSession hookedSession rfl prepared_reboundSession (by decide +kernel) (by decide +kernel)
    (by decide +kernel) (by decide +kernel)

end Wiring
