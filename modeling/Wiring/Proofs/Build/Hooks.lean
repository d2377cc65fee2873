import Wiring.Proofs.Build.Telling

/-!
Contract: when hooks run.

Owns: `Consistent`, what the trace of a session says about the marks of its hooks; what a hook is called with,
in that nothing depends on how hooks answer other calls; `Passes`, what may happen before a component becomes
complete again; and that over any history of operations and builds a hook runs until it has succeeded once, and
then never again.
-/

namespace Wiring

open Relation (ReflTransGen)
open Build

/-! ### The trace and the marks -/

/-- What has finished is marked, and was not started afterwards. -/
structure Session.Consistent (session : Session) : Prop where
  finished : ∀ id, .hookFinished id ∈ session.trace.toList → session.graph.isHookDone id = true
  notRestarted : session.trace.toList.Pairwise fun earlier later =>
    ∀ id hook spaces, earlier = .hookFinished id → later ≠ .hookStarted id hook spaces

namespace Session.Consistent

theorem empty (backend : Backend) : Consistent { graph := { backend } } where
  finished _ member := nomatch member
  notRestarted := .nil

theorem edit {session : Session} (consistent : session.Consistent) {graph : Graph}
    (edits : session.graph.Edits graph) : Consistent { session with graph } where
  finished id member := edits.stays.hookDone ▸ consistent.finished id member
  notRestarted := consistent.notRestarted

theorem build {hooks : HookRunner} {root : ComponentId} {session final : Session} {answer : Except Stop Report}
    {members : List ComponentId} {opened : Graph} {events : List Event} {ending : Option Call}
    (consistent : session.Consistent)
    (recounted : Recounted hooks root session final answer members opened events ending) : final.Consistent := by
  have tale := recounted.tale
  have before {id : ComponentId} (member : .hookFinished id ∈ session.trace.toList) :
      opened.isHookDone id = true := by
    rw [recounted.clears.hookDone]
    exact consistent.finished id member
  constructor
  · intro id member
    rw [recounted.trace] at member
    rcases List.mem_append.mp member with old | new
    · exact tale.hookDone (before old)
    · exact tale.finished ((List.mem_cons.mp new).resolve_left (by simp))
  · rw [recounted.trace]
    refine List.pairwise_append.mpr
      ⟨consistent.notRestarted, List.pairwise_cons.mpr ⟨?_, tale.not_restarted⟩, ?_⟩
    · intro later _ id hook spaces same
      cases same
    · rintro earlier old later new id hook spaces rfl rfl
      have member := (List.mem_cons.mp new).resolve_left (by simp)
      have pending := (tale.started member).2
      rw [before old] at pending
      cases pending

end Session.Consistent

theorem Session.Lived.consistent {session : Session} (lived : session.Lived) : session.Consistent := by
  rcases lived with ⟨backend, history⟩
  have reachable {session : Session} (history : ReflTransGen Advances { graph := { backend } } session) :
      session.graph.Reachable := Lived.reachable ⟨backend, history⟩
  induction history with
  | refl => exact .empty backend
  | tail earlier last inductionHypothesis =>
      cases last with
      | edit _ graph edits => exact inductionHypothesis.edit edits
      | build hooks fuel root config _ hooksEdit =>
          rcases run_tells hooksEdit (reachable earlier).sound (run_eq (run hooks fuel root config) _) with
            ⟨_, _, _, _, recounted⟩
          exact inductionHypothesis.build recounted

namespace Build

/-! ### What a hook is called with -/

/-- The spaces are those of the sockets, each under the name of its socket, in the same order. -/
def Resolved (graph : Graph) (sockets : List SocketId) (spaces : Keyed Space) : Prop :=
  List.Forall₂ (fun id entry => ∃ socket, graph.socket? id = some socket ∧ socket.name = entry.1 ∧
    socket.space = some entry.2) sockets spaces

theorem resolved_of_inputSpaces {graph : Graph} {sockets : List SocketId} {spaces : List (String × Space)}
    (known : inputSpaces? graph sockets = .ok (some spaces)) : Resolved graph sockets spaces := by
  induction sockets generalizing spaces with
  | nil =>
      obtain rfl := Option.some.inj (Except.ok.inj known)
      exact .nil
  | cons id rest inductionHypothesis =>
      unfold inputSpaces? at known
      rcases except_bind_eq_ok.mp known with ⟨socket, held, known⟩
      cases resolved : socket.space with
      | none =>
          rw [resolved] at known
          cases known
      | some space =>
          rw [resolved] at known
          rcases except_bind_eq_ok.mp known with ⟨more, knownMore, known⟩
          cases more with
          | none => cases known
          | some more =>
              obtain rfl := Option.some.inj (Except.ok.inj known)
              exact .cons ⟨socket, Graph.heldSocket_eq_ok.mp held, rfl, resolved⟩ (inductionHypothesis knownMore)

/-- Different sockets of one component have different names. -/
theorem Resolved.distinctKeys {graph : Graph} (sound : Graph.SocketsSound graph) {owner : ComponentId}
    {sockets : List SocketId} {spaces : Keyed Space} (resolved : Resolved graph sockets spaces)
    (owned : ∀ id ∈ sockets, ∀ socket, graph.socket? id = some socket → socket.owner = owner)
    (once : sockets.Nodup) : spaces.DistinctKeys := by
  induction resolved with
  | nil => exact Keyed.distinctKeys_nil
  | @cons id entry sockets spaces first rest inductionHypothesis =>
      rcases first with ⟨socket, held, name, -⟩
      rcases List.nodup_cons.mp once with ⟨new, once⟩
      refine List.nodup_cons.mpr ⟨fun member => ?_, inductionHypothesis (fun other member => owned other
        (List.mem_cons_of_mem id member)) once⟩
      rcases List.mem_map.mp member with ⟨other, otherMember, same⟩
      rcases forall₂_of_mem_right rest otherMember with ⟨twin, twinMember, twinSocket, twinHeld, twinName, -⟩
      have owners : socket.owner = twinSocket.owner :=
        (owned id List.mem_cons_self socket held).trans
          (owned twin (List.mem_cons_of_mem id twinMember) twinSocket twinHeld).symm
      obtain rfl := sound.named id twin socket twinSocket held twinHeld owners
        (name.trans (same.symm.trans twinName.symm))
      exact new twinMember

/-- A call of a hook as it should be: the trace ends with it, the hook is that of the component, and it is given
the spaces of all in-sockets of the component. -/
structure Called (given : Session) (hook : Hook) (id : ComponentId) (spaces : Keyed Space) : Prop where
  noted : given.trace.back? = some (.hookStarted id hook spaces)
  component : ∃ node, given.graph.component? id = some node ∧ node.hook = some hook ∧
    Resolved given.graph node.inputs spaces

/-- Hooks that answer alike where they are called as they should be. -/
def SameCalls (left right : HookRunner) : Prop :=
  ∀ hook id spaces given, Called given hook id spaces →
    (left hook id spaces).run given = (right hook id spaces).run given

section SameCalls

variable {left right : HookRunner}

theorem runHook_congr {state : BuildState} {id : ComponentId} {node : Component} {spaces : Keyed Space}
    (same : ∀ hook, node.hook = some hook →
      (left hook id spaces).run (calling state.session ⟨id, hook, spaces⟩) =
        (right hook id spaces).run (calling state.session ⟨id, hook, spaces⟩)) :
    (runHook left id node spaces).run state = (runHook right id node spaces).run state := by
  unfold runHook
  cases chosen : node.hook with
  | none => rfl
  | some hook =>
      dsimp only
      split
      · rfl
      · have alike : (do
            Session.record (.hookStarted id hook spaces)
            left hook id spaces
            Session.record (.hookFinished id)).run state.session = (do
            Session.record (.hookStarted id hook spaces)
            right hook id spaces
            Session.record (.hookFinished id)).run state.session :=
          run_bind_congr rfl fun _ _ => run_bind_congr (same hook chosen) fun _ _ => rfl
        rw [run_ofSession, run_ofSession, outcome_of_run alike, after_of_run alike]
        rfl

theorem check_congr (same : SameCalls left right) {state : BuildState} (sound : Graph.Sound state.graph)
    (id : ComponentId) : (check left id).run state = (check right id).run state := by
  rcases run_check state id with ⟨answer, ran, -⟩ | ⟨node, spaces, found, -, known, ran⟩
  · rw [ran left, ran right]
  rw [ran left, ran right, run_completing found, run_completing found]
  refine run_bind_congr (runHook_congr fun hook chosen => ?_) fun _ _ => rfl
  have resolved := resolved_of_inputSpaces known
  have ports := sound.sockets.ports id node found
  have distinct : Keyed.DistinctKeys spaces := by
    have owned (socket : SocketId) (member : socket ∈ node.inputs) (held : Socket)
        (heldSocket : state.graph.socket? socket = some held) : held.owner = id := by
      rcases (ports.inputs socket).mp member with ⟨other, otherHeld, owned, -⟩
      obtain rfl := Option.some.inj (heldSocket.symm.trans otherHeld)
      exact owned
    exact resolved.distinctKeys sound.sockets owned (List.nodup_append.mp (List.nodup_append.mp ports.once).1).1
  rw [Keyed.ofList_of_distinctKeys distinct]
  refine same hook id spaces _ ⟨Array.back?_push, node.markComplete, ?_, chosen, resolved⟩
  show (state.graph.changeComponent id Component.markComplete).component? id = _
  rw [Graph.component?_changeComponent, if_pos rfl, found]
  rfl

theorem perform_congr (same : SameCalls left right) {state : BuildState} (sound : Graph.Sound state.graph)
    (task : Task) : (perform left task).run state = (perform right task).run state := by
  cases task with
  | check id => exact check_congr same sound id
  | _ => rfl

/-- The work of a build does not depend on other calls. -/
theorem work_congr (same : SameCalls left right) (edits : right.Edits) (fuel : Nat) {tasks : List Task}
    (state : BuildState) (sound : Graph.Sound state.graph) (fed : ∀ task ∈ tasks, Fed state.graph task) :
    (work left fuel tasks).run state = (work right fuel tasks).run state := by
  induction fuel generalizing tasks state with
  | zero => rfl
  | succ fuel inductionHypothesis =>
      cases tasks with
      | nil =>
          refine run_bind_congr rfl fun answer served => ?_
          cases answer with
          | none => rfl
          | some tasks =>
              have graph := serve_graph state
              exact inductionHypothesis (after serve state) (graph ▸ sound) (graph ▸ serve_fed served)
      | cons task waiting =>
          refine run_bind_congr (perform_congr same sound task) fun tasks answered => ?_
          have changes := changes_perform edits (fed task List.mem_cons_self)
          refine inductionHypothesis _ (sound.changes changes) fun other member => ?_
          rcases List.mem_append.mp member with new | old
          · exact answers_perform right task state tasks answered other new _
          · exact Fed.later (fun _ _ changes _ _ => Graph.Changes.feeds changes) changes
              (fed other (List.mem_cons_of_mem task old))

theorem run_congr (same : SameCalls left right) (edits : right.Edits) {session : Session}
    (sound : Graph.Sound session.graph) (fuel : Nat) (root : ComponentId) (config : BuildConfig) :
    (run left fuel root config).run session = (run right fuel root config).run session := by
  cases listed : session.graph.subtree root with
  | error error => rw [run_unlisted listed, run_unlisted listed]
  | ok members =>
      have exist : ∀ member ∈ members, ∃ node, session.graph.component? member = some node :=
        fun member isMember => Graph.subtree_found sound.tree listed isMember
      have cleared := run_resets members sound.sockets exist
      have worked := work_congr same edits fuel (startState session root (session.graph.wiped members))
        (sound.wiped members) (fed_initialTasks members _)
      rw [run_conclude listed cleared, run_conclude listed cleared, outcome_of_run worked, after_of_run worked]
      rfl

end SameCalls

/-! ### Until a hook has succeeded -/

/-- The component was incomplete when the work of a build began, and is complete after it. -/
def Completes (root : ComponentId) (before later : Graph) (id : ComponentId) : Prop :=
  later.isComplete id = true ∧
    (before.isComplete id = false ∨ ∃ members, before.subtree root = .ok members ∧ id ∈ members)

/-- The component has a hook that is not done. -/
def Owes (graph : Graph) (id : ComponentId) : Prop :=
  graph.isHookDone id = false ∧ graph.hasHook id = true

namespace Recounted

variable {hooks : HookRunner} {root : ComponentId} {session final : Session} {answer : Except Stop Report}
  {members : List ComponentId} {opened : Graph} {events : List Event} {ending : Option Call}
  (recounted : Recounted hooks root session final answer members opened events ending)
include recounted

theorem opened_owes {id : ComponentId} (owes : Owes session.graph id) : Owes opened id :=
  ⟨recounted.clears.hookDone ▸ owes.1, recounted.clears.hook id owes.2⟩

/-- A component that becomes complete was incomplete when the work began. -/
theorem opened_incomplete {id : ComponentId} (completes : Completes root session.graph final.graph id) :
    opened.isComplete id = false := by
  by_cases member : id ∈ members
  · exact recounted.cleared id member
  · rw [recounted.clears.others id member]
    rcases completes.2 with incomplete | ⟨listed, same, isMember⟩
    · exact incomplete
    · rw [← recounted.listed, same] at member
      exact absurd isMember member

/-- A component that becomes complete runs the hook that it owes. -/
theorem calls {id : ComponentId} (owes : Owes session.graph id)
    (completes : Completes root session.graph final.graph id) : ∃ hook spaces, .hookStarted id hook spaces ∈ events := by
  rcases recounted.opened_owes owes with ⟨pending, has⟩
  exact recounted.tale.calls_of_complete (recounted.opened_incomplete completes) pending has completes.1

/-- Otherwise it still owes it. -/
theorem still_owes {id : ComponentId} (owes : Owes session.graph id)
    (not : ¬ Completes root session.graph final.graph id) : Owes final.graph id := by
  rcases recounted.opened_owes owes with ⟨pending, has⟩
  refine ⟨(recounted.tale.hookDone_eq ?_).trans pending, recounted.tale.hook has⟩
  cases now : final.graph.isComplete id with
  | false =>
      cases was : opened.isComplete id with
      | false => rfl
      | true =>
          rw [recounted.tale.complete was] at now
          cases now
  | true =>
      -- It was complete before the build, which does not concern it.
      rcases not_or.mp (not_and.mp not now) with ⟨complete, outside⟩
      have outside : id ∉ members := by
        intro member
        cases listed : session.graph.subtree root with
        | error error =>
            rw [← recounted.listed, listed] at member
            cases member
        | ok found =>
            rw [← recounted.listed, listed] at member
            exact outside ⟨found, listed, member⟩
      rw [recounted.clears.others id outside]
      exact (Bool.not_eq_false _ ▸ complete : session.graph.isComplete id = true).symm

end Recounted

end Build

/-- An edit, or a build in which the component does not become complete. -/
inductive Session.Passes (id : ComponentId) : Session → Session → Prop where
  | edit (session : Session) (graph : Graph) (edits : session.graph.Edits graph) :
      Passes id session { session with graph }
  | build (hooks : HookRunner) (fuel : Nat) (root : ComponentId) (config : BuildConfig) (session : Session)
      (hooksEdit : hooks.Edits)
      (not : ¬ Completes root session.graph (after (run hooks fuel root config) session).graph id) :
      Passes id session (after (run hooks fuel root config) session)

theorem Session.Passes.advances {id : ComponentId} {session later : Session} (passes : Passes id session later) :
    session.Advances later := by
  cases passes with
  | edit _ graph edits => exact .edit session graph edits
  | build hooks fuel root config _ hooksEdit not => exact .build hooks fuel root config session hooksEdit

/-- What a component owes it owes until it becomes complete. -/
theorem Session.Lived.still_owes {session later : Session} (lived : session.Lived) {id : ComponentId}
    (passes : ReflTransGen (Session.Passes id) session later) (owes : Owes session.graph id) :
    later.Lived ∧ Owes later.graph id := by
  induction passes with
  | refl => exact ⟨lived, owes⟩
  | tail _ last inductionHypothesis =>
      rcases inductionHypothesis with ⟨livedThere, owesThere⟩
      refine ⟨livedThere.advances last.advances, ?_⟩
      cases last with
      | edit _ graph edits => exact ⟨edits.stays.hookDone ▸ owesThere.1, edits.stays.hook id owesThere.2⟩
      | build hooks fuel root config _ hooksEdit not =>
          rcases run_tells hooksEdit livedThere.reachable.sound (run_eq (run hooks fuel root config) _) with
            ⟨_, _, _, _, recounted⟩
          exact recounted.still_owes owesThere not

/-- Over any history of operations and builds, whose hooks do operations but start no builds: no hook of a
component starts after one of them has finished. Hooks are only called with the spaces of all in-sockets, by
name and in order; how they answer other calls makes no difference. A hook that starts in a build finishes before
a computation of its component fires in it, if it finishes at all. If it does not, it has failed and the build
stops with its error, and the next build in which the component becomes complete starts a hook of it again. -/
theorem Session.Lived.hooks_run_until_done {session final : Session} (lived : session.Lived) {hooks : HookRunner}
    (hooksEdit : hooks.Edits) {fuel : Nat} {root : ComponentId} {config : BuildConfig} {answer : Except Stop Report}
    (ran : (run hooks fuel root config).run session = (answer, final)) :
    (final.trace.toList.Pairwise fun earlier later =>
      ∀ id hook spaces, earlier = .hookFinished id → later ≠ .hookStarted id hook spaces) ∧
    (∀ others : HookRunner, SameCalls others hooks →
      (run others fuel root config).run session = (run hooks fuel root config).run session) ∧
    ∃ events, final.trace.toList = session.trace.toList ++ .buildStarted root :: events ∧
      (∀ before later computation inputs bound hook spaces, events = before ++ .fired computation inputs :: later →
        final.graph.computation? computation = some bound → .hookStarted bound.owner hook spaces ∈ events →
        .hookFinished bound.owner ∈ before) ∧
      ∀ before later id hook spaces, events = before ++ .hookStarted id hook spaces :: later →
        .hookFinished id ∉ later →
        (∃ given stop, given.trace = final.trace ∧ outcome (hooks hook id spaces) given = .error stop ∧
          answer = .error stop) ∧
        ∀ next, ReflTransGen (Session.Passes id) final next →
          ∀ (hooks : HookRunner) (fuel : Nat) (root : ComponentId) (config : BuildConfig), hooks.Edits →
          Completes root next.graph (after (run hooks fuel root config) next).graph id →
          ∃ more hook spaces, (after (run hooks fuel root config) next).trace.toList =
            next.trace.toList ++ .buildStarted root :: more ∧ .hookStarted id hook spaces ∈ more := by
  have sound := lived.reachable.sound
  rcases run_tells hooksEdit sound ran with ⟨members, opened, events, ending, recounted⟩
  have livedFinal : final.Lived := after_of_run ran ▸ lived.advances (.build hooks fuel root config session hooksEdit)
  refine ⟨(lived.consistent.build recounted).notRestarted,
    fun others same => run_congr same hooksEdit sound fuel root config, events, recounted.trace, ?_, ?_⟩
  · intro before later computation inputs bound hook spaces split found started
    exact recounted.tale.finished_before split found started
  · intro before later id hook spaces split unfinished
    rcases recounted.tale.finished_or_last split unfinished with ⟨-, ends⟩
    refine ⟨recounted.stopped _ ends, fun next passes hooks fuel root config hooksEdit completes => ?_⟩
    rcases livedFinal.still_owes passes (recounted.tale.owes ends) with ⟨livedNext, owes⟩
    rcases run_tells hooksEdit livedNext.reachable.sound (run_eq (run hooks fuel root config) next) with
      ⟨_, _, more, _, again⟩
    rcases again.calls owes completes with ⟨hook, spaces, started⟩
    exact ⟨more, hook, spaces, again.trace, started⟩

/-! ### A hook that fails at first -/

/-- Hooks that fail unless the space of the in-socket has a batch rank. -/
def batching : HookRunner := fun _ _ spaces =>
  if (Keyed.get? spaces "in").any Space.hasBatchRank then pure ⟨⟩
  else Session.fail (.raised .configuration "needs a batch rank")

theorem batching_edits : batching.Edits := by
  intro hook id spaces given
  have still : Keeps Eq (batching hook id spaces) := by
    unfold batching
    split
    · exact Keeps.pure _
    · exact Keeps.throw _
  rw [← still given]
  exact ⟨.refl, rfl⟩

namespace Session

/-- The session after some operations. -/
def edited (session : Session) (step : GraphM Unit) : Session :=
  { session with graph := after step session.graph }

/-- The session after a build. -/
def built (session : Session) (root : ComponentId) (config : BuildConfig) : Session :=
  after (run batching 60 root config) session

theorem Lived.edited {session : Session} (lived : session.Lived) {step : GraphM Unit}
    (edits : Keeps Graph.Edits step) : (session.edited step).Lived :=
  lived.advances (.edit session _ (edits session.graph))

theorem Lived.built {session : Session} (lived : session.Lived) (root : ComponentId) (config : BuildConfig) :
    (session.built root config).Lived :=
  lived.advances (.build batching 60 root config session batching_edits)

/-- How often hooks of a component have been started. -/
def starts (session : Session) (id : ComponentId) : Nat :=
  session.trace.toList.countP fun
    | .hookStarted other _ _ => other = id
    | _ => false

/-- How often they have finished. -/
def finishes (session : Session) (id : ComponentId) : Nat :=
  session.trace.toList.countP fun
    | .hookFinished other => other = id
    | _ => false

theorem exists_of_starts {session : Session} {id : ComponentId} (starts : 0 < session.starts id) :
    ∃ hook spaces, .hookStarted id hook spaces ∈ session.trace.toList := by
  rcases List.countP_pos_iff.mp starts with ⟨event, member, isStart⟩
  cases event with
  | hookStarted other hook spaces =>
      obtain rfl := of_decide_eq_true isStart
      exact ⟨hook, spaces, member⟩
  | _ => cases isStart

theorem notMem_of_finishes {session : Session} {id : ComponentId} (finishes : session.finishes id = 0) :
    .hookFinished id ∉ session.trace.toList :=
  fun member => List.countP_eq_zero.mp finishes _ member (decide_eq_true rfl)

end Session

/-- A box with a batch rank. -/
def batched : Space :=
  .box { batchRank := true }

/-- A component with a hook and a space without a batch rank. -/
def needy : GraphM Unit := do
  let part ← Graph.create { scope := "needy" }
  let _ ← Graph.defineInputs part ["in"] (some (.box {}))
  Graph.setHook part (.script [.needBatchRank "in"])

def unbind : GraphM Unit :=
  Graph.disconnect ⟨0⟩ (.space (.box {})) (.socket (.named "in"))

def bindBatched : GraphM Unit :=
  Graph.connect ⟨0⟩ (.space batched) (.socket (.named "in"))

/-- Another component, not in the subtree of the first, feeds it with a batch rank. -/
def feed : GraphM Unit := do
  let source ← Graph.create { scope := "source" }
  let _ ← Graph.defineInputs source ["given"] (some batched)
  Graph.connect source (.socket (.named "given")) (.component ⟨0⟩)

/-- The session before the hook has run. -/
def needySession : Session :=
  { graph := after needy {} }

theorem lived_needySession : needySession.Lived := by
  refine ⟨{}, .single (.edit _ (after needy {}) ?_)⟩
  have edits : Keeps Graph.Edits needy := by
    refine Keeps.bind (Graph.Edits.of_step (.create _)) fun part => ?_
    refine Keeps.bind (Graph.Edits.of_step (.defineInputs part _ _)) fun _ => ?_
    exact Graph.Edits.of_step (.setHook part _)
  exact edits {}

/-- The hook has failed, and the component has lost its space. -/
def unfedSession : Session :=
  ((needySession.built ⟨0⟩ {}).edited unbind).built ⟨0⟩ { allowIncomplete := true }

/-- The component has become complete in the build of the other one, and a space is bound to it. -/
def fedSession : Session :=
  ((unfedSession.edited feed).built ⟨1⟩ {}).edited bindBatched

/-- It does not count only builds of subtrees that contain the component. The hook fails in the first build, the
next one leaves the component incomplete, and one of another subtree completes it and runs the hook. The next
build of its own subtree in which it becomes complete does not run it. -/
theorem not_started_in_own_subtree :
    (outcome (run batching 60 ⟨0⟩ {}) needySession).isOk = false ∧
    (needySession.built ⟨0⟩ {}).starts ⟨0⟩ = 1 ∧ (needySession.built ⟨0⟩ {}).finishes ⟨0⟩ = 0 ∧
    unfedSession.graph.isComplete ⟨0⟩ = false ∧
    ((unfedSession.edited feed).graph.subtree ⟨1⟩).toOption = some [⟨1⟩] ∧
    (fedSession.graph.subtree ⟨0⟩).toOption = some [⟨0⟩] ∧
    (fedSession.built ⟨0⟩ {}).graph.isComplete ⟨0⟩ = true ∧
    (fedSession.built ⟨0⟩ {}).starts ⟨0⟩ = fedSession.starts ⟨0⟩ := by
  decide +kernel

/-- The hook has failed, and a space with a batch rank has taken the place of the other. -/
def reboundSession : Session :=
  ((needySession.built ⟨0⟩ {}).edited unbind).edited bindBatched

/-- Without a build in between the next build starts the hook again, and it succeeds. -/
theorem hooks_run_until_done_needy :
    (∃ more hook spaces, (reboundSession.built ⟨0⟩ {}).trace.toList =
      reboundSession.trace.toList ++ .buildStarted ⟨0⟩ :: more ∧ .hookStarted ⟨0⟩ hook spaces ∈ more) ∧
    (reboundSession.built ⟨0⟩ {}).finishes ⟨0⟩ = 1 := by
  have general (failed rebound : Session) (is : needySession.built ⟨0⟩ {} = failed)
      (starts : 0 < failed.starts ⟨0⟩) (finishes : failed.finishes ⟨0⟩ = 0)
      (passes : ReflTransGen (Session.Passes ⟨0⟩) failed rebound)
      (listed : (rebound.graph.subtree ⟨0⟩).toOption = some [⟨0⟩])
      (complete : (rebound.built ⟨0⟩ {}).graph.isComplete ⟨0⟩ = true) :
      ∃ more hook spaces, (rebound.built ⟨0⟩ {}).trace.toList =
        rebound.trace.toList ++ .buildStarted ⟨0⟩ :: more ∧ .hookStarted ⟨0⟩ hook spaces ∈ more := by
    rcases Session.Lived.hooks_run_until_done lived_needySession batching_edits
      (run_eq (run batching 60 ⟨0⟩ {}) needySession) with ⟨-, -, events, trace, -, fails⟩
    rw [show after (run batching 60 ⟨0⟩ {}) needySession = failed from is] at trace fails
    have trace : failed.trace.toList = .buildStarted ⟨0⟩ :: events := trace
    rcases Session.exists_of_starts starts with ⟨hook, spaces, member⟩
    rw [trace] at member
    rcases List.append_of_mem ((List.mem_cons.mp member).resolve_left (by simp)) with ⟨before, later, split⟩
    have unfinished : .hookFinished ⟨0⟩ ∉ later := by
      intro finished
      refine Session.notMem_of_finishes finishes ?_
      rw [trace, split]
      exact List.mem_cons_of_mem _ (List.mem_append_right _ (List.mem_cons_of_mem _ finished))
    have contained : ∃ members, rebound.graph.subtree ⟨0⟩ = .ok members ∧ ⟨0⟩ ∈ members := by
      cases known : rebound.graph.subtree ⟨0⟩ with
      | error error =>
          rw [known] at listed
          cases listed
      | ok members =>
          rw [known] at listed
          exact ⟨members, rfl, Option.some.inj listed ▸ List.mem_singleton_self _⟩
    rcases fails before later ⟨0⟩ hook spaces split unfinished with ⟨-, again⟩
    exact again rebound passes batching 60 ⟨0⟩ {} batching_edits ⟨complete, .inr contained⟩
  have passes : ReflTransGen (Session.Passes ⟨0⟩) (needySession.built ⟨0⟩ {}) reboundSession := by
    have edit (session : Session) (step : GraphM Unit) (edits : Keeps Graph.Edits step) :
        Session.Passes ⟨0⟩ session (session.edited step) := .edit session _ (edits session.graph)
    refine .tail (.single (edit (needySession.built ⟨0⟩ {}) unbind ?_))
      (edit ((needySession.built ⟨0⟩ {}).edited unbind) bindBatched ?_)
    · exact Graph.Edits.of_step (.disconnect ..)
    · exact Graph.Edits.of_step (.connect ..)
  exact ⟨general _ reboundSession rfl (by decide +kernel) (by decide +kernel) passes (by decide +kernel)
    (by decide +kernel), by decide +kernel⟩

end Wiring
