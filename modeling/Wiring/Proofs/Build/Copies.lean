import Wiring.Proofs.Blueprint.Feeding
import Wiring.Proofs.Build.Parallel
import Wiring.Proofs.Reachability

/-!
Contract: a copy builds like its original.

Owns: `Copied`, what a copy that was made has to do with its original; that with the same spaces bound both are
wired alike and fed alike, if the original lists the computations of each socket before its links; and that
their builds then give the same spaces. A copy lists computations first whatever its original does, and the
order in which ops arrive depends on that.
-/

namespace Wiring

open Build

theorem HookRunner.Registers.of_wiring {hooks : HookRunner} {graph later : Graph} (registers : hooks.Registers graph)
    (same : later.wiring = graph.wiring) : hooks.Registers later := by
  intro id node hook found chosen
  rcases Graph.component?_of_wiring same found with ⟨old, oldFound, kept⟩
  rcases Component.fields_of_wiring kept with ⟨-, -, -, -, -, -, sameHook⟩
  exact registers id old hook oldFound (sameHook.symm.trans chosen)

namespace Graph

theorem incoming_of_wiring {graph later : Graph} (same : later.wiring = graph.wiring) {id : SocketId}
    {socket : Socket} (held : graph.socket? id = some socket) :
    ∃ new, later.socket? id = some new ∧ new.incoming = socket.incoming := by
  rcases socket?_of_wiring same.symm held with ⟨new, newHeld, kept⟩
  exact ⟨new, newHeld, (Socket.fields_of_wiring kept).2.1.symm⟩

/-- A component and a copy of it in a later graph. -/
structure Copied (graph made : Graph) (root copy : ComponentId) : Prop where
  begun : Sound graph
  found : ∃ node, graph.component? root = some node
  extended : Extends graph made
  fresh : graph.component? copy = none
  alike : Alike graph made root copy
  shown : ∃ members membersToo, graph.subtree root = .ok members ∧ made.subtree copy = .ok membersToo ∧
    (graph.portsOf members).flatMap (graph.linksAt root members) =
      (made.portsOf membersToo).flatMap (made.linksAt copy membersToo) ∧
    (graph.portsOf members).flatMap (graph.bindingsAt root) =
      (made.portsOf membersToo).flatMap (made.bindingsAt copy)
  enclosed : made.Enclosed copy
  phased : made.Phased copy
  unfed : made.Unfed copy

theorem Sound.copied {graph made : Graph} (sound : Sound graph) {root copied : ComponentId}
    {name scope : Option String} (ran : (copy root name scope).run graph = (.ok copied, made)) :
    Copied graph made root copied := by
  rcases of_run_bind_ok ran with ⟨blueprint, middle, asked, ran⟩
  obtain rfl : graph = middle := congrArg Prod.snd asked
  have answered : graph.blueprint root = .ok blueprint := congrArg Prod.fst asked
  rcases except_bind_eq_ok.mp answered with ⟨node, held, -⟩
  have found := component_eq_ok.mp held
  rcases sound.instantiate_ok sound found with ⟨again, answeredAgain, -, made⟩
  obtain rfl := Except.ok.inj (answered.symm.trans answeredAgain)
  by_cases proper : isScope (scope.getD blueprint.root.config.scope) = true
  · rcases made name (some (scope.getD blueprint.root.config.scope)) proper with
      ⟨root, final, ranAgain, soundFinal, extended, fresh, ⟨new, newFound, -⟩, shownToo, enclosed, phased, unfed⟩
    have same := ran.symm.trans ranAgain
    obtain rfl := Except.ok.inj (congrArg Prod.fst same)
    obtain rfl : _ = final := congrArg Prod.snd same
    rcases blueprint_ok sound found with ⟨plan, members, planned, listed, shown⟩
    rcases blueprint_ok soundFinal newFound with ⟨planToo, membersToo, plannedToo, listedToo, shownAgain⟩
    obtain rfl := Except.ok.inj (answered.symm.trans shown)
    rcases Blueprint.mk.inj (Except.ok.inj (shownToo.symm.trans shownAgain)) with ⟨plans, links, bindings⟩
    exact {
      begun := sound, found := ⟨node, found⟩, extended, fresh, enclosed, phased, unfed
      alike := ⟨sound, soundFinal, plan, _, planned, plans ▸ plannedToo⟩
      shown := ⟨members, membersToo, listed, listedToo, links, bindings⟩ }
  · rw [instantiate_error blueprint name (Bool.not_eq_true _ ▸ proper)] at ran
    cases congrArg Prod.fst ran

namespace Copied

variable {graph made : Graph} {root copy : ComponentId} (copied : Copied graph made root copy)
include copied

/-- Everything below the original is wired like its copy. -/
theorem matches_copy (enclosed : graph.Enclosed root) (phased : graph.Phased root) :
    (counterparts graph made root copy).Matches graph made := by
  rcases copied.shown with ⟨members, membersToo, listed, listedToo, links, bindings⟩
  refine matches_of_mates copied.alike listed listedToo (fun a b mates => ?_) enclosed copied.enclosed phased
    copied.phased
  exact (contributions_of_mates copied.alike listed listedToo links bindings mates).1

theorem owner_ne_copy {id : SocketId} {socket : Socket} (held : graph.socket? id = some socket) :
    socket.owner ≠ copy := by
  intro same
  rcases copied.begun.sockets.owner id socket held with ⟨node, found⟩
  rw [same, copied.fresh] at found
  cases found

theorem owner_ne_root {id : ComponentId} (above : made.Above copy id) : id ≠ root := by
  rintro rfl
  rcases copied.found with ⟨node, found⟩
  rw [copied.extended.below_fresh copied.begun copied.fresh above] at found
  cases found

/-- The same spaces are fed to both, if those that come from outside are the same. -/
theorem feeds_copy (unfed : graph.Unfed root) (spaces : List (String × Space)) {left right : Graph}
    (fed : ∀ id socket, graph.socket? id = some socket →
      ∃ new, left.socket? id = some new ∧ new.incoming = (socket.feed root spaces).incoming)
    (fedToo : ∀ id socket, made.socket? id = some socket → made.Above copy socket.owner →
      ∃ new, right.socket? id = some new ∧ new.incoming = (socket.feed copy spaces).incoming) :
    (counterparts graph made root copy).Feeds left right := by
  intro a b new newToo mates newHeld newHeldToo
  rcases Mates.faces mates with ⟨socket, other, held, heldToo, name, -, -⟩
  have twins := twins_of_mates copied.alike mates held heldToo
  rcases fed a socket held with ⟨_, again, incoming⟩
  obtain rfl := Option.some.inj (newHeld.symm.trans again)
  rcases fedToo b other heldToo (above_of_twins copied.alike twins).2 with ⟨_, againToo, incomingToo⟩
  obtain rfl := Option.some.inj (newHeldToo.symm.trans againToo)
  rw [incoming, incomingToo]
  by_cases own : socket.owner = root
  · have ownToo := (root_iff copied.alike twins).mp own
    rw [Socket.spaces_feed own (unfed a socket held own), Socket.spaces_feed ownToo
      (copied.unfed b other heldToo ownToo), name]
  · have differ := mt (root_iff copied.alike twins).mpr own
    rcases copied.shown with ⟨members, membersToo, listed, listedToo, links, bindings⟩
    have same := (contributions_of_mates copied.alike listed listedToo links bindings mates).2
    rw [Socket.feed_other own, Socket.feed_other differ]
    exact spaces_of_mates copied.alike mates held heldToo same own

end Copied

/-! ### After spaces were bound -/

/-- The same spaces bound to a component and then to its copy. -/
def bindBoth (root copy : ComponentId) (spaces : List (String × Space)) : GraphM Unit := do
  bindSpaces root spaces
  bindSpaces copy spaces

/-- What a graph is like after the same spaces were bound to both. -/
structure Copied.Bound (graph made bound : Graph) (root copy : ComponentId) (spaces : List (String × Space)) : Prop where
  retains : Retains made bound
  fed : ∀ id socket, graph.socket? id = some socket → bound.socket? id = some (socket.feed root spaces)
  fedToo : ∀ id socket, made.socket? id = some socket → made.Above copy socket.owner →
    bound.socket? id = some (socket.feed copy spaces)

theorem Copied.bound {graph made bound : Graph} {root copy : ComponentId} (copied : Copied graph made root copy)
    {spaces : List (String × Space)} {answer : Unit}
    (ran : (bindBoth root copy spaces).run made = (.ok answer, bound)) :
    Copied.Bound graph made bound root copy spaces := by
  rcases of_run_bind_ok ran with ⟨_, middle, first, second⟩
  rcases bindSpaces_ok copied.alike.rightSound first with ⟨soundMiddle, components, computations, sockets⟩
  rcases bindSpaces_ok soundMiddle second with ⟨-, componentsToo, computationsToo, socketsToo⟩
  refine ⟨?_, fun id socket held => ?_, fun id socket held above => ?_⟩
  · exact (Retains.of_bindSpaces components computations sockets).trans
      (Retains.of_bindSpaces componentsToo computationsToo socketsToo)
  · have owner : (socket.feed root spaces).owner ≠ copy := by
      rw [Socket.owner_of_face (socket.face_feed root spaces)]
      exact copied.owner_ne_copy held
    rw [socketsToo, sockets, copied.extended.socket id socket held]
    exact congrArg some (Socket.feed_other owner spaces)
  · rw [socketsToo, sockets, held]
    show some ((socket.feed root spaces).feed copy spaces) = _
    rw [Socket.feed_other (copied.owner_ne_root above)]

/-! ### Both builds -/

/-- A build that returns a report, in a session whose graph is reachable and wired like the given one. -/
structure Builds (hooks : HookRunner) (graph : Graph) (root : ComponentId) where
  session : Session
  reachable : session.graph.Reachable
  wired : session.graph.wiring = graph.wiring
  fuel : Nat
  config : BuildConfig
  report : Report
  final : Session
  ran : (run hooks fuel root config).run session = (.ok report, final)

/-- A component is copied, the same spaces are bound to it and to the copy, and both are built. -/
structure CopyBuilds (hooks : HookRunner) (graph : Graph) (root : ComponentId) where
  name : Option String
  scope : Option String
  copied : ComponentId
  made : Graph
  copies : (copy root name scope).run graph = (.ok copied, made)
  spaces : List (String × Space)
  bound : Graph
  binds : (bindBoth root copied spaces).run made = (.ok ⟨⟩, bound)
  original : Builds hooks bound root
  copy : Builds hooks bound copied

theorem reachable_bound {graph made bound : Graph} (reachable : graph.Reachable) {root copied : ComponentId}
    {name scope : Option String} {spaces : List (String × Space)}
    (copies : (Graph.copy root name scope).run graph = (.ok copied, made))
    (binds : (bindBoth root copied spaces).run made = (.ok ⟨⟩, bound)) : bound.Reachable := by
  have both : Keeps Reaches (bindBoth root copied spaces) :=
    Keeps.bind (Keeps.forM (fun _ => Reaches.connect root _ _) spaces) fun _ =>
      Keeps.forM (fun _ => Reaches.connect copied _ _) spaces
  have copying := Reaches.copy root name scope graph
  rw [after_of_run copies] at copying
  have binding := both made
  rw [after_of_run binds] at binding
  exact (reachable.reaches copying).reaches binding

variable {hooks : HookRunner} {graph : Graph} {root : ComponentId}

theorem Builds.built (builds : Builds hooks graph root) (registers : hooks.Registers graph) :
    Nonempty (Built builds.session root builds.report builds.final) :=
  run_built builds.reachable.sound (registers.of_wiring builds.wired) builds.ran

/-- After one build there can be another one, as builds leave the wiring alone. -/
def Builds.next (builds : Builds hooks graph root) (registers : hooks.Registers graph)
    (hooksReach : ∀ hook id spaces given, Reaches given.graph (after (hooks hook id spaces) given).graph)
    {other : ComponentId} {fuel : Nat} {config : BuildConfig} {report : Report} {final : Session}
    (ran : (run hooks fuel other config).run builds.final = (.ok report, final)) : Builds hooks graph other where
  session := builds.final
  reachable := by
    have reaches := Reaches.build hooks builds.fuel root builds.config builds.session hooksReach
    rw [after_of_run builds.ran] at reaches
    exact builds.reachable.reaches reaches
  wired := by
    rcases builds.built registers with ⟨built⟩
    exact built.wired.trans builds.wired
  fuel := fuel
  config := config
  report := report
  final := final
  ran := ran

/-- Both builds begin with what there was when the copy was made. -/
theorem CopyBuilds.retains (builds : CopyBuilds hooks graph root) (reachable : graph.Reachable) :
    Retains graph builds.original.session.graph ∧ Retains builds.made builds.copy.session.graph := by
  have pair := reachable.sound.copied builds.copies
  have bound := (pair.bound builds.binds).retains
  constructor
  · exact (Retains.of_extends pair.extended).trans (bound.trans (.of_wiring builds.original.wired))
  · exact bound.trans (.of_wiring builds.copy.wired)

/-- What is built after a copy was made is paired. -/
theorem CopyBuilds.parallel (builds : CopyBuilds hooks graph root) (reachable : graph.Reachable)
    (enclosed : graph.Enclosed root) (unfed : graph.Unfed root)
    (phased : graph.Phased root)
    (deterministic : ∀ id node, graph.Above root id → graph.component? id = some node →
      ∀ method ∈ node.methods, method.Deterministic) :
    (counterparts graph builds.made root builds.copied).Parallel builds.original.session.graph
      builds.copy.session.graph := by
  have pair := reachable.sound.copied builds.copies
  have fed := pair.bound builds.binds
  rcases builds.retains reachable with ⟨retains, retainsToo⟩
  exact {
    toMatches := matches_of_retains (pair.matches_copy enclosed phased) retains retainsToo
    kind := (kind_of_wiring builds.original.wired).trans (kind_of_wiring builds.copy.wired).symm
    feeds := by
      refine pair.feeds_copy unfed builds.spaces (fun id socket held => ?_) (fun id socket held above => ?_)
      · exact incoming_of_wiring builds.original.wired (fed.fed id socket held)
      · exact incoming_of_wiring builds.copy.wired (fed.fedToo id socket held above)
    deterministic := by
      intro i j node twins found
      rcases nodes_of_twins pair.alike twins with ⟨old, -, oldFound, -, -⟩
      rcases retains.component i old oldFound with ⟨_, again, kept⟩
      obtain rfl := Option.some.inj (found.symm.trans again)
      rw [(Component.fields_of_wiring kept).2.2.2.2.1]
      exact deterministic i old (above_of_twins pair.alike twins).1 oldFound }

/-- A copy builds like its original. Let no socket below a component be linked to a socket elsewhere, let no
spaces be bound to its own in-sockets, and let the computations of each socket come before its links. If it is
copied, the same spaces are bound to it and to the copy, and both are built, then sockets at the same place take
the same spaces. The two builds may be done in either order, or apart from each other. -/
theorem Reachable.copy_builds_alike (reachable : graph.Reachable) (builds : CopyBuilds hooks graph root)
    (registers : hooks.Registers builds.bound) (enclosed : graph.Enclosed root) (unfed : graph.Unfed root)
    (phased : graph.Phased root)
    (deterministic : ∀ id node, graph.Above root id → graph.component? id = some node →
      ∀ method ∈ node.methods, method.Deterministic)
    {place : SocketPath} {a b : SocketId} (stands : graph.Stands root a place)
    (standsToo : builds.made.Stands builds.copied b place) :
    builds.original.final.graph.spaceOf a = builds.copy.final.graph.spaceOf b := by
  have pair := reachable.sound.copied builds.copies
  rcases builds.retains reachable with ⟨retains, retainsToo⟩
  rcases builds.original.built registers with ⟨done⟩
  rcases builds.copy.built registers with ⟨doneToo⟩
  rcases pair.shown with ⟨members, membersToo, listed, listedToo, -⟩
  have same := retains.subtree listed done.listed
  have sameToo := retainsToo.subtree listedToo doneToo.listed
  have parallel := builds.parallel reachable enclosed unfed phased deterministic
  refine parallel.spaces builds.original.reachable.sound.sockets builds.copy.reachable.sound.sockets done doneToo ?_ ?_
    (mates_of_stands pair.alike stands standsToo)
  · rw [← same, ← sameToo]
    exact pair.alike.members listed listedToo
  · intro i j twins
    rcases above_of_twins pair.alike twins with ⟨above, aboveToo⟩
    rw [← same, ← sameToo]
    exact ⟨(mem_subtree pair.begun.tree listed).mpr above, (mem_subtree pair.alike.rightSound.tree listedToo).mpr aboveToo⟩

/-! ### Two ways to one socket -/

/-- Makes an integer space out of any input. -/
def recoding : Method where
  name := "recode"
  inputs := 1
  outputs := 1
  run := fun context given => do
    let op ← context.record "recode" (given.map DataOp.id) (.box { element := .int })
    return [op]

theorem recoding_deterministic : recoding.Deterministic := by
  intro context other _ given
  exact (Recording.Agrees.record _ _ _).bind fun op => .pure [op]

/-- Two ways lead from the input of a component to its last part: over a link, or over a computation that comes
after that link or before it. -/
def converging (linkFirst : Bool) : GraphM Unit := do
  let whole ← create { scope := "whole" }
  let part ← create { scope := "part" }
  let last ← create { scope := "last" }
  let _ ← defineInputs whole ["input"] none
  let _ ← defineOutputs whole ["output"]
  let _ ← defineInputs part ["start"] none
  let _ ← defineInputs last ["end"] none
  register whole recoding
  if linkFirst then do
    connect whole (.socket (.named "input")) (.component part)
    let _ ← compute whole ["input"] ["output"] none {}
  else do
    let _ ← compute whole ["input"] ["output"] none {}
    connect whole (.socket (.named "input")) (.component part)
  connect part (.socket (.named "start")) (.component last)
  connect whole (.socket (.named "output")) (.component last)
  add whole part .nothing
  add whole last .nothing
  setHook whole (.script [])

theorem reachable_converging (linkFirst : Bool) : (after (converging linkFirst) {}).Reachable := by
  have keeps : Keeps Reaches (converging linkFirst) := by
    refine Keeps.bind (Reaches.create _) fun whole => ?_
    refine Keeps.bind (Reaches.create _) fun part => ?_
    refine Keeps.bind (Reaches.create _) fun last => ?_
    refine Keeps.bind (Reaches.defineInputs whole _ _) fun _ => ?_
    refine Keeps.bind (Reaches.defineOutputs whole _) fun _ => ?_
    refine Keeps.bind (Reaches.defineInputs part _ _) fun _ => ?_
    refine Keeps.bind (Reaches.defineInputs last _ _) fun _ => ?_
    refine Keeps.bind (Reaches.register whole _) fun _ => ?_
    have ends : Keeps Reaches (do
        connect part (.socket (.named "start")) (.component last)
        connect whole (.socket (.named "output")) (.component last)
        add whole part .nothing
        add whole last .nothing
        setHook whole (.script [])) := by
      refine Keeps.bind (Reaches.connect part _ _) fun _ => ?_
      refine Keeps.bind (Reaches.connect whole _ _) fun _ => ?_
      refine Keeps.bind (Reaches.add whole part _) fun _ => ?_
      exact Keeps.bind (Reaches.add whole last _) fun _ => Reaches.setHook whole _
    cases linkFirst with
    | true =>
        refine Keeps.bind (Reaches.connect whole _ _) fun _ => ?_
        exact Keeps.bind (Reaches.compute whole _ _ _ _) fun _ => ends
    | false =>
        refine Keeps.bind (Reaches.compute whole _ _ _ _) fun _ => ?_
        exact Keeps.bind (Reaches.connect whole _ _) fun _ => ends
  exact (reachable_empty {}).reaches (keeps {})

/-- A component without parent that holds everything in its graph, with deterministic methods. -/
structure Standalone (graph : Graph) (root : ComponentId) : Prop where
  reachable : graph.Reachable
  top : ∃ node, graph.component? root = some node ∧ node.parent = none
  holds : ∀ id socket, graph.socket? id = some socket → graph.Above root socket.owner
  unfed : graph.Unfed root
  deterministic : ∀ id node, graph.component? id = some node → ∀ method ∈ node.methods, method.Deterministic

theorem Standalone.enclosed (standalone : Standalone graph root) : graph.Enclosed root :=
  enclosed_of_holds standalone.holds

theorem phased_of_all (all : (graph.sockets.toList.all fun socket =>
    decide (socket.outgoing.Pairwise fun first second => first.asSocket? = none ∨ second.asComputation? = none)) =
      true) : graph.Phased root := by
  intro id socket held _
  have ordered := of_decide_eq_true (check_socket all held)
  exact ordered

theorem stands_of_site (sound : Sound graph) {id : SocketId} {place : SocketPath}
    (inside : ((graph.socket? id).any fun socket =>
      ((graph.subtree root).toOption.getD []).contains socket.owner) = true)
    (site : graph.siteOf root id = place) : graph.Stands root id place := by
  cases held : graph.socket? id with
  | none =>
      rw [held] at inside
      cases inside
  | some socket =>
      rw [held] at inside
      rw [← site]
      exact sound.stands held (above_of_listed sound inside)

theorem standalone_converging (linkFirst : Bool) : Standalone (after (converging linkFirst) {}) ⟨0⟩ := by
  have general (graph : Graph) (reachable : graph.Reachable)
      (top : ((graph.component? ⟨0⟩).any fun node => node.parent.isNone) = true)
      (holds : (graph.sockets.toList.all fun socket =>
        ((graph.subtree ⟨0⟩).toOption.getD []).contains socket.owner) = true)
      (unfed : (graph.sockets.toList.all fun socket => (spaceEntries socket.incoming).isEmpty) = true)
      (methods : ∀ node ∈ graph.components, ∀ method ∈ node.methods, method.Deterministic) :
      Standalone graph ⟨0⟩ := by
    refine ⟨reachable, ?_, fun id socket held => ?_, fun id socket held _ => ?_, fun id node found => ?_⟩
    · cases found : graph.component? ⟨0⟩ with
      | none =>
          rw [found] at top
          cases top
      | some node =>
          rw [found] at top
          exact ⟨node, rfl, Option.isNone_iff_eq_none.mp top⟩
    · exact above_of_listed reachable.sound (check_socket holds held)
    · exact List.isEmpty_iff.mp (check_socket unfed held)
    · exact methods node (Array.mem_of_getElem? found)
  have methods : ∀ node ∈ (after (converging linkFirst) {}).components, ∀ method ∈ node.methods,
      method.Deterministic := by
    intro node member method registered
    have all : (after (converging linkFirst) {}).components.toList.flatMap Component.methods = [recoding] := by
      cases linkFirst <;> rfl
    have listed : method ∈ (after (converging linkFirst) {}).components.toList.flatMap Component.methods :=
      List.mem_flatMap.mpr ⟨node, Array.mem_toList_iff.mpr member, registered⟩
    rw [all] at listed
    rw [List.mem_singleton.mp listed]
    exact recoding_deterministic
  refine general _ (reachable_converging linkFirst) ?_ ?_ ?_ methods
  all_goals cases linkFirst <;> decide +kernel

/-- Copies a component, binds the same spaces to both, and builds both, each in a session of its own. -/
theorem exists_copyBuilds {hooks : HookRunner} {graph : Graph} (reachable : graph.Reachable) {root copied : ComponentId}
    {name scope : Option String} {spaces : List (String × Space)} {fuel : Nat} {config : BuildConfig}
    {made bound : Graph} (makes : after (copy root name scope) graph = made)
    (copies : (outcome (copy root name scope) graph).toOption = some copied)
    (bounds : after (bindBoth root copied spaces) made = bound)
    (binds : (outcome (bindBoth root copied spaces) made).isOk = true)
    (builds : (outcome (run hooks fuel root config) { graph := bound }).isOk = true)
    (buildsToo : (outcome (run hooks fuel copied config) { graph := bound }).isOk = true) :
    ∃ builds : CopyBuilds hooks graph root, builds.made = made ∧ builds.copied = copied ∧ builds.bound = bound ∧
      builds.original.final = after (run hooks fuel root config) { graph := bound } ∧
      builds.copy.final = after (run hooks fuel copied config) { graph := bound } := by
  have copies : (copy root name scope).run graph = (.ok copied, made) := by
    cases answered : outcome (copy root name scope) graph with
    | error error =>
        rw [answered] at copies
        cases copies
    | ok id =>
        rw [answered] at copies
        obtain rfl := Option.some.inj copies
        rw [run_eq, answered, makes]
  have binds : (bindBoth root copied spaces).run made = (.ok ⟨⟩, bound) := by
    cases answered : outcome (bindBoth root copied spaces) made with
    | error error =>
        rw [answered] at binds
        cases binds
    | ok => rw [run_eq, answered, bounds]
  have done (id : ComponentId) (succeeds : (outcome (run hooks fuel id config) { graph := bound }).isOk = true) :
      ∃ build : Builds hooks bound id, build.final = after (run hooks fuel id config) { graph := bound } := by
    cases answered : outcome (run hooks fuel id config) { graph := bound } with
    | error stop =>
        rw [answered] at succeeds
        cases succeeds
    | ok report =>
        exact ⟨{
          session := { graph := bound }
          reachable := reachable_bound reachable copies binds
          wired := rfl
          fuel, config, report
          final := after (run hooks fuel id config) { graph := bound }
          ran := by rw [run_eq, answered] }, rfl⟩
  rcases done root builds with ⟨original, final⟩
  rcases done copied buildsToo with ⟨copy, finalToo⟩
  exact ⟨{ name, scope, copied, made, copies, spaces, bound, binds, original, copy }, rfl, rfl, rfl, final, finalToo⟩

def silent : HookRunner := fun _ _ _ => pure ⟨⟩

theorem silent_registers (graph : Graph) : silent.Registers graph :=
  fun _ _ _ _ _ _ given => ⟨IsPreorder.toRefl.refl given.graph, rfl⟩

/-- Hooks that bind a space to a certain component, whatever component they run for. -/
def meddling : HookRunner := fun _ _ _ =>
  Session.ofGraph (connect ⟨1⟩ (.space (.box { element := .int })) (.socket (.named "start")))

/-- The element type of the space of a socket, if that is a box. -/
def elementAt (graph : Graph) (id : SocketId) : Option ElementType :=
  match graph.spaceOf id with
  | some (.box box) => some box.element
  | _ => none

/-- Copies the first component of a graph and builds both with the same space bound to them. Both builds return a
report, and two sockets at one place take boxes of the given element types. -/
def buildsTwins (hooks : HookRunner) (graph : Graph) (place : SocketPath) (a b : SocketId)
    (element other : ElementType) : Bool :=
  let made := after (copy ⟨0⟩ none (some "twin")) graph
  let bound := after (bindBoth ⟨0⟩ ⟨3⟩ [("input", .box {})]) made
  let inside (graph : Graph) (root : ComponentId) (id : SocketId) : Bool :=
    (graph.socket? id).any fun socket => ((graph.subtree root).toOption.getD []).contains socket.owner
  (outcome (copy ⟨0⟩ none (some "twin")) graph).toOption = some ⟨3⟩ &&
    (outcome (bindBoth ⟨0⟩ ⟨3⟩ [("input", .box {})]) made).isOk &&
    (outcome (run hooks 60 ⟨0⟩ {}) { graph := bound }).isOk &&
    (outcome (run hooks 60 ⟨3⟩ {}) { graph := bound }).isOk &&
    inside graph ⟨0⟩ a && graph.siteOf ⟨0⟩ a = place && inside made ⟨3⟩ b && made.siteOf ⟨3⟩ b = place &&
    elementAt (after (run hooks 60 ⟨0⟩ {}) { graph := bound }).graph a = some element &&
    elementAt (after (run hooks 60 ⟨3⟩ {}) { graph := bound }).graph b = some other

theorem exists_twins {hooks : HookRunner} {graph : Graph} (reachable : graph.Reachable) {place : SocketPath}
    {a b : SocketId} {element other : ElementType} (twins : buildsTwins hooks graph place a b element other = true) :
    ∃ builds : CopyBuilds hooks graph ⟨0⟩, graph.Stands ⟨0⟩ a place ∧ builds.made.Stands builds.copied b place ∧
      elementAt builds.original.final.graph a = some element ∧ elementAt builds.copy.final.graph b = some other := by
  simp only [buildsTwins, Bool.and_eq_true, decide_eq_true_eq] at twins
  rcases twins with ⟨⟨⟨⟨⟨⟨⟨⟨⟨copies, binds⟩, builds⟩, buildsToo⟩, inside⟩, site⟩, insideToo⟩, siteToo⟩, found⟩, foundToo⟩
  rcases exists_copyBuilds reachable rfl copies rfl binds builds buildsToo with
    ⟨builds, made, copied, -, final, finalToo⟩
  refine ⟨builds, stands_of_site reachable.sound inside site, ?_, final ▸ found, finalToo ▸ foundToo⟩
  rw [made, copied]
  have reachableToo := reachable.reaches (Reaches.copy ⟨0⟩ none (some "twin") graph)
  exact stands_of_site reachableToo.sound insideToo siteToo

/-- The order counts, and so do hooks that do more than registering variables. If the link comes before the
computation, the last part gets the space of the input in the original and the space of the output in the copy.
If the computation comes first, they differ where the hook binds a space to a part of the original, which it
does in both builds. -/
theorem copy_differs_converging :
    (Standalone (after (converging true) {}) ⟨0⟩ ∧
      ∃ (builds : CopyBuilds silent (after (converging true) {}) ⟨0⟩) (place : SocketPath) (a b : SocketId),
        (after (converging true) {}).Stands ⟨0⟩ a place ∧ builds.made.Stands builds.copied b place ∧
          builds.original.final.graph.spaceOf a ≠ builds.copy.final.graph.spaceOf b) ∧
    (Standalone (after (converging false) {}) ⟨0⟩ ∧ (after (converging false) {}).Phased ⟨0⟩ ∧
      ∃ (builds : CopyBuilds meddling (after (converging false) {}) ⟨0⟩) (place : SocketPath) (a b : SocketId),
        (after (converging false) {}).Stands ⟨0⟩ a place ∧ builds.made.Stands builds.copied b place ∧
          builds.original.final.graph.spaceOf a ≠ builds.copy.final.graph.spaceOf b) := by
  have differs {hooks : HookRunner} {graph : Graph} (reachable : graph.Reachable) (place : SocketPath)
      (a b : SocketId) {element other : ElementType} (apart : element ≠ other)
      (twins : buildsTwins hooks graph place a b element other = true) :
      ∃ (builds : CopyBuilds hooks graph ⟨0⟩) (place : SocketPath) (a b : SocketId), graph.Stands ⟨0⟩ a place ∧
        builds.made.Stands builds.copied b place ∧
        builds.original.final.graph.spaceOf a ≠ builds.copy.final.graph.spaceOf b := by
    rcases exists_twins reachable twins with ⟨builds, stands, standsToo, found, foundToo⟩
    refine ⟨builds, place, a, b, stands, standsToo, fun same => apart ?_⟩
    unfold elementAt at found foundToo
    rw [same] at found
    exact Option.some.inj (found.symm.trans foundToo)
  refine ⟨⟨standalone_converging true, ?_⟩, standalone_converging false, ?_, ?_⟩
  · have apart : ElementType.float ≠ .int := by decide
    exact differs (reachable_converging true) ⟨["last"], "end"⟩ ⟨3⟩ ⟨7⟩ apart (by decide +kernel)
  · exact phased_of_all (by decide +kernel)
  · have apart : ElementType.int ≠ .float := by decide
    exact differs (reachable_converging false) ⟨["part"], "start"⟩ ⟨2⟩ ⟨6⟩ apart (by decide +kernel)

/-- Where the computation comes first, the last parts take the same space. -/
theorem copy_builds_alike_converging :
    ∃ builds : CopyBuilds silent (after (converging false) {}) ⟨0⟩,
      (after (converging false) {}).Stands ⟨0⟩ ⟨3⟩ ⟨["last"], "end"⟩ ∧
      builds.made.Stands builds.copied ⟨7⟩ ⟨["last"], "end"⟩ ∧
      builds.original.final.graph.spaceOf ⟨3⟩ = builds.copy.final.graph.spaceOf ⟨7⟩ ∧
      elementAt builds.original.final.graph ⟨3⟩ = some .int := by
  have reachable := reachable_converging false
  have standalone := standalone_converging false
  have twins : buildsTwins silent (after (converging false) {}) ⟨["last"], "end"⟩ ⟨3⟩ ⟨7⟩ .int .int = true := by
    decide +kernel
  rcases exists_twins reachable twins with ⟨builds, stands, standsToo, found, -⟩
  refine ⟨builds, stands, standsToo, ?_, found⟩
  exact Reachable.copy_builds_alike reachable builds (silent_registers _) standalone.enclosed standalone.unfed
    (phased_of_all (by decide +kernel)) (fun id node _ => standalone.deterministic id node) stands standsToo

end Graph

end Wiring
