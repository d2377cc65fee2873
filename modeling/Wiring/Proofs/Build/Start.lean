import Wiring.Proofs.Build.Moves
import Wiring.Proofs.Graph.Sound
import Wiring.Proofs.Graph.Sound.Subtree

/-!
Contract: how a build begins and ends.

Owns: that clearing the subtree succeeds and removes the marks of earlier builds from its members; the book
with which the work begins; and `Built`, what a build that returns a report has to do with the moves of its
work.
-/

namespace Wiring

def Socket.clear (socket : Socket) : Socket :=
  { socket with space := none }

def Component.clear (node : Component) : Component :=
  { node with complete := false, deferred := [] }

namespace Graph

variable {graph : Graph} {members : List ComponentId}

/-- The graph without the marks of builds at the members and their sockets. -/
def wiped (graph : Graph) (members : List ComponentId) : Graph :=
  { graph with
    components := graph.components.mapIdx fun position node => if ⟨position⟩ ∈ members then node.clear else node
    sockets := graph.sockets.map fun socket => if socket.owner ∈ members then socket.clear else socket }

theorem component?_wiped (graph : Graph) (members : List ComponentId) (id : ComponentId) :
    (graph.wiped members).component? id =
      (graph.component? id).map fun node => if id ∈ members then node.clear else node :=
  Array.getElem?_mapIdx

theorem socket?_wiped (graph : Graph) (members : List ComponentId) (id : SocketId) :
    (graph.wiped members).socket? id =
      (graph.socket? id).map fun socket => if socket.owner ∈ members then socket.clear else socket :=
  Array.getElem?_map

theorem component?_wiped_some {id : ComponentId} {node : Component} (found : graph.component? id = some node) :
    (graph.wiped members).component? id = some (if id ∈ members then node.clear else node) := by
  rw [component?_wiped, found]
  rfl

theorem socket?_wiped_some {id : SocketId} {socket : Socket} (held : graph.socket? id = some socket) :
    (graph.wiped members).socket? id = some (if socket.owner ∈ members then socket.clear else socket) := by
  rw [socket?_wiped, held]
  rfl

theorem wiped_nil (graph : Graph) : graph.wiped [] = graph := by
  refine ext_parts rfl (fun id => ?_) (fun id => ?_) rfl
  · rw [component?_wiped]
    simp
  · rw [socket?_wiped]
    simp

theorem wiped_wiped (graph : Graph) (first : ComponentId) (rest : List ComponentId) :
    (graph.wiped [first]).wiped rest = graph.wiped (first :: rest) := by
  refine ext_parts rfl (fun id => ?_) (fun id => ?_) rfl
  · rw [component?_wiped, component?_wiped, component?_wiped, Option.map_map]
    refine congrArg (Option.map · _) (funext fun node => ?_)
    by_cases isFirst : id = first <;> by_cases later : id ∈ rest <;> simp [isFirst, later, Component.clear]
  · rw [socket?_wiped, socket?_wiped, socket?_wiped, Option.map_map]
    refine congrArg (Option.map · _) (funext fun socket => ?_)
    by_cases isFirst : socket.owner = first <;> by_cases later : socket.owner ∈ rest <;>
      simp [isFirst, later, Socket.clear]

theorem wiring_wiped (graph : Graph) (members : List ComponentId) : (graph.wiped members).wiring = graph.wiring := by
  refine ext_parts rfl (fun id => ?_) (fun id => ?_) rfl
  · rw [component?_wiring, component?_wiring, component?_wiped, Option.map_map]
    refine congrArg (Option.map · _) (funext fun node => ?_)
    show Component.wiring (if _ then _ else _) = _
    split <;> rfl
  · rw [socket?_wiring, socket?_wiring, socket?_wiped, Option.map_map]
    refine congrArg (Option.map · _) (funext fun socket => ?_)
    show Socket.wiring (if _ then _ else _) = _
    split <;> rfl

/-! The marks that are left. -/

theorem spaceOf_wiped {id : SocketId} {socket : Socket} (held : graph.socket? id = some socket) :
    (graph.wiped members).spaceOf id = if socket.owner ∈ members then none else socket.space := by
  rw [spaceOf, socket?_wiped_some held]
  show Socket.space (if _ then _ else _) = _
  split <;> rfl

theorem isComplete_wiped (graph : Graph) (members : List ComponentId) (id : ComponentId) :
    (graph.wiped members).isComplete id = if id ∈ members then false else graph.isComplete id := by
  rw [isComplete, isComplete, component?_wiped]
  cases graph.component? id <;> split <;> rfl

theorem deferredOf_wiped (graph : Graph) (members : List ComponentId) (id : ComponentId) :
    (graph.wiped members).deferredOf id = if id ∈ members then [] else graph.deferredOf id := by
  rw [deferredOf, deferredOf, component?_wiped]
  cases graph.component? id <;> split <;> rfl

theorem Sound.wiped (sound : Sound graph) (members : List ComponentId) : Sound (graph.wiped members) := by
  refine sound.change (.state _ (wiring_wiped graph members) fun owner socket waits => .inl ?_)
  rw [deferredOf_wiped] at waits
  split at waits
  · cases waits
  · exact waits

end Graph

namespace Build

open Wiring.Graph

/-! ### Clearing -/

theorem socket?_clearSockets (sockets : List SocketId) (graph : Graph) (id : SocketId) :
    (sockets.foldl (fun graph socket => graph.changeSocket socket Socket.clear) graph).socket? id =
      (graph.socket? id).map fun socket => if id ∈ sockets then socket.clear else socket := by
  induction sockets generalizing graph with
  | nil => simp
  | cons first rest inductionHypothesis =>
      rw [List.foldl_cons, inductionHypothesis, socket?_changeSocket]
      by_cases isFirst : first = id
      · subst isFirst
        rw [if_pos rfl, Option.map_map]
        refine congrArg (Option.map · _) (funext fun socket => ?_)
        by_cases later : first ∈ rest <;> simp [later, Socket.clear]
      · simp [isFirst, Ne.symm isFirst]

/-- Only sockets are cleared. -/
theorem clearSockets_eq (sockets : List SocketId) (graph : Graph) : ∃ changed,
    sockets.foldl (fun graph socket => graph.changeSocket socket Socket.clear) graph =
      { graph with sockets := changed } := by
  induction sockets generalizing graph with
  | nil => exact ⟨graph.sockets, rfl⟩
  | cons first rest inductionHypothesis =>
      rcases inductionHypothesis (graph.changeSocket first Socket.clear) with ⟨changed, same⟩
      exact ⟨changed, same⟩

theorem run_reset {graph : Graph} (sound : SocketsSound graph) {id : ComponentId} {node : Component}
    (found : graph.component? id = some node) : (reset id).run graph = (.ok ⟨⟩, graph.wiped [id]) := by
  have held : ∀ socket ∈ node.sockets, ∃ known, graph.socket? socket = some known := by
    intro socket listed
    rcases (sound.mem_sockets found).mp listed with ⟨known, knownHeld, -⟩
    exact ⟨known, knownHeld⟩
  unfold reset
  rw [run_query_bind (heldComponent_eq_ok.mpr found)]
  refine (run_bind_ok (run_editSockets graph Socket.clear node.sockets held) _).trans ?_
  have lookups := socket?_clearSockets node.sockets graph
  rcases clearSockets_eq node.sockets graph with ⟨changed, same⟩
  rw [same] at lookups ⊢
  have still : ({ graph with sockets := changed } : Graph).component? id = some node := found
  refine (run_editComponent still Component.clear).trans (congrArg (Prod.mk _) ?_)
  refine ext_parts rfl (fun other => ?_) (fun other => ?_) rfl
  · rw [component?_changeComponent, component?_wiped]
    show (if _ then (graph.component? other).map _ else graph.component? other) = _
    by_cases isId : id = other
    · simp [isId]
    · simp [isId, Ne.symm isId]
  · refine (lookups other).trans ?_
    rw [socket?_wiped]
    cases otherHeld : graph.socket? other with
    | none => rfl
    | some socket =>
        have listed : other ∈ node.sockets ↔ socket.owner ∈ [id] := by
          rw [sound.mem_sockets found, List.mem_singleton, otherHeld]
          exact ⟨fun ⟨_, is, owned⟩ => Option.some.inj is ▸ owned, fun owned => ⟨socket, rfl, owned⟩⟩
        exact congrArg some (if_congr listed rfl rfl)

/-- Clearing the members one after the other succeeds. -/
theorem run_resets (members : List ComponentId) {graph : Graph} (sound : SocketsSound graph)
    (exist : ∀ member ∈ members, ∃ node, graph.component? member = some node) :
    (members.forM reset).run graph = (.ok ⟨⟩, graph.wiped members) := by
  induction members generalizing graph with
  | nil => exact congrArg (Prod.mk _) (wiped_nil graph).symm
  | cons first rest inductionHypothesis =>
      rcases exist first List.mem_cons_self with ⟨node, found⟩
      rw [forM_cons, run_bind_ok (run_reset sound found), ← wiped_wiped graph first rest]
      refine inductionHypothesis (sound.of_wiring (wiring_wiped graph [first])) fun member isMember => ?_
      rcases exist member (List.mem_cons_of_mem first isMember) with ⟨other, otherFound⟩
      exact ⟨_, component?_wiped_some otherFound⟩

/-! ### The whole build -/

/-- The tasks with which a build begins. -/
def initialTasks (members : List ComponentId) : List Task :=
  members.map .seed ++ members.map .check

theorem mem_initialTasks {members : List ComponentId} {task : Task} (member : task ∈ initialTasks members) :
    (∃ id ∈ members, task = .seed id) ∨ ∃ id ∈ members, task = .check id := by
  rcases List.mem_append.mp member with seed | check
  · rcases List.mem_map.mp seed with ⟨id, isMember, rfl⟩
    exact .inl ⟨id, isMember, rfl⟩
  · rcases List.mem_map.mp check with ⟨id, isMember, rfl⟩
    exact .inr ⟨id, isMember, rfl⟩

theorem fed_initialTasks (members : List ComponentId) (graph : Graph) : ∀ task ∈ initialTasks members, Fed graph task := by
  intro task member
  rcases mem_initialTasks member with ⟨id, -, rfl⟩ | ⟨id, -, rfl⟩
  · trivial
  · trivial

/-- Nothing has happened yet, and the members bear no marks. -/
structure Book.Fresh (graph : Graph) (members : List ComponentId) (book : Book) : Prop where
  account : book.account = {}
  log : book.log = {}
  arrivals : book.arrivals = []
  served : book.served = 0
  fired : book.fired = []
  space : ∀ member ∈ members, ∀ node, graph.component? member = some node →
    ∀ socket ∈ node.sockets, book.space socket = none
  complete : ∀ member ∈ members, book.complete member = false
  deferred : ∀ member ∈ members, book.deferred member = []
  /-- Earlier builds made no other sockets wait than those of the component itself. -/
  waiting : ∀ owner, ∀ socket ∈ book.deferred owner, ∃ held, graph.socket? socket = some held ∧ held.owner = owner

/-- A build that returned a report: the work between two books, and what is left of the second one. -/
structure Built (session : Session) (root : ComponentId) (report : Report) (final : Session) where
  members : List ComponentId
  start : Book
  finish : Book
  listed : session.graph.subtree root = .ok members
  fresh : start.Fresh session.graph members
  history : start.history = firedEvents session.trace
  finishes : Finishes session.graph (initialTasks members) start finish
  log : report.log = finish.log
  opsAt : ∀ socket, report.opsAt socket = finish.opsAt socket
  space : final.graph.spaceOf = finish.space
  wired : final.graph.wiring = session.graph.wiring
  incomplete : ∀ id, id ∈ report.incomplete ↔ id ∈ members ∧ finish.complete id = false
  trace : firedEvents final.trace = finish.history

/-- The incomplete members, looked up one after the other. -/
theorem mem_incomplete {graph : Graph} {members : List ComponentId} {states : List Component}
    (held : members.mapM graph.heldComponent = .ok states) (id : ComponentId) :
    id ∈ ((members.zip states).filter fun member => !member.2.complete).map Prod.fst ↔
      id ∈ members ∧ graph.isComplete id = false := by
  have each := mapM_eq_ok.mp held
  clear held
  induction each with
  | nil => simp
  | cons head tail inductionHypothesis =>
      rename_i first node rest nodes
      have found := heldComponent_eq_ok.mp head
      rw [List.zip_cons_cons, List.filter_cons]
      by_cases complete : node.complete = true
      · simp only [complete, Bool.not_true, Bool.false_eq_true, if_false]
        refine inductionHypothesis.trans ?_
        rw [List.mem_cons]
        constructor
        · rintro ⟨member, incomplete⟩
          exact ⟨.inr member, incomplete⟩
        · rintro ⟨rfl | member, incomplete⟩
          · rw [isComplete_eq found, complete] at incomplete
            contradiction
          · exact ⟨member, incomplete⟩
      · rw [Bool.not_eq_true] at complete
        simp only [complete, Bool.not_false, if_true, List.map_cons, List.mem_cons]
        refine (or_congr_right inductionHypothesis).trans ?_
        constructor
        · rintro (rfl | ⟨member, incomplete⟩)
          · exact ⟨.inl rfl, (isComplete_eq found).trans complete⟩
          · exact ⟨.inr member, incomplete⟩
        · rintro ⟨rfl | member, incomplete⟩
          · exact .inl rfl
          · exact .inr ⟨member, incomplete⟩

theorem of_session_query_bind_ok {α β : Type} {question : Graph → Except Error α} {next : α → SessionM β}
    {session final : Session} {answer : β}
    (ran : (Session.ofGraph (query question) >>= next).run session = (.ok answer, final)) :
    ∃ value, question session.graph = .ok value ∧ (next value).run session = (.ok answer, final) := by
  rcases of_run_bind_ok ran with ⟨value, middle, asked, ran⟩
  have answered : Session.stopOnError (question session.graph) = .ok value := congrArg Prod.fst asked
  have same : session = middle := congrArg Prod.snd asked
  cases known : question session.graph with
  | error error =>
      rw [known] at answered
      cases answered
  | ok other =>
      rw [known] at answered
      cases answered
      exact ⟨value, rfl, same ▸ ran⟩

theorem visits_of_wiring {graph later : Graph} (same : later.wiring = graph.wiring)
    {waiting members : List ComponentId} (visits : graph.Visits waiting members) : later.Visits waiting members := by
  refine visits.of_children fun id node found => ?_
  rcases component?_of_wiring same.symm found with ⟨new, newFound, wired⟩
  have children : node.wiring.children = new.wiring.children := congrArg Component.children wired
  exact ⟨new, newFound, children.symm⟩

/-- Marks and variables do not change what belongs to a subtree. -/
theorem subtree_of_wiring {graph later : Graph} (same : later.wiring = graph.wiring) {root : ComponentId}
    {members : List ComponentId} (listed : graph.subtree root = .ok members) : later.subtree root = .ok members := by
  rcases except_bind_eq_ok.mp listed with ⟨node, held, descended⟩
  rcases component?_of_wiring same.symm (component_eq_ok.mp held) with ⟨other, found, -⟩
  rcases descend_eq_ok.mp descended with ⟨visits, bounded⟩
  have size : later.components.size = graph.components.size := by
    have sizes := congrArg (fun graph : Graph => graph.components.size) same
    simpa [Graph.wiring] using sizes
  exact except_bind_eq_ok.mpr ⟨other, component_eq_ok.mpr found,
    descend_eq_ok.mpr ⟨visits_of_wiring same visits, size ▸ bounded⟩⟩

/-- The state in which the work begins, on the cleared graph. -/
def startState (session : Session) (root : ComponentId) (graph : Graph) : BuildState where
  session := { session with calls := 0, trace := session.trace.push (.buildStarted root), graph }

theorem wiring_startState (session : Session) (root : ComponentId) (members : List ComponentId) :
    (startState session root (session.graph.wiped members)).graph.wiring = session.graph.wiring :=
  wiring_wiped session.graph members

theorem fresh_startState (session : Session) (sound : Sound session.graph) (root : ComponentId)
    (members : List ComponentId) :
    (bookOf {} (startState session root (session.graph.wiped members))).Fresh session.graph members := by
  refine ⟨rfl, rfl, rfl, rfl, rfl, ?_, ?_, ?_, ?_⟩
  · intro member isMember node found socket listed
    rcases (sound.sockets.mem_sockets found).mp listed with ⟨held, heldFound, owned⟩
    exact (spaceOf_wiped heldFound).trans (if_pos (owned ▸ isMember))
  · exact fun member isMember => (isComplete_wiped _ _ member).trans (if_pos isMember)
  · exact fun member isMember => (deferredOf_wiped _ _ member).trans (if_pos isMember)
  · intro owner socket waits
    rcases (sound.wiped members).waiting owner socket waits with ⟨held, heldFound, owned⟩
    rcases socket?_of_wiring (wiring_wiped session.graph members) heldFound with ⟨old, oldFound, same⟩
    exact ⟨old, oldFound, (Socket.fields_of_wiring same).1.symm.trans owned⟩

/-- How a build ends after its work. -/
def conclude (config : BuildConfig) (members : List ComponentId) (result : Except Stop Unit) (state : BuildState) :
    SessionM Report :=
  match result with
  | .error stop => throw stop
  | .ok () => do
      let states ← Session.ofGraph (query fun graph => members.mapM graph.heldComponent)
      let incomplete := (members.zip states).filter fun member => !member.2.complete
      if !incomplete.isEmpty && !config.allowIncomplete then
        Session.fail (.incompleteBuild (incomplete.map fun member => member.2.name))
      return {
        log := state.log
        arrivals := state.arrivals
        completed := state.completed.toList
        incomplete := incomplete.map Prod.fst }

theorem run_conclude {hooks : HookRunner} {fuel : Nat} {root : ComponentId} {config : BuildConfig}
    {session : Session} {members : List ComponentId} {opened : Graph}
    (listed : session.graph.subtree root = .ok members)
    (cleared : (members.forM reset).run session.graph = (.ok ⟨⟩, opened)) :
    (run hooks fuel root config).run session =
      (conclude config members (outcome (work hooks fuel (initialTasks members)) (startState session root opened))
        (after (work hooks fuel (initialTasks members)) (startState session root opened))).run
        (after (work hooks fuel (initialTasks members)) (startState session root opened)).session := by
  unfold run
  rw [run_bind_ok (run_modify _ session)]
  have recorded : (Session.record (.buildStarted root)).run { session with calls := 0 } =
      (.ok ⟨⟩, { session with calls := 0, trace := session.trace.push (.buildStarted root) }) := rfl
  rw [run_bind_ok recorded]
  have asked : (Session.ofGraph (query (·.subtree root))).run
      { session with calls := 0, trace := session.trace.push (.buildStarted root) } =
      (.ok members, { session with calls := 0, trace := session.trace.push (.buildStarted root) }) :=
    congrArg (fun answer => (Session.stopOnError answer, _)) listed
  rw [run_bind_ok asked]
  have clearing : (Session.ofGraph (members.forM reset)).run
      { session with calls := 0, trace := session.trace.push (.buildStarted root) } =
      (.ok ⟨⟩, { session with calls := 0, trace := session.trace.push (.buildStarted root), graph := opened }) := by
    rw [Session.run_ofGraph, outcome_of_run cleared, after_of_run cleared]
    rfl
  rw [run_bind_ok clearing, run_bind_ok (run_get _)]
  rfl

/-- A build of a component that does not exist ends before it begins. -/
theorem run_unlisted {hooks : HookRunner} {fuel : Nat} {root : ComponentId} {config : BuildConfig}
    {session : Session} {error : Error} (unlisted : session.graph.subtree root = .error error) :
    (run hooks fuel root config).run session = (.error (.failed error),
      { session with calls := 0, trace := session.trace.push (.buildStarted root) }) := by
  unfold run
  rw [run_bind_ok (run_modify _ session)]
  have recorded : (Session.record (.buildStarted root)).run { session with calls := 0 } =
      (.ok ⟨⟩, { session with calls := 0, trace := session.trace.push (.buildStarted root) }) := rfl
  rw [run_bind_ok recorded]
  have asked : (Session.ofGraph (query (·.subtree root))).run
      { session with calls := 0, trace := session.trace.push (.buildStarted root) } =
      (.error (.failed error), { session with calls := 0, trace := session.trace.push (.buildStarted root) }) :=
    congrArg (fun answer => (Session.stopOnError answer, _)) unlisted
  exact run_bind_error asked _

/-- Nothing is edited after the work. -/
theorem after_conclude (config : BuildConfig) (members : List ComponentId) (result : Except Stop Unit)
    (state : BuildState) (session : Session) : after (conclude config members result state) session = session := by
  have still : Keeps Eq (conclude config members result state) := by
    cases result with
    | error stop => exact Keeps.throw _
    | ok =>
        refine Keeps.bind (fun _ => rfl) fun states => ?_
        dsimp only
        split
        · exact Keeps.bind (Keeps.throw _) fun _ => Keeps.pure _
        · exact Keeps.pure _
  exact (still session).symm

/-- A build of a component that exists ends with its work. -/
theorem after_run {hooks : HookRunner} {fuel : Nat} {root : ComponentId} {config : BuildConfig} {session : Session}
    {members : List ComponentId} (sound : Sound session.graph) (listed : session.graph.subtree root = .ok members) :
    after (run hooks fuel root config) session =
      (after (work hooks fuel (initialTasks members)) (startState session root (session.graph.wiped members))).session := by
  have exist : ∀ member ∈ members, ∃ node, session.graph.component? member = some node :=
    fun member isMember => subtree_found sound.tree listed isMember
  rw [after_of_run (run_conclude listed (run_resets members sound.sockets exist))]
  exact after_conclude config members _ _ _

/-- A build that returns a report has done its work. -/
theorem of_run_ok {hooks : HookRunner} {fuel : Nat} {root : ComponentId} {config : BuildConfig}
    {session final : Session} {report : Report} (sound : Sound session.graph)
    (ran : (run hooks fuel root config).run session = (.ok report, final)) :
    ∃ members worked, session.graph.subtree root = .ok members ∧
      (work hooks fuel (initialTasks members)).run (startState session root (session.graph.wiped members)) =
        (.ok ⟨⟩, worked) ∧
      (conclude config members (.ok ⟨⟩) worked).run final = (.ok report, final) ∧ worked.session = final := by
  cases listed : session.graph.subtree root with
  | error error =>
      rw [run_unlisted listed] at ran
      cases congrArg Prod.fst ran
  | ok members =>
      have exist : ∀ member ∈ members, ∃ node, session.graph.component? member = some node :=
        fun member isMember => subtree_found sound.tree listed isMember
      rw [run_conclude listed (run_resets members sound.sockets exist)] at ran
      cases working : (work hooks fuel (initialTasks members)).run
        (startState session root (session.graph.wiped members)) with
      | mk answer worked =>
          rw [outcome_of_run working, after_of_run working] at ran
          obtain rfl : worked.session = final :=
            (after_conclude config members answer worked worked.session).symm.trans (after_of_run ran)
          cases answer with
          | error stop => cases congrArg Prod.fst ran
          | ok answer => exact ⟨members, worked, rfl, working, ran, rfl⟩

/-- What such a build has to do with the book. -/
theorem run_built {hooks : HookRunner} {fuel : Nat} {root : ComponentId} {config : BuildConfig}
    {session final : Session} {report : Report} (sound : Sound session.graph)
    (registers : hooks.Registers session.graph)
    (ran : (run hooks fuel root config).run session = (.ok report, final)) :
    Nonempty (Built session root report final) := by
  rcases of_run_ok sound ran with ⟨members, worked, listed, working, concluded, rfl⟩
  rcases work_finishes registers (wiring_startState session root members) working with ⟨account, finishes, wired⟩
  rcases of_session_query_bind_ok concluded with ⟨states, held, concluded⟩
  have reported : report = {
      log := worked.log
      arrivals := worked.arrivals
      completed := worked.completed.toList
      incomplete := ((members.zip states).filter fun member => !member.2.complete).map Prod.fst } := by
    dsimp only at concluded
    split at concluded
    · cases congrArg Prod.fst concluded
    · exact (of_run_pure concluded).1.symm
  subst reported
  exact ⟨{
    members, listed, finishes, wired
    start := bookOf {} (startState session root (session.graph.wiped members))
    finish := bookOf account worked
    fresh := fresh_startState session sound root members
    history := by simp [bookOf, startState, firedEvents, Event.fired?]
    log := rfl
    opsAt := fun _ => rfl
    space := rfl
    incomplete := mem_incomplete held
    trace := rfl }⟩

end Build

end Wiring
