import Wiring.Proofs.Build.Closure
import Wiring.Proofs.Build.Confined
import Wiring.Proofs.Build.Edits

/-!
Contract: what a build leaves alone.

Owns: `Spills`, the rules by which ops come to sockets and complete components beyond the subtree that is built;
`Spares`, by which nothing else outside of the subtree differs; `Tracked`, by which tasks and marks stay within the
rules; and that every build spares what its ops do not reach, whatever its outcome. If no link leaves the subtree,
nothing outside differs at all.

Does not own: the values of variables, which are the concern of the store.
-/

namespace Wiring.Build

open Wiring.Graph

/-! ### Rules for what ops can reach -/

/-- A socket outside of the subtree with a space from an earlier build. -/
def Lasting (graph : Graph) (root : ComponentId) (socket : SocketId) : Prop :=
  ∃ held, graph.socket? socket = some held ∧ ¬graph.Above root held.owner ∧ held.space.isSome

/-- The component becomes complete, or it is outside of the subtree and has been complete before. Then a computation
without inputs does not fire again. -/
def MayFire (graph : Graph) (root : ComponentId) (reach : Set SocketId × Set ComponentId) (computation : Computation) :
    Prop :=
  computation.owner ∈ reach.2 ∨
    (¬graph.Above root computation.owner ∧ graph.isComplete computation.owner = true ∧ computation.inputs ≠ [])

/-- Sockets that hold all those which ops can reach, and components that hold all those which become complete. -/
structure Spills (graph : Graph) (root : ComponentId) (reach : Set SocketId × Set ComponentId) : Prop where
  bound : ∀ socket held space, graph.socket? socket = some held → graph.Above root held.owner →
    .space space ∈ held.incoming → socket ∈ reach.1
  linked : ∀ source target held, graph.socket? source = some held → source ∈ reach.1 →
    .socket target ∈ held.outgoing → target ∈ reach.1
  computed : ∀ id computation, graph.computation? id = some computation → MayFire graph root reach computation →
    (∀ input ∈ computation.inputs, input ∈ reach.1) → ∀ output ∈ computation.outputs, output ∈ reach.1
  /-- Outside of the subtree only components are checked to which an op has come. -/
  complete : ∀ id node, graph.component? id = some node →
    (graph.Above root id ∨ (node.complete = false ∧ ∃ input ∈ node.inputs, input ∈ reach.1)) →
    (∀ input ∈ node.inputs, input ∈ reach.1 ∨ Lasting graph root input) → id ∈ reach.2

/-- What is outside of the subtree and beyond the reach of ops is the same. -/
structure Spares (graph : Graph) (root : ComponentId) (reach : Set SocketId × Set ComponentId) (later : Graph) :
    Prop where
  complete : ∀ id node, ¬graph.Above root id → graph.component? id = some node → node.complete = true →
    later.component? id = some node
  /-- Sockets may begin to wait for a component that does not become complete, if ops reach them. -/
  incomplete : ∀ id node, ¬graph.Above root id → graph.component? id = some node → node.complete = false →
    id ∉ reach.2 → ∃ more, (∀ socket ∈ more, socket ∈ node.sockets ∧ socket ∈ reach.1) ∧
      later.component? id = some { node with deferred := node.deferred ++ more }
  socket : ∀ id held, graph.socket? id = some held → ¬graph.Above root held.owner →
    held.space.isSome ∨ id ∉ reach.1 → later.socket? id = some held

variable {hooks : HookRunner} {graph later : Graph} {root : ComponentId} {reach : Set SocketId × Set ComponentId}
  {state : BuildState} {task : Task} {waiting more : List Task} {book final : Book}

/-! ### Edits within reach -/

namespace Spares

theorem refl (graph : Graph) (root : ComponentId) (reach : Set SocketId × Set ComponentId) :
    Spares graph root reach graph where
  complete _ _ _ found _ := found
  incomplete id node _ found _ _ := ⟨[], by simp, by rw [List.append_nil]; exact found⟩
  socket _ _ found _ _ := found

/-- Clearing concerns the members only. -/
theorem wiped {members : List ComponentId} (inside : ∀ id, id ∈ members ↔ graph.Above root id) :
    Spares graph root reach (graph.wiped members) := by
  have kept {id : ComponentId} {node : Component} (outside : ¬graph.Above root id)
      (found : graph.component? id = some node) : (graph.wiped members).component? id = some node := by
    rw [component?_wiped_some found, if_neg (mt (inside id).mp outside)]
  constructor
  · exact fun id node outside found _ => kept outside found
  · intro id node outside found _ _
    exact ⟨[], by simp, by rw [List.append_nil]; exact kept outside found⟩
  · intro id held found outside _
    rw [socket?_wiped_some found, if_neg (mt (inside _).mp outside)]

variable (spares : Spares graph root reach later)
include spares

/-- A socket that an op has reached takes a space, if it has none. -/
theorem takeSpace {socket : SocketId} {target : Socket} (held : later.socket? socket = some target)
    (unresolved : target.space = none) (reached : socket ∈ reach.1) (space : Space) :
    Spares graph root reach (later.changeSocket socket (Socket.takeSpace space)) where
  complete := spares.complete
  incomplete := spares.incomplete
  socket id old found outside kept := by
    have same := spares.socket id old found outside kept
    have apart : socket ≠ id := by
      rintro rfl
      obtain rfl := Option.some.inj (held.symm.trans same)
      rcases kept with resolved | beyond
      · rw [unresolved] at resolved
        cases resolved
      · exact beyond reached
    rw [socket?_changeSocket, if_neg apart]
    exact same

/-- A socket that an op has reached waits for its component. -/
theorem defer (sound : Sound graph) {owner : ComponentId} {node : Component}
    (found : later.component? owner = some node) (pending : node.complete = false) {socket : SocketId} {held : Socket}
    (known : graph.socket? socket = some held) (owned : held.owner = owner) (reached : socket ∈ reach.1) :
    Spares graph root reach (later.changeComponent owner (Component.defer socket)) where
  complete id old outside oldFound complete := by
    have same := spares.complete id old outside oldFound complete
    have apart : owner ≠ id := by
      rintro rfl
      obtain rfl := Option.some.inj (found.symm.trans same)
      rw [pending] at complete
      cases complete
    rw [component?_changeComponent, if_neg apart]
    exact same
  incomplete id old outside oldFound incomplete beyond := by
    rcases spares.incomplete id old outside oldFound incomplete beyond with ⟨more, waiting, same⟩
    rw [component?_changeComponent]
    by_cases own : owner = id
    · subst own
      refine ⟨more ++ [socket], fun other member => ?_, ?_⟩
      · rcases List.mem_append.mp member with old | new
        · exact waiting other old
        · obtain rfl := List.mem_singleton.mp new
          exact ⟨(sound.sockets.mem_sockets oldFound).mpr ⟨held, known, owned⟩, reached⟩
      · rw [if_pos rfl, same, ← List.append_assoc]
        rfl
    · rw [if_neg own]
      exact ⟨more, waiting, same⟩
  socket := spares.socket

/-- A component becomes complete, inside of the subtree or in reach. -/
theorem ready {id : ComponentId} {node : Component} (found : later.component? id = some node)
    (pending : node.complete = false) (within : graph.Above root id ∨ id ∈ reach.2) {final : Graph}
    (only : OnlyAt id later final) : Spares graph root reach final where
  complete other old outside oldFound complete := by
    have same := spares.complete other old outside oldFound complete
    have apart : other ≠ id := by
      rintro rfl
      obtain rfl := Option.some.inj (found.symm.trans same)
      rw [pending] at complete
      cases complete
    rw [only.component other apart]
    exact same
  incomplete other old outside oldFound incomplete beyond := by
    have apart : other ≠ id := by
      rintro rfl
      exact within.elim outside beyond
    rw [only.component other apart]
    exact spares.incomplete other old outside oldFound incomplete beyond
  socket other old oldFound outside kept := by
    rw [only.socket]
    exact spares.socket other old oldFound outside kept

end Spares

/-! ### Tasks within reach -/

/-- What brings a task about. -/
def Tracks (graph : Graph) (root : ComponentId) (reach : Set SocketId × Set ComponentId) : Task → Prop
  | .seed id => graph.Above root id
  | .seedSocket _ socket => ∃ held, graph.socket? socket = some held ∧ graph.Above root held.owner
  | .place _ socket _ | .deliver socket _ => socket ∈ reach.1
  | .check id => graph.Above root id ∨
      ∃ node, graph.component? id = some node ∧ ∃ input ∈ node.inputs, input ∈ reach.1
  | .forward socket _ connection =>
      socket ∈ reach.1 ∧ ∃ held, graph.socket? socket = some held ∧ connection ∈ held.outgoing
  | .wake socket => ∃ held, graph.socket? socket = some held ∧ held.owner ∈ reach.2
  | .fireSources id => id ∈ reach.2
  | .fire id => ∃ computation, graph.computation? id = some computation ∧ MayFire graph root reach computation
  | .fireWith id _ => ∃ computation, graph.computation? id = some computation ∧
      MayFire graph root reach computation ∧ ∀ input ∈ computation.inputs, input ∈ reach.1

structure Tracked (graph : Graph) (root : ComponentId) (reach : Set SocketId × Set ComponentId) (tasks : List Task)
    (book : Book) : Prop where
  tasks : ∀ task ∈ tasks, Tracks graph root reach task
  arrivals : ∀ arrival ∈ book.arrivals, arrival.socket ∈ reach.1
  space : ∀ socket, (book.space socket).isSome → socket ∈ reach.1 ∨ Lasting graph root socket
  complete : ∀ id, book.complete id = true →
    id ∈ reach.2 ∨ (¬graph.Above root id ∧ graph.isComplete id = true)
  lasting : ∀ id, ¬graph.Above root id → graph.isComplete id = true → book.complete id = true
  waiting : ∀ owner, ∀ socket ∈ book.deferred owner, ∃ held, graph.socket? socket = some held ∧ held.owner = owner

namespace Tracked

section Step

variable (sound : Sound graph) (spills : Spills graph root reach)
  (tracked : Tracked graph root reach (task :: waiting) book) (step : Step graph task book more final)
include spills tracked step

/-- Only components in reach become complete. -/
theorem step_completes {id : ComponentId} (incomplete : book.complete id = false)
    (complete : final.complete id = true) : id ∈ reach.2 := by
  rcases step.completes_of incomplete complete with ⟨rfl, -, -⟩
  rcases step.complete complete with already | ⟨node, found, resolved⟩
  · rw [incomplete] at already
    cases already
  refine spills.complete id node found ?_ fun input isInput => tracked.space input (resolved input isInput)
  by_cases inside : graph.Above root id
  · exact .inl inside
  · rcases tracked.tasks _ List.mem_cons_self with above | ⟨other, otherFound, reached⟩
    · exact absurd above inside
    · obtain rfl := Option.some.inj (found.symm.trans otherFound)
      refine .inr ⟨?_, reached⟩
      rw [← isComplete_eq found, ← Bool.not_eq_true]
      intro before
      rw [tracked.lasting id inside before] at incomplete
      cases incomplete

/-- A check that gives rise to tasks has completed the component. -/
theorem step_ready {id : ComponentId} (checks : task = .check id) (gives : more ≠ []) : id ∈ reach.2 := by
  subst checks
  have completes : book.complete id = false ∧ final.complete id = true := by
    cases step with
    | completes _ node _ found incomplete => exact ⟨incomplete, Function.update_self ..⟩
    | _ => exact absurd rfl gives
  exact tracked.step_completes spills step completes.1 completes.2

theorem step_complete : ∀ id, final.complete id = true →
    id ∈ reach.2 ∨ (¬graph.Above root id ∧ graph.isComplete id = true) := by
  intro id complete
  cases before : book.complete id with
  | true => exact tracked.complete id before
  | false => exact .inl (tracked.step_completes spills step before complete)

omit spills in
theorem step_arrivals : ∀ arrival ∈ final.arrivals, arrival.socket ∈ reach.1 := by
  intro arrival member
  rcases step.arrivals with same | ⟨socket, op, rfl, -, added⟩
  · exact tracked.arrivals arrival (same ▸ member)
  · rw [added] at member
    rcases List.mem_append.mp member with old | new
    · exact tracked.arrivals arrival old
    · obtain rfl := List.mem_singleton.mp new
      exact tracked.tasks _ List.mem_cons_self

omit spills in
theorem step_space : ∀ socket, (final.space socket).isSome → socket ∈ reach.1 ∨ Lasting graph root socket := by
  intro socket resolved
  cases step with
  | first other op held =>
      have resolved : (Function.update book.space other (some op.space) socket).isSome := resolved
      by_cases same : socket = other
      · subst same
        exact .inl (tracked.tasks _ List.mem_cons_self)
      · rw [Function.update_of_ne same] at resolved
        exact tracked.space socket resolved
  | _ => exact tracked.space socket resolved

include sound

omit spills in
theorem step_waiting :
    ∀ owner, ∀ socket ∈ final.deferred owner, ∃ held, graph.socket? socket = some held ∧ held.owner = owner := by
  intro owner socket waits
  rcases step.deferred waits with old | ⟨op, id, computation, rfl, found, owned⟩
  · exact tracked.waiting owner socket old
  · rcases tracked.tasks _ List.mem_cons_self with ⟨-, held, heldFound, reads⟩
    rcases sound.reader heldFound reads with ⟨other, otherFound, same⟩
    obtain rfl := Option.some.inj (found.symm.trans otherFound)
    exact ⟨held, heldFound, same.symm.trans owned⟩

theorem step_tasks : ∀ new ∈ more, Tracks graph root reach new := by
  have tracks := tracked.tasks task List.mem_cons_self
  intro new member
  cases new with
  | seed => exact absurd member step.gives_seed
  | seedSocket id socket =>
      rcases step.gives_seedSocket member with ⟨rfl, node, found, listed⟩
      rcases (sound.sockets.mem_sockets found).mp listed with ⟨held, heldFound, owned⟩
      exact ⟨held, heldFound, owned ▸ tracks⟩
  | place id socket space =>
      rcases step.gives_place member with ⟨rfl, held, found, entered⟩
      rcases tracks with ⟨other, otherFound, inside⟩
      obtain rfl := Option.some.inj (found.symm.trans otherFound)
      exact spills.bound socket held space found inside entered
  | deliver socket op =>
      rcases step.gives_deliver member with ⟨id, space, rfl, -, -⟩ | ⟨source, rfl⟩ |
        ⟨firing, computation, log, rfl, found, -, returned, -⟩
      · exact tracks
      · rcases tracks with ⟨reached, held, found, entered⟩
        exact spills.linked source socket held found reached entered
      · rcases tracks with ⟨other, otherFound, mayFire, fed⟩
        obtain rfl := Option.some.inj (found.symm.trans otherFound)
        exact spills.computed _ computation found mayFire fed socket (List.of_mem_zip returned).1
  | check id =>
      rcases step.gives_check member with ⟨socket, op, held, rfl, found, rfl, isInput⟩
      rcases sound.sockets.owner socket held found with ⟨node, nodeFound⟩
      have listed := ((sound.sockets.ports _ node nodeFound).inputs socket).mpr ⟨held, found, rfl, isInput⟩
      exact .inr ⟨node, nodeFound, socket, listed, tracks⟩
  | forward => exact absurd member step.gives_forward
  | wake socket =>
      rcases step.gives_wake member with ⟨id, checks, waits, -⟩
      rcases tracked.waiting id socket waits with ⟨held, heldFound, rfl⟩
      exact ⟨held, heldFound, tracked.step_ready spills step checks (List.ne_nil_of_mem member)⟩
  | fireSources id =>
      exact tracked.step_ready spills step (step.gives_fireSources member).1 (List.ne_nil_of_mem member)
  | fire id =>
      rcases step.gives_fire member with ⟨socket, op, computation, rfl, found, complete⟩ |
        ⟨socket, held, rfl, found, reads⟩ | ⟨owner, node, rfl, found, listed⟩
      · rcases tracks with ⟨-, held, heldFound, entered⟩
        refine ⟨computation, found, ?_⟩
        rcases tracked.step_complete spills step _ complete with reached | ⟨outside, before⟩
        · exact .inl reached
        · exact .inr ⟨outside, before, List.ne_nil_of_mem (read_of_entered sound found heldFound entered)⟩
      · rcases tracks with ⟨other, otherFound, reached⟩
        obtain rfl := Option.some.inj (found.symm.trans otherFound)
        rcases sound.reader found reads with ⟨computation, known, owned⟩
        exact ⟨computation, known, .inl (owned ▸ reached)⟩
      · rcases sound.source found listed with ⟨computation, known, owned⟩
        exact ⟨computation, known, .inl (owned ▸ tracks)⟩
  | fireWith id inputs =>
      rcases step.gives_fireWith member with ⟨rfl, rfl, computation, found, each⟩
      rcases tracks with ⟨other, otherFound, mayFire⟩
      obtain rfl := Option.some.inj (found.symm.trans otherFound)
      refine ⟨computation, found, mayFire, fun input isInput => ?_⟩
      rcases forall₂_of_mem_left each isInput with ⟨op, -, arrived⟩
      exact tracked.arrivals _ (Book.mem_opsAt.mp arrived)

theorem step_tracked : Tracked graph root reach (more ++ waiting) final where
  tasks new member := by
    rcases List.mem_append.mp member with given | old
    · exact tracked.step_tasks sound spills step new given
    · exact tracked.tasks new (List.mem_cons_of_mem task old)
  arrivals := tracked.step_arrivals step
  space := tracked.step_space step
  complete := tracked.step_complete spills step
  lasting id outside before := step.grows.complete id (tracked.lasting id outside before)
  waiting := tracked.step_waiting sound step

end Step

theorem serve (tracked : Tracked graph root reach [] book) {arrival : Arrival} {held : Socket}
    (next : book.arrivals[book.served]? = some arrival) (found : graph.socket? arrival.socket = some held) :
    Tracked graph root reach (held.outgoing.map (.forward arrival.socket arrival.op))
      { book with served := book.served + 1 } := by
  refine { tracked with tasks := fun task member => ?_ }
  rcases List.mem_map.mp member with ⟨connection, entered, rfl⟩
  exact ⟨tracked.arrivals arrival (List.mem_of_getElem? next), held, found, entered⟩

theorem move (sound : Sound graph) (spills : Spills graph root reach) {before later : List Task × Book}
    (move : Move graph before later) (tracked : Tracked graph root reach before.1 before.2) :
    Tracked graph root reach later.1 later.2 := by
  cases move with
  | task task waiting more book final step => exact tracked.step_tracked sound spills step
  | serve arrival held book next found => exact tracked.serve next found

/-- The work begins with the members and the marks of earlier builds elsewhere. -/
theorem start {session : Session} (sound : Sound session.graph) {members : List ComponentId}
    (listed : session.graph.subtree root = .ok members) :
    Tracked session.graph root reach (initialTasks members)
      (bookOf {} (startState session root (session.graph.wiped members))) where
  tasks task member := by
    have inside {id : ComponentId} (isMember : id ∈ members) := (mem_subtree sound.tree listed).mp isMember
    rcases mem_initialTasks member with ⟨id, isMember, rfl⟩ | ⟨id, isMember, rfl⟩
    · exact inside isMember
    · exact .inl (inside isMember)
  arrivals arrival member := by cases member
  space socket resolved := by
    have resolved : ((session.graph.wiped members).spaceOf socket).isSome := resolved
    cases found : session.graph.socket? socket with
    | none =>
        rw [spaceOf, socket?_wiped, found] at resolved
        cases resolved
    | some held =>
        rw [spaceOf_wiped found] at resolved
        by_cases isMember : held.owner ∈ members
        · rw [if_pos isMember] at resolved
          cases resolved
        · rw [if_neg isMember] at resolved
          exact .inr ⟨held, found, mt (mem_subtree sound.tree listed).mpr isMember, resolved⟩
  complete id complete := by
    have complete : (session.graph.wiped members).isComplete id = true := complete
    rw [isComplete_wiped] at complete
    by_cases isMember : id ∈ members
    · rw [if_pos isMember] at complete
      cases complete
    · rw [if_neg isMember] at complete
      exact .inr ⟨mt (mem_subtree sound.tree listed).mpr isMember, complete⟩
  lasting id outside before := by
    show (session.graph.wiped members).isComplete id = true
    rw [isComplete_wiped, if_neg (mt (mem_subtree sound.tree listed).mp outside)]
    exact before
  waiting := (fresh_startState session sound root members).waiting

end Tracked

/-! ### The whole build -/

/-- The edit of a task in reach spares everything else. -/
theorem Spares.perform (sound : Sound graph) (spills : Spills graph root reach) {account : Account}
    (wired : state.graph.wiring = graph.wiring) (spares : Spares graph root reach state.graph)
    (tracked : Tracked graph root reach (task :: waiting) (bookOf account state))
    (edited : Edited state.graph task later) : Spares graph root reach later := by
  have tracks := tracked.tasks _ List.mem_cons_self
  cases edited with
  | still => exact spares
  | takesSpace socket op target held unresolved => exact spares.takeSpace held unresolved tracks op.space
  | ready id node spaces _ found incomplete known only =>
      refine spares.ready found incomplete ?_ only
      rcases component?_of_wiring wired found with ⟨old, oldFound, same⟩
      have inputs := (Component.fields_of_wiring same).2.1
      by_cases inside : graph.Above root id
      · exact .inl inside
      · rcases tracks with above | ⟨other, otherFound, reached⟩
        · exact absurd above inside
        obtain rfl := Option.some.inj (oldFound.symm.trans otherFound)
        refine .inr (spills.complete id old oldFound (.inr ⟨?_, reached⟩) fun input isInput => ?_)
        · rw [← Bool.not_eq_true]
          intro before
          obtain rfl := Option.some.inj (found.symm.trans (spares.complete id old inside oldFound before))
          rw [before] at incomplete
          cases incomplete
        · exact tracked.space input (inputSpaces_some known input (inputs ▸ isInput))
  | defers socket op id computation node known found incomplete =>
      rcases tracks with ⟨reached, held, heldFound, entered⟩
      rcases sound.reader heldFound entered with ⟨other, otherFound, owned⟩
      rw [← computation?_of_wiring wired, known] at otherFound
      obtain rfl := Option.some.inj otherFound
      exact spares.defer sound found incomplete heldFound owned.symm reached

theorem work_spares (sound : Sound graph) (spills : Spills graph root reach) (registers : hooks.Registers graph)
    (fuel : Nat) {account : Account} {tasks : List Task} (wired : state.graph.wiring = graph.wiring)
    (spares : Spares graph root reach state.graph) (tracked : Tracked graph root reach tasks (bookOf account state)) :
    Spares graph root reach (after (work hooks fuel tasks) state).graph := by
  induction fuel generalizing state account tasks with
  | zero => exact spares
  | succ fuel inductionHypothesis =>
      cases tasks with
      | nil =>
          have still : Spares graph root reach (after serve state).graph := (serve_graph state).symm ▸ spares
          refine after_bind_of (Spares graph root reach ∘ BuildState.graph) still fun answer served => ?_
          have serving : serve.run state = (.ok answer, after serve state) := by rw [run_eq, served]
          have served : (answer = none ∧ _ ∧ _) ∨ ∃ more, answer = some more ∧
              Move graph ([], bookOf account state) (more, bookOf account (after serve state)) ∧ _ :=
            serve_ok wired serving
          rcases served with ⟨rfl, -, -⟩ | ⟨more, rfl, move, wiredAfter⟩
          · exact still
          · exact inductionHypothesis wiredAfter still (tracked.move sound spills move)
      | cons task waiting =>
          have still := spares.perform sound spills wired tracked (perform_edits registers wired task)
          refine after_bind_of (Spares graph root reach ∘ BuildState.graph) still fun more performed => ?_
          have performing : (perform hooks task).run state = (.ok more, after (perform hooks task) state) := by
            rw [run_eq, performed]
          have steps : ∃ later, Step graph task (bookOf account state) more (bookOf later _) ∧ _ :=
            perform_step wired registers performing
          rcases steps with ⟨later, step, wiredAfter⟩
          exact inductionHypothesis wiredAfter still (tracked.step_tracked sound spills step)

/-- Nothing outside of the subtree differs. -/
structure SameOutside (graph : Graph) (root : ComponentId) (later : Graph) : Prop where
  component : ∀ id node, ¬graph.Above root id → graph.component? id = some node → later.component? id = some node
  socket : ∀ id held, graph.socket? id = some held → ¬graph.Above root held.owner → later.socket? id = some held

/-- The sockets and components of the subtree itself. -/
def inner (graph : Graph) (root : ComponentId) : Set SocketId × Set ComponentId :=
  ({socket | ∃ held, graph.socket? socket = some held ∧ graph.Above root held.owner}, {id | graph.Above root id})

/-- Ops do not get out of a subtree that no link leaves. -/
theorem spills_inner (sound : Sound graph) (enclosed : graph.Enclosed root) :
    Spills graph root (inner graph root) where
  bound socket held _ found inside _ := ⟨held, found, inside⟩
  linked source target held found reached entered := by
    rcases reached with ⟨other, otherFound, inside⟩
    obtain rfl := Option.some.inj (found.symm.trans otherFound)
    have listed := mem_socketEntries.mpr entered
    rcases sound.links.targets source held found target listed with ⟨next, nextFound, -⟩
    exact ⟨next, nextFound, enclosed source held found inside target listed next nextFound⟩
  computed id computation found mayFire fed output isOutput := by
    have bound := sound.computations.bound id computation found
    have inside : graph.Above root computation.owner := by
      rcases mayFire with inside | ⟨-, -, some⟩
      · exact inside
      · rcases List.exists_mem_of_ne_nil _ some with ⟨input, isInput⟩
        rcases fed input isInput with ⟨held, heldFound, inside⟩
        rcases bound.inputs input isInput with ⟨other, otherFound, owned⟩
        obtain rfl := Option.some.inj (heldFound.symm.trans otherFound)
        exact owned ▸ inside
    rcases bound.outputs output isOutput with ⟨held, heldFound, owned⟩
    exact ⟨held, heldFound, owned ▸ inside⟩
  complete id node found checked _ := by
    rcases checked with inside | ⟨-, input, isInput, held, heldFound, inside⟩
    · exact inside
    · rcases ((sound.sockets.ports id node found).inputs input).mp isInput with ⟨other, otherFound, owned, -⟩
      obtain rfl := Option.some.inj (heldFound.symm.trans otherFound)
      exact owned ▸ inside

theorem Spares.sameOutside (sound : Sound graph) (spares : Spares graph root (inner graph root) later) :
    SameOutside graph root later where
  component id node outside found := by
    cases complete : node.complete with
    | true => exact spares.complete id node outside found complete
    | false =>
        rcases spares.incomplete id node outside found complete outside with ⟨more, waiting, same⟩
        have none : more = [] := by
          refine List.eq_nil_iff_forall_not_mem.mpr fun socket member => ?_
          rcases waiting socket member with ⟨listed, held, heldFound, inside⟩
          rcases (sound.sockets.mem_sockets found).mp listed with ⟨other, otherFound, owned⟩
          obtain rfl := Option.some.inj (heldFound.symm.trans otherFound)
          exact outside (owned ▸ inside)
        rw [same, none, List.append_nil]
  socket id held found outside := by
    refine spares.socket id held found outside (.inr ?_)
    rintro ⟨other, otherFound, inside⟩
    obtain rfl := Option.some.inj (found.symm.trans otherFound)
    exact outside inside

/-- For every reachable graph, every root and hooks that only register variables on their own components: whatever the
outcome of a build, outside of the subtree only that differs which its ops reach. What was complete before stays as it
is, and so does every socket that had a space. If no link leaves the subtree, nothing outside differs. -/
theorem run_spares {fuel : Nat} {config : BuildConfig} {session : Session} (reachable : session.graph.Reachable)
    (registers : hooks.Registers session.graph) :
    (∀ reach, Spills session.graph root reach →
      Spares session.graph root reach (after (run hooks fuel root config) session).graph) ∧
    (session.graph.Enclosed root →
      SameOutside session.graph root (after (run hooks fuel root config) session).graph) := by
  have sound := reachable.sound
  have spared : ∀ reach, Spills session.graph root reach →
      Spares session.graph root reach (after (run hooks fuel root config) session).graph := by
    intro reach spills
    cases listed : session.graph.subtree root with
    | error error =>
        rw [after_of_run (run_unlisted listed)]
        exact .refl session.graph root reach
    | ok members =>
        rw [after_run sound listed]
        exact work_spares sound spills registers fuel (wiring_startState session root members)
          (.wiped fun id => mem_subtree sound.tree listed) (.start sound listed)
  exact ⟨spared, fun enclosed => (spared _ (spills_inner sound enclosed)).sameOutside sound⟩

/-! ### Links out of the subtree -/

/-- Lists that are closed under the rules, which can be checked one part of the graph after the other. -/
def Closed (graph : Graph) (members : List ComponentId) (sockets : List SocketId) (components : List ComponentId) :
    Prop :=
  (∀ held ∈ graph.sockets.toList.zipIdx, held.1.owner ∈ members → (spaceEntries held.1.incoming).isEmpty = false →
    ⟨held.2⟩ ∈ sockets) ∧
  (∀ held ∈ graph.sockets.toList.zipIdx, ⟨held.2⟩ ∈ sockets → ∀ target ∈ socketEntries held.1.outgoing,
    target ∈ sockets) ∧
  (∀ computation ∈ graph.computations.toList,
    (computation.owner ∈ components ∨ graph.isComplete computation.owner = true) →
    (∀ input ∈ computation.inputs, input ∈ sockets) → ∀ output ∈ computation.outputs, output ∈ sockets) ∧
  ∀ node ∈ graph.components.toList.zipIdx, (⟨node.2⟩ ∈ members ∨ ∃ input ∈ node.1.inputs, input ∈ sockets) →
    (∀ input ∈ node.1.inputs, input ∈ sockets ∨ (graph.spaceOf input).isSome = true) → ⟨node.2⟩ ∈ components

instance (graph : Graph) (members : List ComponentId) (sockets : List SocketId) (components : List ComponentId) :
    Decidable (Closed graph members sockets components) :=
  @instDecidableAnd _ _ inferInstance
    (@instDecidableAnd _ _ inferInstance (@instDecidableAnd _ _ inferInstance inferInstance))

theorem mem_zipIdx_of_getElem? {α : Type} {items : Array α} {index : Nat} {item : α}
    (found : items[index]? = some item) : (item, index) ∈ items.toList.zipIdx :=
  List.mem_zipIdx_iff_getElem?.mpr ((Array.getElem?_toList ..).trans found)

theorem spills_of_closed (sound : Sound graph) {members : List ComponentId} {sockets : List SocketId}
    {components : List ComponentId} (listed : graph.subtree root = .ok members)
    (closed : Closed graph members sockets components) :
    Spills graph root ({socket | socket ∈ sockets}, {id | id ∈ components}) where
  bound socket held space found inside entered := by
    have member := (mem_subtree sound.tree listed).mpr inside
    refine closed.1 (held, socket.index) (mem_zipIdx_of_getElem? found) member ?_
    rw [List.isEmpty_eq_false_iff]
    exact List.ne_nil_of_mem (mem_spaceEntries.mpr entered)
  linked source target held found reached entered :=
    closed.2.1 (held, source.index) (mem_zipIdx_of_getElem? found) reached target (mem_socketEntries.mpr entered)
  computed id computation found mayFire fed :=
    closed.2.2.1 computation (Array.mem_toList_iff.mpr (Array.mem_of_getElem? found))
      (mayFire.imp_right fun before => before.2.1) fed
  complete id node found checked resolved := by
    refine closed.2.2.2 (node, id.index) (mem_zipIdx_of_getElem? found) ?_ fun input isInput => ?_
    · exact checked.imp (mem_subtree sound.tree listed).mpr fun reached => reached.2
    · refine (resolved input isInput).imp_right ?_
      rintro ⟨held, heldFound, -, resolved⟩
      rw [spaceOf_eq heldFound]
      exact resolved

/-- A component that is linked to two others, which are not below it. One has a hook; the other waits for a space for
its second input. -/
def leaking : GraphM Unit := do
  let source ← create { scope := "source" }
  let _ ← defineInputs source ["given"] (some (.box {}))
  let sink ← create { scope := "sink" }
  let _ ← addSockets sink ["start"] (some .input) false
  setHook sink (.script [])
  let half ← create { scope := "half" }
  let _ ← addSockets half ["first", "second"] (some .input) false
  let _ ← addSockets half ["out"] (some .output) false
  register half (relaying 1)
  let _ ← compute half ["first"] ["out"] none {}
  connect source (.socket (.named "given")) (.component sink)
  connect source (.socket (.named "given")) (.socket (.foreign half "first"))

theorem reachable_leaking : (after leaking {}).Reachable := by
  refine (reachable_empty {}).reaches ((?_ : Keeps Reaches leaking) {})
  refine Keeps.bind (Reaches.create _) fun source => ?_
  refine Keeps.bind (Reaches.defineInputs source _ _) fun _ => ?_
  refine Keeps.bind (Reaches.create _) fun sink => ?_
  refine Keeps.bind (Reaches.addSockets sink _ _ _) fun _ => ?_
  refine Keeps.bind (Reaches.setHook sink _) fun _ => ?_
  refine Keeps.bind (Reaches.create _) fun half => ?_
  refine Keeps.bind (Reaches.addSockets half _ _ _) fun _ => ?_
  refine Keeps.bind (Reaches.addSockets half _ _ _) fun _ => ?_
  refine Keeps.bind (Reaches.register half _) fun _ => ?_
  refine Keeps.bind (Reaches.compute half _ _ _ _) fun _ => ?_
  refine Keeps.bind (Reaches.connect source _ _) fun _ => ?_
  exact Reaches.connect source _ _

/-- The graph after a build of the first component. -/
def leaked : Graph :=
  (after (run biased 60 ⟨0⟩ {}) { graph := after leaking {} }).graph

/-- The number of variables of a component. -/
def countVariables (graph : Graph) (id : ComponentId) : Nat :=
  ((graph.component? id).map fun node => node.registry.length).getD 0

/-- The build of the first component completes the second one, runs its hook, which registers a variable, and gives its
socket a space; a socket of the third one begins to wait. Neither is in the subtree. -/
theorem build_leaves_subtree :
    (after leaking {}).Reachable ∧ biased.Registers (after leaking {}) ∧
    ((after leaking {}).subtree ⟨0⟩).toOption = some [⟨0⟩] ∧
    ((after leaking {}).isComplete ⟨1⟩ = false ∧ leaked.isComplete ⟨1⟩ = true) ∧
    ((after leaking {}).isHookDone ⟨1⟩ = false ∧ leaked.isHookDone ⟨1⟩ = true) ∧
    (countVariables (after leaking {}) ⟨1⟩ = 0 ∧ countVariables leaked ⟨1⟩ = 1) ∧
    (((after leaking {}).spaceOf ⟨1⟩).isSome = false ∧ (leaked.spaceOf ⟨1⟩).isSome = true) ∧
    (after leaking {}).deferredOf ⟨2⟩ = [] ∧ leaked.deferredOf ⟨2⟩ = [⟨2⟩] := by
  refine ⟨reachable_leaking, biased_registers _, ?_⟩
  decide +kernel

/-- The third component does not become complete, and keeps everything but the sockets that wait. -/
theorem run_spares_leaking : ∃ node more, (after leaking {}).component? ⟨2⟩ = some node ∧ more ≠ [] ∧
    leaked.component? ⟨2⟩ = some { node with deferred := node.deferred ++ more } := by
  have general (graph later : Graph) (reachable : graph.Reachable)
      (is : later = (after (run biased 60 ⟨0⟩ {}) { graph }).graph)
      (listed : (graph.subtree ⟨0⟩).toOption = some [⟨0⟩])
      (closed : Closed graph [⟨0⟩] [⟨0⟩, ⟨1⟩, ⟨2⟩] [⟨0⟩, ⟨1⟩])
      (there : (graph.component? ⟨2⟩).isSome = true) (incomplete : graph.isComplete ⟨2⟩ = false)
      (waits : later.deferredOf ⟨2⟩ ≠ graph.deferredOf ⟨2⟩) : ∃ node more, graph.component? ⟨2⟩ = some node ∧
        more ≠ [] ∧ later.component? ⟨2⟩ = some { node with deferred := node.deferred ++ more } := by
    subst is
    rcases Option.isSome_iff_exists.mp there with ⟨node, found⟩
    rw [isComplete_eq found] at incomplete
    rw [except_toOption_eq_some] at listed
    have outside : ¬graph.Above ⟨0⟩ ⟨2⟩ := by
      rw [← mem_subtree reachable.sound.tree listed]
      decide
    have registers : biased.Registers (Session.graph { graph }) := biased_registers graph
    rcases @run_spares biased ⟨0⟩ 60 {} { graph } reachable registers with ⟨spares, -⟩
    have spares := spares _ (spills_of_closed reachable.sound listed closed)
    rcases spares.incomplete ⟨2⟩ node outside found incomplete (by simp) with ⟨more, -, same⟩
    refine ⟨node, more, found, ?_, same⟩
    rintro rfl
    refine waits ?_
    rw [deferredOf_eq found, deferredOf_eq same, List.append_nil]
  exact general _ _ reachable_leaking rfl (by decide +kernel) (by decide +kernel) (by decide +kernel)
    (by decide +kernel) (by decide +kernel)

end Wiring.Build
