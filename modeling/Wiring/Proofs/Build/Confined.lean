import Wiring.Proofs.Blueprint.Restored
import Wiring.Proofs.Build.Origins
import Wiring.Proofs.Build.Start

/-!
Contract: builds of subtrees that no link leaves.

Owns: `Confined`, by which all tasks and arrivals of a build concern members, and only computations of complete
members are fired; that every move preserves it, provided that no member is linked to a socket elsewhere; and
that the marks of everything else stay as they are.
-/

namespace Wiring.Build

/-- The socket belongs to a member. -/
def Inside (graph : Graph) (members : List ComponentId) (socket : SocketId) : Prop :=
  ∃ held, graph.socket? socket = some held ∧ held.owner ∈ members

/-- The sockets of the members are linked to sockets of members only. -/
def LinkedInside (graph : Graph) (members : List ComponentId) : Prop :=
  ∀ socket held, graph.socket? socket = some held → held.owner ∈ members →
    ∀ target ∈ socketEntries held.outgoing, Inside graph members target

theorem linkedInside {graph : Graph} (sound : Graph.Sound graph) {root : ComponentId} (enclosed : graph.Enclosed root)
    {members : List ComponentId} (listed : graph.subtree root = .ok members) : LinkedInside graph members := by
  intro socket held found member target linked
  rcases sound.links.targets socket held found target linked with ⟨other, otherFound, -⟩
  have above := (Graph.mem_subtree sound.tree listed).mp member
  exact ⟨other, otherFound, (Graph.mem_subtree sound.tree listed).mpr
    (enclosed socket held found above target linked other otherFound)⟩

/-- What a task has to do with the members. -/
def Concerns (graph : Graph) (members : List ComponentId) (book : Book) : Task → Prop
  | .seed id | .check id => id ∈ members
  | .seedSocket _ socket | .place _ socket _ | .deliver socket _ => Inside graph members socket
  | .forward socket _ connection =>
      ∃ held, graph.socket? socket = some held ∧ held.owner ∈ members ∧ connection ∈ held.outgoing
  | .wake socket =>
      ∃ held, graph.socket? socket = some held ∧ held.owner ∈ members ∧ book.complete held.owner = true
  | .fireSources id => id ∈ members ∧ book.complete id = true
  | .fire id | .fireWith id _ => ∃ computation, graph.computation? id = some computation ∧
      computation.owner ∈ members ∧ book.complete computation.owner = true

structure Confined (graph : Graph) (members : List ComponentId) (tasks : List Task) (book : Book) : Prop where
  tasks : ∀ task ∈ tasks, Concerns graph members book task
  arrivals : ∀ arrival ∈ book.arrivals, Inside graph members arrival.socket
  waiting : ∀ owner, ∀ socket ∈ book.deferred owner, ∃ held, graph.socket? socket = some held ∧ held.owner = owner

/-- The marks of what does not belong to members are the same. -/
structure Untouched (graph : Graph) (members : List ComponentId) (book later : Book) : Prop where
  space : ∀ socket, ¬ Inside graph members socket → later.space socket = book.space socket
  complete : ∀ id ∉ members, later.complete id = book.complete id
  deferred : ∀ id ∉ members, later.deferred id = book.deferred id

variable {graph : Graph} {members : List ComponentId} {book final : Book} {task : Task} {waiting more : List Task}

theorem Untouched.refl (book : Book) : Untouched graph members book book :=
  ⟨fun _ _ => rfl, fun _ _ => rfl, fun _ _ => rfl⟩

theorem Untouched.trans {later last : Book} (first : Untouched graph members book later)
    (second : Untouched graph members later last) : Untouched graph members book last where
  space socket outside := (second.space socket outside).trans (first.space socket outside)
  complete id outside := (second.complete id outside).trans (first.complete id outside)
  deferred id outside := (second.deferred id outside).trans (first.deferred id outside)

theorem Concerns.grows (grows : book.Grows final) (concerns : Concerns graph members book task) :
    Concerns graph members final task := by
  cases task with
  | wake socket =>
      rcases concerns with ⟨held, found, member, complete⟩
      exact ⟨held, found, member, grows.complete _ complete⟩
  | fireSources id => exact ⟨concerns.1, grows.complete id concerns.2⟩
  | fire id =>
      rcases concerns with ⟨computation, found, member, complete⟩
      exact ⟨computation, found, member, grows.complete _ complete⟩
  | fireWith id inputs =>
      rcases concerns with ⟨computation, found, member, complete⟩
      exact ⟨computation, found, member, grows.complete _ complete⟩
  | _ => exact concerns

namespace Confined

section Step

variable (sound : Graph.Sound graph) (linked : LinkedInside graph members)
  (confined : Confined graph members (task :: waiting) book) (step : Step graph task book more final)
include sound confined step

include linked in
/-- A task gives rise to tasks that concern members. -/
theorem step_tasks : ∀ new ∈ more, Concerns graph members final new := by
  have grows := step.grows
  have concerns := confined.tasks task List.mem_cons_self
  intro new member
  cases new with
  | seed => exact absurd member step.gives_seed
  | seedSocket id socket =>
      rcases step.gives_seedSocket member with ⟨rfl, node, found, listed⟩
      rcases (sound.sockets.mem_sockets found).mp listed with ⟨held, heldFound, owned⟩
      exact ⟨held, heldFound, owned ▸ concerns⟩
  | place id socket space =>
      rcases step.gives_place member with ⟨rfl, -⟩
      exact concerns
  | deliver socket op =>
      rcases step.gives_deliver member with ⟨id, space, rfl, -, -⟩ | ⟨source, rfl⟩ |
        ⟨firing, computation, log, rfl, found, -, returned, -⟩
      · exact concerns
      · rcases concerns with ⟨held, found, isMember, entered⟩
        exact linked source held found isMember socket (mem_socketEntries.mpr entered)
      · rcases concerns with ⟨other, otherFound, isMember, -⟩
        obtain rfl := Option.some.inj (found.symm.trans otherFound)
        have bound := sound.computations.bound _ computation found
        rcases bound.outputs socket (List.of_mem_zip returned).1 with ⟨held, heldFound, owned⟩
        exact ⟨held, heldFound, owned ▸ isMember⟩
  | check id =>
      rcases step.gives_check member with ⟨socket, op, held, rfl, found, rfl, -⟩
      rcases concerns with ⟨other, otherFound, isMember⟩
      obtain rfl := Option.some.inj (found.symm.trans otherFound)
      exact isMember
  | forward => exact absurd member step.gives_forward
  | wake socket =>
      rcases step.gives_wake member with ⟨id, rfl, waits, rfl⟩
      rcases confined.waiting id socket waits with ⟨held, heldFound, rfl⟩
      exact ⟨held, heldFound, concerns, Function.update_self ..⟩
  | fireSources id =>
      rcases step.gives_fireSources member with ⟨rfl, rfl⟩
      exact ⟨concerns, Function.update_self ..⟩
  | fire id =>
      rcases step.gives_fire member with ⟨socket, op, computation, rfl, found, complete⟩ |
        ⟨socket, held, rfl, found, reads⟩ | ⟨owner, node, rfl, found, listed⟩
      · rcases concerns with ⟨held, heldFound, isMember, entered⟩
        rcases sound.reader heldFound entered with ⟨other, otherFound, owned⟩
        obtain rfl := Option.some.inj (found.symm.trans otherFound)
        exact ⟨computation, found, owned ▸ isMember, complete⟩
      · rcases concerns with ⟨other, otherFound, isMember, complete⟩
        obtain rfl := Option.some.inj (found.symm.trans otherFound)
        rcases sound.reader found reads with ⟨computation, known, owned⟩
        exact ⟨computation, known, owned ▸ isMember, owned ▸ grows.complete _ complete⟩
      · rcases sound.source found listed with ⟨computation, known, owned⟩
        exact ⟨computation, known, owned ▸ concerns.1, owned ▸ grows.complete _ concerns.2⟩
  | fireWith id inputs =>
      rcases step.gives_fireWith member with ⟨rfl, rfl, -⟩
      exact concerns

/-- Only sockets of the component itself begin to wait. -/
theorem step_waiting :
    ∀ owner, ∀ socket ∈ final.deferred owner, ∃ held, graph.socket? socket = some held ∧ held.owner = owner := by
  intro owner socket waits
  rcases step.deferred waits with old | ⟨op, id, computation, rfl, found, owned⟩
  · exact confined.waiting owner socket old
  · rcases confined.tasks _ List.mem_cons_self with ⟨held, heldFound, -, reads⟩
    rcases sound.reader heldFound reads with ⟨other, otherFound, same⟩
    obtain rfl := Option.some.inj (found.symm.trans otherFound)
    exact ⟨held, heldFound, same.symm.trans owned⟩

include linked in
theorem step_confined : Confined graph members (more ++ waiting) final where
  tasks new member := by
    rcases List.mem_append.mp member with given | old
    · exact confined.step_tasks sound linked step new given
    · exact (confined.tasks new (List.mem_cons_of_mem task old)).grows step.grows
  arrivals arrival member := by
    rcases step.arrivals with same | ⟨socket, op, rfl, -, added⟩
    · exact confined.arrivals arrival (same ▸ member)
    · rw [added] at member
      rcases List.mem_append.mp member with old | new
      · exact confined.arrivals arrival old
      · obtain rfl := List.mem_singleton.mp new
        exact confined.tasks _ List.mem_cons_self
  waiting := confined.step_waiting sound step

theorem step_untouched : Untouched graph members book final := by
  have concerns := confined.tasks task List.mem_cons_self
  cases step with
  | first socket op held =>
      refine ⟨fun other outside => Function.update_of_ne ?_ _ _, fun _ _ => rfl, fun _ _ => rfl⟩
      rintro rfl
      exact outside concerns
  | completes id =>
      refine ⟨fun _ _ => rfl, fun other outside => Function.update_of_ne ?_ _ _,
        fun other outside => Function.update_of_ne ?_ _ _⟩
      · rintro rfl
        exact outside concerns
      · rintro rfl
        exact outside concerns
  | defer socket op id computation _ found =>
      refine ⟨fun _ _ => rfl, fun _ _ => rfl, fun other outside => Function.update_of_ne ?_ _ _⟩
      rintro rfl
      rcases concerns with ⟨held, heldFound, isMember, entered⟩
      rcases sound.reader heldFound entered with ⟨known, knownFound, owned⟩
      obtain rfl := Option.some.inj (found.symm.trans knownFound)
      exact outside (owned ▸ isMember)
  | _ => exact ⟨fun _ _ => rfl, fun _ _ => rfl, fun _ _ => rfl⟩

end Step

theorem serve (confined : Confined graph members [] book) {arrival : Arrival} {held : Socket}
    (next : book.arrivals[book.served]? = some arrival) (found : graph.socket? arrival.socket = some held) :
    Confined graph members (held.outgoing.map (.forward arrival.socket arrival.op))
      { book with served := book.served + 1 } := by
  refine { confined with tasks := fun task member => ?_ }
  rcases List.mem_map.mp member with ⟨connection, entered, rfl⟩
  rcases confined.arrivals arrival (List.mem_of_getElem? next) with ⟨other, otherFound, isMember⟩
  obtain rfl := Option.some.inj (found.symm.trans otherFound)
  exact ⟨held, found, isMember, entered⟩

theorem move (sound : Graph.Sound graph) (linked : LinkedInside graph members) {before later : List Task × Book}
    (move : Move graph before later) (confined : Confined graph members before.1 before.2) :
    Confined graph members later.1 later.2 ∧ Untouched graph members before.2 later.2 := by
  cases move with
  | task task waiting more book final step =>
      exact ⟨confined.step_confined sound linked step, confined.step_untouched sound step⟩
  | serve arrival held book next found =>
      exact ⟨confined.serve next found, fun _ _ => rfl, fun _ _ => rfl, fun _ _ => rfl⟩

theorem moves (sound : Graph.Sound graph) (linked : LinkedInside graph members) {before later : List Task × Book}
    (moves : Relation.ReflTransGen (Move graph) before later) (confined : Confined graph members before.1 before.2) :
    Confined graph members later.1 later.2 ∧ Untouched graph members before.2 later.2 := by
  induction moves with
  | refl => exact ⟨confined, .refl _⟩
  | tail _ last inductionHypothesis =>
      rcases inductionHypothesis with ⟨between, same⟩
      rcases between.move sound linked last with ⟨later, sameToo⟩
      exact ⟨later, same.trans sameToo⟩

/-- A build begins with its members. -/
theorem start (fresh : book.Fresh graph members) : Confined graph members (initialTasks members) book where
  tasks task member := by
    rcases mem_initialTasks member with ⟨id, isMember, rfl⟩ | ⟨id, isMember, rfl⟩
    · exact isMember
    · exact isMember
  arrivals arrival member := by
    rw [fresh.arrivals] at member
    cases member
  waiting := fresh.waiting

end Confined

end Wiring.Build
