import Wiring.Proofs.Build.Origins

/-!
Contract: what a build still has to do.

Owns: `Settled`, by which something is done or promised by a waiting task; `Duties`, by which placeholders and
outputs arrive and links pass ops on; `Seeded`, by which every bound space gets one placeholder; `Marked`, by
which spaces and completeness follow the arrivals; and that every move preserves these invariants.

Does not own: the firings that a build has to do.
-/

namespace Wiring.Build

/-- Done, or promised by a waiting task. -/
def Settled (done : Prop) (promises : Task → Prop) (tasks : List Task) : Prop :=
  done ∨ ∃ task ∈ tasks, promises task

theorem Settled.done {done : Prop} {promises : Task → Prop} (settled : Settled done promises []) : done := by
  rcases settled with done | ⟨task, member, -⟩
  · exact done
  · cases member

/-- What is done has to stay so, and the task that was done has to have kept its promise. -/
theorem Settled.step {done later : Prop} {promises : Task → Prop} {task : Task} {more waiting : List Task}
    (settled : Settled done promises (task :: waiting)) (stays : done → Settled later promises more)
    (kept : promises task → Settled later promises more) : Settled later promises (more ++ waiting) := by
  have extend (settled : Settled later promises more) : Settled later promises (more ++ waiting) := by
    rcases settled with done | ⟨other, member, promised⟩
    · exact .inl done
    · exact .inr ⟨other, List.mem_append_left _ member, promised⟩
  rcases settled with done | ⟨other, member, promised⟩
  · exact extend (stays done)
  · rcases List.mem_cons.mp member with rfl | waits
    · exact extend (kept promised)
    · exact .inr ⟨other, List.mem_append_right _ waits, promised⟩

variable {graph : Graph} {members : List ComponentId} {book final : Book} {task : Task} {waiting more : List Task}

/-! ### Arrivals that are due -/

/-- An op that a placeholder or a firing sends to a socket. -/
inductive Due (graph : Graph) (account : Account) : SocketId → DataOp → Prop where
  | placeholder (placed : Placeholder) (member : placed ∈ account.placeholders) :
      Due graph account placed.socket placed.op
  | output (firing : Firing) (computation : Computation) (socket : SocketId) (op : DataOp)
      (member : firing ∈ account.firings) (found : graph.computation? firing.computation = some computation)
      (returned : (socket, op) ∈ computation.outputs.zip firing.outputs) : Due graph account socket op

/-- An op of that identifier is at the socket. -/
def Book.Knows (book : Book) (socket : SocketId) (id : OpId) : Prop :=
  ∃ op ∈ book.opsAt socket, op.id = id

theorem Book.Knows.grows {socket : SocketId} {id : OpId} (knows : book.Knows socket id) (grows : book.Grows final) :
    final.Knows socket id := by
  rcases knows with ⟨op, member, same⟩
  exact ⟨op, grows.opsAt member, same⟩

structure Duties (graph : Graph) (tasks : List Task) (book : Book) : Prop where
  served : book.served ≤ book.arrivals.length
  due : ∀ socket op, Due graph book.account socket op →
    Settled (book.Knows socket op.id) (· = .deliver socket op) tasks
  /-- Links of arrivals that have been served. -/
  linked : ∀ position arrival, position < book.served → book.arrivals[position]? = some arrival →
    ∀ held target, graph.socket? arrival.socket = some held → .socket target ∈ held.outgoing →
      Settled (book.Knows target arrival.op.id)
        (fun task => task = .deliver target arrival.op ∨ task = .forward arrival.socket arrival.op (.socket target))
        tasks

theorem Book.opsAt_arrive (book : Book) (socket other : SocketId) (op : DataOp) :
    (book.arrive socket op).opsAt other = book.opsAt other ++ if socket = other then [op] else [] := by
  unfold opsAt arrive
  rw [List.filter_append, List.map_append]
  by_cases same : socket = other <;> simp [same]

/-- A delivered op is at its socket, unless the socket has another one of its identifier. -/
theorem Step.delivers {socket : SocketId} {op : DataOp} (step : Step graph (.deliver socket op) book more final) :
    final.Knows socket op.id := by
  have arrived : op ∈ (book.arrive socket op).opsAt socket := by
    rw [Book.opsAt_arrive, if_pos rfl]
    exact List.mem_append_right _ List.mem_cons_self
  cases step with
  | known _ _ other _ member same => exact ⟨other, member, same⟩
  | further => exact ⟨op, arrived, rfl⟩
  | first => exact ⟨op, arrived, rfl⟩

namespace Duties

theorem start (fresh : book.Fresh graph members) : Duties graph (initialTasks members) book where
  served := by simp [fresh.served]
  due socket op due := by
    rw [fresh.account] at due
    cases due with
    | placeholder placed member => cases member
    | output firing computation socket op member => cases member
  linked position arrival below := by
    rw [fresh.served] at below
    cases below

theorem step_due (duties : Duties graph (task :: waiting) book) (step : Step graph task book more final)
    {socket : SocketId} {op : DataOp} (due : Due graph final.account socket op) :
    Settled (final.Knows socket op.id) (· = .deliver socket op) (more ++ waiting) := by
  have grows := step.grows
  have before (due : Due graph book.account socket op) :
      Settled (final.Knows socket op.id) (· = .deliver socket op) (more ++ waiting) := by
    refine (duties.due socket op due).step (fun known => .inl (known.grows grows)) fun promised => .inl ?_
    subst promised
    exact step.delivers
  cases step with
  | place id other space =>
      cases due with
      | placeholder placed member =>
          rcases List.mem_append.mp member with old | new
          · exact before (.placeholder placed old)
          · obtain rfl := List.mem_singleton.mp new
            exact .inr ⟨_, List.mem_append_left _ List.mem_cons_self, rfl⟩
      | output firing computation _ _ member found returned =>
          exact before (.output firing computation socket op member found returned)
  | fires firing computation _ log fresh found ran =>
      cases due with
      | placeholder placed member => exact before (.placeholder placed member)
      | output other known _ _ member knownFound returned =>
          rcases List.mem_append.mp member with old | new
          · exact before (.output other known socket op old knownFound returned)
          · obtain rfl := List.mem_singleton.mp new
            obtain rfl := Option.some.inj (found.symm.trans knownFound)
            exact .inr ⟨_, List.mem_append_left _ (List.mem_map_of_mem returned), rfl⟩
  | _ => exact before due

theorem step (duties : Duties graph (task :: waiting) book) (step : Step graph task book more final) :
    Duties graph (more ++ waiting) final := by
  have grows := step.grows
  refine ⟨step.served_le duties.served, fun socket op due => duties.step_due step due, ?_⟩
  · intro position arrival below next held target found link
    rcases step.arrivals_append with ⟨new, added⟩
    rw [step.served] at below
    rw [added, List.getElem?_append_left (Nat.lt_of_lt_of_le below duties.served)] at next
    refine (duties.linked position arrival below next held target found link).step
      (fun known => .inl (known.grows grows)) fun promised => ?_
    rcases promised with rfl | rfl
    · exact .inl step.delivers
    · cases step with
      | link => exact .inr ⟨_, List.mem_cons_self, .inl rfl⟩

theorem serve (duties : Duties graph [] book) {arrival : Arrival} {held : Socket}
    (next : book.arrivals[book.served]? = some arrival) (found : graph.socket? arrival.socket = some held) :
    Duties graph (held.outgoing.map (.forward arrival.socket arrival.op))
      { book with served := book.served + 1 } := by
  refine ⟨?_, fun socket op due => .inl (duties.due socket op due).done, ?_⟩
  · exact (List.getElem?_eq_some_iff.mp next).1
  · intro position other below otherNext otherHeld target otherFound link
    rcases Nat.lt_succ_iff_lt_or_eq.mp below with earlier | rfl
    · exact .inl (duties.linked position other earlier otherNext otherHeld target otherFound link).done
    · obtain rfl := Option.some.inj (next.symm.trans otherNext)
      obtain rfl := Option.some.inj (found.symm.trans otherFound)
      exact .inr ⟨_, List.mem_map_of_mem link, .inr rfl⟩

theorem move {before later : List Task × Book} (move : Move graph before later)
    (duties : Duties graph before.1 before.2) : Duties graph later.1 later.2 := by
  cases move with
  | task task waiting more book final step => exact duties.step step
  | serve arrival held book next found => exact duties.serve next found

end Duties

/-! ### Placeholders -/

/-- The spaces that are bound to feed a socket. -/
def spacesAt (graph : Graph) (socket : SocketId) : List Space :=
  ((graph.socket? socket).map fun held => spaceEntries held.incoming).getD []

def socketsOf (graph : Graph) (id : ComponentId) : List SocketId :=
  ((graph.component? id).map Component.sockets).getD []

def socketBindings (graph : Graph) (id : ComponentId) (socket : SocketId) :
    List (ComponentId × SocketId × Space) :=
  (spacesAt graph socket).map fun space => (id, socket, space)

/-- The spaces that are bound to the sockets of a component, in order. -/
def bindings (graph : Graph) (id : ComponentId) : List (ComponentId × SocketId × Space) :=
  (socketsOf graph id).flatMap (socketBindings graph id)

/-- The placeholders that a task has to put. -/
def owed (graph : Graph) : Task → List (ComponentId × SocketId × Space)
  | .seed id => bindings graph id
  | .seedSocket id socket => socketBindings graph id socket
  | .place id socket space => [(id, socket, space)]
  | _ => []

def Placeholder.binding (placed : Placeholder) : ComponentId × SocketId × Space :=
  (placed.component, placed.socket, placed.op.space)

/-- The placeholders together with those that are owed are one for each bound space of the members. -/
def Seeded (graph : Graph) (members : List ComponentId) (tasks : List Task) (book : Book) : Prop :=
  book.account.placeholders.map Placeholder.binding ++ tasks.flatMap (owed graph) =
    members.flatMap (bindings graph)

theorem owed_map {α : Type} {make : α → Task} (nothing : ∀ item, owed graph (make item) = []) (items : List α) :
    (items.map make).flatMap (owed graph) = [] := by
  rw [List.flatMap_map, List.flatMap_eq_nil_iff]
  exact fun item _ => nothing item

/-- A step puts the placeholders that its task owes, or hands them on. -/
theorem Step.owed_eq (step : Step graph task book more final) :
    final.account.placeholders.map Placeholder.binding ++ more.flatMap (owed graph) =
      book.account.placeholders.map Placeholder.binding ++ owed graph task := by
  cases step with
  | seed id node _ found =>
      rw [owed, bindings, socketsOf, found, List.flatMap_map]
      rfl
  | seedSocket id socket held _ found =>
      have here : spacesAt graph socket = spaceEntries held.incoming := by
        rw [spacesAt, found]
        rfl
      have placed : ((spaceEntries held.incoming).map (Task.place id socket)).flatMap (owed graph) =
          socketBindings graph id socket := by
        rw [List.flatMap_map, socketBindings, here]
        exact List.map_eq_flatMap.symm
      rw [placed]
      rfl
  | place id socket space =>
      show (book.account.placeholders ++ [_]).map Placeholder.binding ++ [] = _
      rw [List.map_append, List.append_nil]
      rfl
  | first socket op held => split <;> rfl
  | completes id node =>
      rw [List.flatMap_append, owed_map fun _ => rfl]
      rfl
  | wake => rw [owed_map fun _ => rfl]; rfl
  | fireSources => rw [owed_map fun _ => rfl]; rfl
  | fire => rw [owed_map fun _ => rfl]; rfl
  | fires => rw [owed_map fun _ => rfl]; rfl
  | _ => rfl

theorem Seeded.start (fresh : book.Fresh graph members) : Seeded graph members (initialTasks members) book := by
  have nothing : (members.map Task.check).flatMap (owed graph) = [] := owed_map (fun _ => rfl) members
  unfold Seeded initialTasks
  rw [fresh.account, List.flatMap_append, nothing, List.flatMap_map, List.append_nil]
  rfl

theorem Seeded.move {before later : List Task × Book} (move : Move graph before later)
    (seeded : Seeded graph members before.1 before.2) : Seeded graph members later.1 later.2 := by
  cases move with
  | task task waiting more book final step =>
      unfold Seeded at seeded ⊢
      rw [List.flatMap_append, ← List.append_assoc, step.owed_eq, List.append_assoc]
      exact seeded
  | serve arrival held book next found =>
      unfold Seeded at seeded ⊢
      rw [owed_map fun _ => rfl]
      exact seeded

/-! ### Spaces and completeness -/

/-- The spaces of member sockets are those of their first ops; complete members have spaces at all inputs, and
the others lack one or are about to be checked. -/
structure Marked (graph : Graph) (members : List ComponentId) (tasks : List Task) (book : Book) : Prop where
  space : ∀ id ∈ members, ∀ node, graph.component? id = some node → ∀ socket ∈ node.sockets,
    book.space socket = (book.opsAt socket).head?.map DataOp.space
  resolved : ∀ id ∈ members, ∀ node, graph.component? id = some node → book.complete id = true →
    ∀ input ∈ node.inputs, (book.space input).isSome
  checked : ∀ id ∈ members, ∀ node, graph.component? id = some node → book.complete id = false →
    Settled (∃ input ∈ node.inputs, book.space input = none) (· = .check id) tasks

/-- A space that is known stays known. -/
theorem Step.space_isSome (step : Step graph task book more final) {socket : SocketId}
    (known : (book.space socket).isSome) : (final.space socket).isSome := by
  cases step with
  | first other op held =>
      show (Function.update book.space other (some op.space) socket).isSome
      by_cases same : socket = other
      · rw [same, Function.update_self]
        rfl
      · rw [Function.update_of_ne same]
        exact known
  | _ => exact known

/-- A component becomes complete only when all of its inputs have a space. -/
theorem Step.complete (step : Step graph task book more final) {id : ComponentId}
    (complete : final.complete id = true) : book.complete id = true ∨
      ∃ node, graph.component? id = some node ∧ ∀ input ∈ node.inputs, (book.space input).isSome := by
  cases step with
  | completes other node _ found incomplete resolved =>
      have complete : Function.update book.complete other true id = true := complete
      by_cases same : id = other
      · exact .inr ⟨node, same ▸ found, resolved⟩
      · rw [Function.update_of_ne same] at complete
        exact .inl complete
  | _ => exact .inl complete

namespace Marked

theorem start (fresh : book.Fresh graph members) : Marked graph members (initialTasks members) book where
  space id member node found socket listed := by
    rw [fresh.space id member node found socket listed, Book.opsAt, fresh.arrivals]
    rfl
  resolved id member node found complete := by
    rw [fresh.complete id member] at complete
    cases complete
  checked id member node found incomplete :=
    .inr ⟨.check id, List.mem_append_right _ (List.mem_map_of_mem member), rfl⟩

theorem step_space (marked : Marked graph members (task :: waiting) book) (step : Step graph task book more final)
    {id : ComponentId} (member : id ∈ members) {node : Component} (found : graph.component? id = some node)
    {socket : SocketId} (listed : socket ∈ node.sockets) :
    final.space socket = (final.opsAt socket).head?.map DataOp.space := by
  have before := marked.space id member node found socket listed
  cases step with
  | further other op held space _ fresh heldFound resolved =>
      rw [Book.opsAt_arrive]
      by_cases same : other = socket
      · subst same
        rw [resolved] at before
        cases first : (book.opsAt other).head? with
        | none =>
            rw [first] at before
            cases before
        | some op =>
            rw [first] at before
            rw [List.head?_append, first]
            exact resolved.trans before
      · rw [if_neg same, List.append_nil]
        exact before
  | first other op held _ fresh heldFound unresolved =>
      show Function.update book.space other (some op.space) socket =
        ((book.arrive other op).opsAt socket).head?.map DataOp.space
      rw [Book.opsAt_arrive]
      by_cases same : other = socket
      · subst same
        have empty : book.opsAt other = [] := by
          rw [unresolved] at before
          cases ops : book.opsAt other with
          | nil => rfl
          | cons op rest =>
              rw [ops] at before
              cases before
        rw [Function.update_self, empty, if_pos rfl]
        rfl
      · rw [Function.update_of_ne (Ne.symm same), if_neg same, List.append_nil]
        exact before
  | _ => exact before

theorem step_checked (sound : Graph.Sound graph) (marked : Marked graph members (task :: waiting) book)
    (step : Step graph task book more final) {id : ComponentId} (member : id ∈ members) {node : Component}
    (found : graph.component? id = some node) (grows : book.Grows final) (incomplete : final.complete id = false) :
    Settled (∃ input ∈ node.inputs, final.space input = none) (· = .check id) (more ++ waiting) := by
  have before : book.complete id = false := by
    rw [← Bool.not_eq_true] at incomplete ⊢
    exact fun complete => incomplete (grows.complete id complete)
  refine (marked.checked id member node found before).step ?_ ?_
  · rintro ⟨input, listed, unresolved⟩
    cases step with
    | first socket op held _ fresh heldFound =>
        by_cases same : input = socket
        · subst same
          have exactly := (sound.sockets.ports id node found).inputs
          rcases (exactly input).mp listed with ⟨other, otherHeld, owned, kind⟩
          obtain rfl := Option.some.inj (heldFound.symm.trans otherHeld)
          rw [if_pos kind, owned]
          exact .inr ⟨_, List.mem_cons_self, rfl⟩
        · refine .inl ⟨input, listed, ?_⟩
          show Function.update book.space socket (some op.space) input = none
          rw [Function.update_of_ne same]
          exact unresolved
    | _ => exact .inl ⟨input, listed, unresolved⟩
  · rintro rfl
    cases step with
    | checked _ _ complete =>
        rw [before] at complete
        cases complete
    | unready _ other input _ otherFound _ listed unresolved =>
        obtain rfl := Option.some.inj (found.symm.trans otherFound)
        exact .inl ⟨input, listed, unresolved⟩
    | completes =>
        have incomplete : Function.update book.complete id true id = false := incomplete
        rw [Function.update_self] at incomplete
        cases incomplete

theorem move (sound : Graph.Sound graph) {before later : List Task × Book}
    (move : Move graph before later) (marked : Marked graph members before.1 before.2) :
    Marked graph members later.1 later.2 := by
  cases move with
  | task task waiting more book final step =>
      refine ⟨?_, ?_, ?_⟩
      · intro id member node found socket listed
        exact marked.step_space step member found listed
      · intro id member node found complete input listed
        rcases step.complete complete with already | ⟨other, otherFound, resolved⟩
        · exact step.space_isSome (marked.resolved id member node found already input listed)
        · obtain rfl := Option.some.inj (found.symm.trans otherFound)
          exact step.space_isSome (resolved input listed)
      · intro id member node found incomplete
        exact marked.step_checked sound step member found (step.grows) incomplete
  | serve arrival held book next found =>
      refine { marked with checked := fun id member node nodeFound incomplete => ?_ }
      exact .inl (marked.checked id member node nodeFound incomplete).done

end Marked

end Wiring.Build
