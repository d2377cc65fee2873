import Wiring.Proofs.Build.Start
import Wiring.Proofs.Methods

/-!
Contract: where the ops of a build come from.

Owns: `Derived`, by which an op is at a socket as a placeholder, over a link or as an output of a firing whose
inputs are derived themselves; `Traced`, the invariant by which all ops of a build are derived, no op arrives
twice at a socket, and only complete components fire, on ops at their inputs and never twice on the same; and
that every move preserves it.

Does not own: that everything which can be derived arrives.
-/

namespace Wiring.Build

/-- All methods of a graph only create ops. -/
def CreatesOps (graph : Graph) : Prop :=
  ∀ id node, graph.component? id = some node → ∀ method ∈ node.methods, method.CreatesOps

/-- Why an op is at a socket. -/
inductive Derived (graph : Graph) (account : Account) : SocketId → DataOp → Prop where
  | placeholder (placed : Placeholder) (member : placed ∈ account.placeholders) :
      Derived graph account placed.socket placed.op
  | link (source target : SocketId) (held : Socket) (op : DataOp) (found : graph.socket? source = some held)
      (linked : .socket target ∈ held.outgoing) (origin : Derived graph account source op) :
      Derived graph account target op
  | output (firing : Firing) (computation : Computation) (socket : SocketId) (op : DataOp)
      (member : firing ∈ account.firings) (found : graph.computation? firing.computation = some computation)
      (inputs : ∀ input ∈ computation.inputs.zip firing.inputs, Derived graph account input.1 input.2)
      (returned : (socket, op) ∈ computation.outputs.zip firing.outputs) : Derived graph account socket op

/-! ### Ops at sockets -/

theorem Book.mem_opsAt {book : Book} {socket : SocketId} {op : DataOp} :
    op ∈ book.opsAt socket ↔ ⟨socket, op⟩ ∈ book.arrivals := by
  unfold opsAt
  rw [List.mem_map]
  constructor
  · rintro ⟨arrival, member, rfl⟩
    rcases List.mem_filter.mp member with ⟨arrived, same⟩
    obtain rfl := of_decide_eq_true same
    exact arrived
  · intro arrived
    exact ⟨_, List.mem_filter.mpr ⟨arrived, decide_eq_true rfl⟩, rfl⟩

theorem mem_combinations {lists : List (List DataOp)} {ops : List DataOp} :
    ops ∈ combinations lists ↔ List.Forall₂ (fun list op => op ∈ list) lists ops := by
  induction lists generalizing ops with
  | nil => simp [combinations]
  | cons list rest inductionHypothesis =>
      simp only [combinations, List.mem_flatMap, List.mem_map, List.forall₂_cons_left_iff]
      constructor
      · rintro ⟨op, member, others, combined, rfl⟩
        exact ⟨op, others, member, inductionHypothesis.mp combined, rfl⟩
      · rintro ⟨op, others, member, each, rfl⟩
        exact ⟨op, member, others, inductionHypothesis.mpr each, rfl⟩

/-- The ops are at the inputs, one for one. -/
def AtInputs (book : Book) (inputs : List SocketId) (ops : List DataOp) : Prop :=
  List.Forall₂ (fun socket op => op ∈ book.opsAt socket) inputs ops

theorem mem_combinations_opsAt {book : Book} {inputs : List SocketId} {ops : List DataOp} :
    ops ∈ combinations (inputs.map book.opsAt) ↔ AtInputs book inputs ops := by
  rw [mem_combinations, List.forall₂_map_left_iff]
  rfl

theorem AtInputs.of_mem_zip {book : Book} {inputs : List SocketId} {ops : List DataOp}
    (each : AtInputs book inputs ops) {input : SocketId × DataOp} (member : input ∈ inputs.zip ops) :
    input.2 ∈ book.opsAt input.1 :=
  (List.forall₂_iff_zip.mp each).2 member

theorem AtInputs.of_mem {book : Book} {inputs : List SocketId} {ops : List DataOp}
    (each : AtInputs book inputs ops) {op : DataOp} (member : op ∈ ops) : ∃ socket, op ∈ book.opsAt socket := by
  rcases forall₂_of_mem_right each member with ⟨socket, -, arrived⟩
  exact ⟨socket, arrived⟩

/-! ### Growth -/

/-- Nothing that a book tells is taken back. -/
structure Book.Grows (book later : Book) : Prop where
  arrivals : ∀ arrival ∈ book.arrivals, arrival ∈ later.arrivals
  placeholders : ∀ placed ∈ book.account.placeholders, placed ∈ later.account.placeholders
  firings : ∀ firing ∈ book.account.firings, firing ∈ later.account.firings
  complete : ∀ id, book.complete id = true → later.complete id = true

variable {graph : Graph} {book final : Book} {task : Task} {more : List Task}

theorem Book.Grows.refl (book : Book) : book.Grows book where
  arrivals _ member := member
  placeholders _ member := member
  firings _ member := member
  complete _ done := done

theorem Book.Grows.opsAt (grows : book.Grows final) {socket : SocketId} {op : DataOp}
    (member : op ∈ book.opsAt socket) : op ∈ final.opsAt socket :=
  Book.mem_opsAt.mpr (grows.arrivals _ (Book.mem_opsAt.mp member))

theorem AtInputs.grows {inputs : List SocketId} {ops : List DataOp} (each : AtInputs book inputs ops)
    (grows : book.Grows final) : AtInputs final inputs ops :=
  List.Forall₂.imp (fun _ _ member => grows.opsAt member) each

theorem Derived.grows (grows : book.Grows final) {socket : SocketId} {op : DataOp}
    (derived : Derived graph book.account socket op) : Derived graph final.account socket op := by
  induction derived with
  | placeholder placed member => exact .placeholder placed (grows.placeholders placed member)
  | link source target held op found linked _ inductionHypothesis =>
      exact .link source target held op found linked inductionHypothesis
  | output firing computation socket op member found _ returned inductionHypothesis =>
      exact .output firing computation socket op (grows.firings firing member) found inductionHypothesis returned

/-- What a firing does to the log. -/
theorem Fires.creates (creates : CreatesOps graph) {before later : OpLog} {firing : Firing}
    (fires : Fires graph before firing later) :
    before.Grows later ∧ ((∀ op ∈ firing.inputs, before.Has op) → ∀ op ∈ firing.outputs, later.Has op) := by
  rcases fires with ⟨computation, node, method, registry, calls, more, -, nodeFound, chosen, ran⟩
  have known := creates _ node nodeFound method (List.mem_of_find?_eq_some chosen)
  exact Method.creates_apply known _ _ firing.inputs _ firing.outputs _ ran

theorem Book.grows_arrive (book : Book) (socket : SocketId) (op : DataOp) : book.Grows (book.arrive socket op) where
  arrivals _ member := List.mem_append_left _ member
  placeholders _ member := member
  firings _ member := member
  complete _ done := done

/-- A step only adds to the book. -/
theorem Step.grows (step : Step graph task book more final) : book.Grows final := by
  cases step with
  | place id socket space =>
      exact { Book.Grows.refl book with placeholders := fun _ member => List.mem_append_left _ member }
  | further socket op => exact book.grows_arrive socket op
  | first socket op held => exact { book.grows_arrive socket op with }
  | completes id node _ found incomplete resolved =>
      refine { Book.Grows.refl book with complete := fun other done => ?_ }
      show Function.update book.complete id true other = true
      by_cases same : other = id
      · rw [same, Function.update_self]
      · rw [Function.update_of_ne same]
        exact done
  | defer => exact { Book.Grows.refl book with }
  | fires => exact { Book.Grows.refl book with firings := fun _ member => List.mem_append_left _ member }
  | _ => exact .refl book

/-- If methods only create ops, a step only adds to the log. -/
theorem Step.logs (creates : CreatesOps graph) (step : Step graph task book more final) :
    book.log.Grows final.log := by
  cases step with
  | place id socket space => exact OpLog.grows_push _ _
  | fires firing computation _ log fresh found ran => exact (ran.creates creates).1
  | _ => exact .refl _

/-! ### The tasks that steps give rise to -/

theorem Step.gives_seed (step : Step graph task book more final) {id : ComponentId} : .seed id ∉ more := by
  intro member
  cases step <;> simp at member

theorem Step.gives_seedSocket (step : Step graph task book more final) {id : ComponentId} {socket : SocketId}
    (member : .seedSocket id socket ∈ more) :
    task = .seed id ∧ ∃ node, graph.component? id = some node ∧ socket ∈ node.sockets := by
  cases step with
  | seed other node _ found =>
      rcases List.mem_map.mp member with ⟨listed, isListed, same⟩
      cases same
      exact ⟨rfl, node, found, isListed⟩
  | _ => simp at member

theorem Step.gives_place (step : Step graph task book more final) {id : ComponentId} {socket : SocketId} {space : Space}
    (member : .place id socket space ∈ more) :
    task = .seedSocket id socket ∧ ∃ held, graph.socket? socket = some held ∧ .space space ∈ held.incoming := by
  cases step with
  | seedSocket other target held _ found =>
      rcases List.mem_map.mp member with ⟨entry, entered, same⟩
      cases same
      exact ⟨rfl, held, found, mem_spaceEntries.mp entered⟩
  | _ => simp at member

theorem Step.gives_deliver (step : Step graph task book more final) {socket : SocketId} {op : DataOp}
    (member : .deliver socket op ∈ more) :
    (∃ id space, task = .place id socket space ∧ op = ⟨⟨book.log.size⟩, space⟩ ∧
      final = book.place id socket space) ∨
    (∃ source, task = .forward source op (.socket socket)) ∨
    ∃ firing computation log, task = .fireWith firing.computation firing.inputs ∧
      graph.computation? firing.computation = some computation ∧ Fires graph book.log firing log ∧
      (socket, op) ∈ computation.outputs.zip firing.outputs ∧ final = book.fire firing log := by
  cases step with
  | place id other space =>
      cases List.mem_singleton.mp member
      exact .inl ⟨id, space, rfl, rfl, rfl⟩
  | link source other target =>
      cases List.mem_singleton.mp member
      exact .inr (.inl ⟨source, rfl⟩)
  | fires firing computation _ log fresh found ran =>
      rcases List.mem_map.mp member with ⟨output, returned, same⟩
      cases same
      exact .inr (.inr ⟨firing, computation, log, rfl, found, ran, returned, rfl⟩)
  | _ => simp at member

theorem Step.gives_check (step : Step graph task book more final) {id : ComponentId} (member : .check id ∈ more) :
    ∃ socket op held, task = .deliver socket op ∧ graph.socket? socket = some held ∧ held.owner = id ∧
      held.isInterfaceInput = true := by
  cases step with
  | first socket op held _ fresh found =>
      split at member
      · next isInput =>
          cases List.mem_singleton.mp member
          exact ⟨socket, op, held, rfl, found, rfl, isInput⟩
      · cases member
  | _ => simp at member

theorem Step.gives_forward (step : Step graph task book more final) {socket : SocketId} {op : DataOp}
    {connection : Connection} : .forward socket op connection ∉ more := by
  intro member
  cases step <;> simp at member

theorem Step.gives_wake (step : Step graph task book more final) {socket : SocketId} (member : .wake socket ∈ more) :
    ∃ id, task = .check id ∧ socket ∈ book.deferred id ∧ final = book.completeAt id := by
  cases step with
  | completes id node =>
      rcases List.mem_append.mp member with wakes | sources
      · rcases List.mem_map.mp wakes with ⟨other, waits, same⟩
        cases same
        exact ⟨id, rfl, waits, rfl⟩
      · cases List.mem_singleton.mp sources
  | _ => simp at member

theorem Step.gives_fireSources (step : Step graph task book more final) {id : ComponentId}
    (member : .fireSources id ∈ more) : task = .check id ∧ final = book.completeAt id := by
  cases step with
  | completes other node =>
      rcases List.mem_append.mp member with wakes | sources
      · simp at wakes
      · cases List.mem_singleton.mp sources
        exact ⟨rfl, rfl⟩
  | _ => simp at member

theorem Step.gives_fire (step : Step graph task book more final) {id : ComputationId} (member : .fire id ∈ more) :
    (∃ socket op computation, task = .forward socket op (.computation id) ∧
      graph.computation? id = some computation ∧ final.complete computation.owner = true) ∨
    (∃ socket held, task = .wake socket ∧ graph.socket? socket = some held ∧ .computation id ∈ held.outgoing) ∨
    ∃ owner node, task = .fireSources owner ∧ graph.component? owner = some node ∧ id ∈ node.sources := by
  cases step with
  | ready socket op other computation _ found complete =>
      cases List.mem_singleton.mp member
      exact .inl ⟨socket, op, computation, rfl, found, complete⟩
  | wake socket held _ found =>
      rcases List.mem_map.mp member with ⟨other, reads, same⟩
      cases same
      exact .inr (.inl ⟨socket, held, rfl, found, mem_computationEntries.mp reads⟩)
  | fireSources owner node _ found =>
      rcases List.mem_map.mp member with ⟨other, listed, same⟩
      cases same
      exact .inr (.inr ⟨owner, node, rfl, found, listed⟩)
  | _ => simp at member

theorem Step.gives_fireWith (step : Step graph task book more final) {id : ComputationId} {inputs : List DataOp}
    (member : .fireWith id inputs ∈ more) : task = .fire id ∧ final = book ∧ ∃ computation,
      graph.computation? id = some computation ∧ AtInputs book computation.inputs inputs := by
  cases step with
  | fire other computation _ found =>
      rcases List.mem_map.mp member with ⟨ops, combined, same⟩
      cases same
      exact ⟨rfl, rfl, computation, found, mem_combinations_opsAt.mp combined⟩
  | _ => simp at member

/-! ### The parts of a book that steps touch -/

/-- Only a delivery adds an arrival, of an op that the socket does not have. -/
theorem Step.arrivals (step : Step graph task book more final) :
    final.arrivals = book.arrivals ∨ ∃ socket op, task = .deliver socket op ∧
      (∀ other ∈ book.opsAt socket, other.id ≠ op.id) ∧ final.arrivals = book.arrivals ++ [⟨socket, op⟩] := by
  cases step with
  | further socket op held space _ fresh => exact .inr ⟨socket, op, rfl, fresh, rfl⟩
  | first socket op held _ fresh => exact .inr ⟨socket, op, rfl, fresh, rfl⟩
  | _ => exact .inl rfl

/-- What has happened changes with a placeholder and with a firing. -/
theorem Step.account (step : Step graph task book more final) :
    (final.account = book.account ∧ final.fired = book.fired ∧ final.history = book.history) ∨
      (∃ id socket space, task = .place id socket space ∧ final = book.place id socket space) ∨
      ∃ firing computation log, task = .fireWith firing.computation firing.inputs ∧ firing.key ∉ book.fired ∧
        graph.computation? firing.computation = some computation ∧ Fires graph book.log firing log ∧
        final = book.fire firing log := by
  cases step with
  | place id socket space => exact .inr (.inl ⟨id, socket, space, rfl, rfl⟩)
  | fires firing computation _ log fresh found ran =>
      exact .inr (.inr ⟨firing, computation, log, rfl, fresh, found, ran, rfl⟩)
  | _ => exact .inl ⟨rfl, rfl, rfl⟩

/-- A socket begins to wait when an op of it is passed on to a computation. -/
theorem Step.deferred (step : Step graph task book more final) {owner : ComponentId} {socket : SocketId}
    (waits : socket ∈ final.deferred owner) :
    socket ∈ book.deferred owner ∨ ∃ op id computation, task = .forward socket op (.computation id) ∧
      graph.computation? id = some computation ∧ computation.owner = owner := by
  cases step with
  | completes id node =>
      have waits : socket ∈ Function.update book.deferred id [] owner := waits
      by_cases same : owner = id
      · rw [same, Function.update_self] at waits
        cases waits
      · rw [Function.update_of_ne same] at waits
        exact .inl waits
  | defer other op id computation _ found =>
      have waits : socket ∈
          Function.update book.deferred computation.owner (book.deferred computation.owner ++ [other]) owner := waits
      by_cases same : owner = computation.owner
      · rw [same, Function.update_self] at waits
        rcases List.mem_append.mp waits with old | new
        · exact .inl (same ▸ old)
        · obtain rfl := List.mem_singleton.mp new
          exact .inr ⟨op, id, computation, rfl, found, same.symm⟩
      · rw [Function.update_of_ne same] at waits
        exact .inl waits
  | _ => exact .inl waits

/-- No op is at a socket twice. -/
def Book.Once (book : Book) : Prop :=
  (book.arrivals.map fun arrival => (arrival.socket, arrival.op.id)).Nodup

theorem Book.Once.arrive (once : book.Once) {socket : SocketId} {op : DataOp}
    (fresh : ∀ other ∈ book.opsAt socket, other.id ≠ op.id) : (book.arrive socket op).Once := by
  have added : (book.arrive socket op).arrivals = book.arrivals ++ [⟨socket, op⟩] := rfl
  unfold Book.Once
  rw [added, List.map_append]
  refine List.Nodup.append once (List.nodup_singleton _) ?_
  rw [List.map_singleton, List.disjoint_singleton]
  intro member
  rcases List.mem_map.mp member with ⟨⟨other, known⟩, arrived, same⟩
  rcases Prod.mk.inj same with ⟨rfl, sameId⟩
  exact fresh known (Book.mem_opsAt.mpr arrived) sameId

theorem Step.once (step : Step graph task book more final) (once : book.Once) : final.Once := by
  rcases step.arrivals with same | ⟨socket, op, -, fresh, added⟩
  · unfold Book.Once
    rw [same]
    exact once
  · have arrived := once.arrive fresh
    unfold Book.Once at arrived ⊢
    rw [added]
    exact arrived

theorem Book.Once.nodup_ids (once : book.Once) (socket : SocketId) : ((book.opsAt socket).map DataOp.id).Nodup := by
  have here := List.Nodup.sublist
    ((List.filter_sublist (p := fun arrival : Arrival => decide (arrival.socket = socket))).map _) once
  have pairs : ((book.arrivals.filter fun arrival => arrival.socket = socket).map
      fun arrival => (arrival.socket, arrival.op.id)) =
      ((book.opsAt socket).map DataOp.id).map fun id => (socket, id) := by
    rw [Book.opsAt, List.map_map, List.map_map]
    refine List.map_congr_left fun arrival member => ?_
    exact congrArg (·, arrival.op.id) (of_decide_eq_true (List.mem_filter.mp member).2)
  rw [pairs] at here
  exact here.of_map _

theorem Book.Once.nodup_opsAt (once : book.Once) (socket : SocketId) : (book.opsAt socket).Nodup :=
  (once.nodup_ids socket).of_map _

theorem Book.Once.start {members : List ComponentId} (fresh : book.Fresh graph members) : book.Once := by
  unfold Book.Once
  rw [fresh.arrivals]
  exact List.nodup_nil

/-- The firings of the build, each of them once; `base` is what had fired before it. -/
structure Recorded (graph : Graph) (base : List (ComputationId × List OpId)) (book : Book) : Prop where
  fired : book.fired = (book.account.firings.map Firing.key).reverse
  fresh : (book.account.firings.map Firing.key).Nodup
  history : book.history = base ++ book.account.firings.map Firing.key
  ran : ∀ firing ∈ book.account.firings, ∃ before later, Fires graph before firing later

theorem Recorded.step {base : List (ComputationId × List OpId)} (recorded : Recorded graph base book)
    (step : Step graph task book more final) : Recorded graph base final := by
  rcases step.account with ⟨account, fired, history⟩ | ⟨id, socket, space, -, rfl⟩ |
    ⟨firing, computation, log, -, fresh, -, ran, rfl⟩
  · constructor
    · rw [account, fired]
      exact recorded.fired
    · rw [account]
      exact recorded.fresh
    · rw [account, history]
      exact recorded.history
    · rw [account]
      exact recorded.ran
  · exact ⟨recorded.fired, recorded.fresh, recorded.history, recorded.ran⟩
  · have added : (book.fire firing log).account.firings.map Firing.key =
        book.account.firings.map Firing.key ++ [firing.key] := List.map_append
    rw [recorded.fired, List.mem_reverse] at fresh
    constructor
    · show firing.key :: book.fired = _
      rw [recorded.fired, added, List.reverse_append]
      rfl
    · rw [added]
      refine List.Nodup.append recorded.fresh (List.nodup_singleton _) ?_
      rw [List.disjoint_singleton]
      exact fresh
    · show book.history ++ [firing.key] = _
      rw [recorded.history, added, List.append_assoc]
    · intro other member
      rcases List.mem_append.mp member with old | new
      · exact recorded.ran other old
      · obtain rfl := List.mem_singleton.mp new
        exact ⟨_, _, ran⟩

theorem Recorded.start {members : List ComponentId} {base : List (ComputationId × List OpId)}
    (fresh : book.Fresh graph members) (history : book.history = base) : Recorded graph base book where
  fired := by rw [fresh.fired, fresh.account]; rfl
  fresh := by rw [fresh.account]; exact List.nodup_nil
  history := by rw [fresh.account, history]; exact (List.append_nil base).symm
  ran := by simp [fresh.account]

theorem Recorded.move {base : List (ComputationId × List OpId)} {before later : List Task × Book}
    (move : Move graph before later) (recorded : Recorded graph base before.2) : Recorded graph base later.2 := by
  cases move with
  | task task waiting more book final step => exact recorded.step step
  | serve => exact { recorded with }

theorem Step.served (step : Step graph task book more final) : final.served = book.served := by
  cases step <;> rfl

/-- Arrivals stay where they are. -/
theorem Step.arrivals_append (step : Step graph task book more final) : ∃ new, final.arrivals = book.arrivals ++ new := by
  rcases step.arrivals with same | ⟨socket, op, -, -, added⟩
  · exact ⟨[], by rw [same, List.append_nil]⟩
  · exact ⟨_, added⟩

/-- No more arrivals are served than there are. -/
theorem Step.served_le (step : Step graph task book more final) (served : book.served ≤ book.arrivals.length) :
    final.served ≤ final.arrivals.length := by
  rcases step.arrivals_append with ⟨new, added⟩
  rw [step.served, added, List.length_append]
  omega

/-! ### What may be done -/

/-- What has to hold for a task to be right. -/
def Sensible (graph : Graph) (book : Book) : Task → Prop
  | .deliver socket op => book.log.Has op ∧ Derived graph book.account socket op
  | .forward socket op connection =>
      op ∈ book.opsAt socket ∧ ∃ held, graph.socket? socket = some held ∧ connection ∈ held.outgoing
  | .wake socket => ∃ held, graph.socket? socket = some held ∧ book.complete held.owner = true
  | .fireSources id => book.complete id = true
  | .fire id => ∃ computation, graph.computation? id = some computation ∧ book.complete computation.owner = true
  | .fireWith id inputs => ∃ computation, graph.computation? id = some computation ∧
      book.complete computation.owner = true ∧ AtInputs book computation.inputs inputs
  | _ => True

/-- A firing of a complete component on ops at its inputs. -/
structure Justified (graph : Graph) (book : Book) (firing : Firing) (computation : Computation) : Prop where
  found : graph.computation? firing.computation = some computation
  complete : book.complete computation.owner = true
  inputs : AtInputs book computation.inputs firing.inputs
  ran : ∃ before later, Fires graph before firing later ∧ before.Grows later ∧ later.Grows book.log
  outputs : ∀ op ∈ firing.outputs, book.log.Has op

theorem Sensible.grows (grows : book.Grows final) (logs : book.log.Grows final.log) {task : Task}
    (sensible : Sensible graph book task) : Sensible graph final task := by
  cases task with
  | deliver socket op => exact ⟨sensible.1.grows logs, sensible.2.grows grows⟩
  | forward socket op connection => exact ⟨grows.opsAt sensible.1, sensible.2⟩
  | wake socket =>
      rcases sensible with ⟨held, found, complete⟩
      exact ⟨held, found, grows.complete _ complete⟩
  | fireSources id => exact grows.complete _ sensible
  | fire id =>
      rcases sensible with ⟨computation, found, complete⟩
      exact ⟨computation, found, grows.complete _ complete⟩
  | fireWith id inputs =>
      rcases sensible with ⟨computation, found, complete, each⟩
      exact ⟨computation, found, grows.complete _ complete, each.grows grows⟩
  | _ => trivial

theorem Justified.grows (grows : book.Grows final) (logs : book.log.Grows final.log) {firing : Firing}
    {computation : Computation} (justified : Justified graph book firing computation) :
    Justified graph final firing computation := by
  rcases justified.ran with ⟨before, later, ran, growing, grown⟩
  exact {
    found := justified.found
    complete := grows.complete _ justified.complete
    inputs := justified.inputs.grows grows
    ran := ⟨before, later, ran, growing, grown.trans logs⟩
    outputs := fun op member => (justified.outputs op member).grows logs }

/-- Everything that has happened so far has its reason. -/
structure Traced (graph : Graph) (base : List (ComputationId × List OpId)) (tasks : List Task) (book : Book) : Prop
    extends Recorded graph base book where
  arrived : ∀ arrival ∈ book.arrivals,
    book.log.Has arrival.op ∧ Derived graph book.account arrival.socket arrival.op
  once : book.Once
  tasks : ∀ task ∈ tasks, Sensible graph book task
  placed : ∀ placed ∈ book.account.placeholders,
    book.log.get? placed.op.id = some (placeholder placed.component placed.op.space)
  apart : (book.account.placeholders.map fun placed => placed.op.id).Nodup
  firings : ∀ firing ∈ book.account.firings, ∃ computation, Justified graph book firing computation
  waiting : ∀ owner, ∀ socket ∈ book.deferred owner, ∃ held, graph.socket? socket = some held ∧ held.owner = owner

namespace Traced

variable {base : List (ComputationId × List OpId)} {waiting : List Task}

theorem has (traced : Traced graph base waiting book) {socket : SocketId} {op : DataOp}
    (member : op ∈ book.opsAt socket) : book.log.Has op :=
  (traced.arrived _ (Book.mem_opsAt.mp member)).1

theorem derived (traced : Traced graph base waiting book) {socket : SocketId} {op : DataOp}
    (member : op ∈ book.opsAt socket) : Derived graph book.account socket op :=
  (traced.arrived _ (Book.mem_opsAt.mp member)).2

/-- An op that is to arrive is at the socket if one with its identifier is. -/
theorem mem_opsAt_of_id (traced : Traced graph base waiting book) {socket : SocketId} {op other : DataOp}
    (has : book.log.Has op) (member : other ∈ book.opsAt socket) (same : other.id = op.id) :
    op ∈ book.opsAt socket :=
  OpLog.Has.eq_of_id (traced.has member) has same ▸ member

theorem start {members : List ComponentId} (fresh : book.Fresh graph members) (history : book.history = base) :
    Traced graph base (initialTasks members) book where
  toRecorded := .start fresh history
  arrived := by simp [fresh.arrivals]
  once := .start fresh
  tasks task member := by
    rcases mem_initialTasks member with ⟨id, -, rfl⟩ | ⟨id, -, rfl⟩
    · trivial
    · trivial
  placed := by simp [fresh.account]
  apart := by simp [fresh.account]
  firings := by simp [fresh.account]
  waiting := fresh.waiting

/-- A right task gives rise to right tasks. -/
theorem step_sensible (sound : Graph.Sound graph) (creates : CreatesOps graph)
    (traced : Traced graph base (task :: waiting) book) (step : Step graph task book more final) :
    ∀ new ∈ more, Sensible graph final new := by
  have grows := step.grows
  have sensible := traced.tasks task List.mem_cons_self
  intro new member
  cases new with
  | deliver socket op =>
      rcases step.gives_deliver member with ⟨id, space, rfl, rfl, rfl⟩ | ⟨source, rfl⟩ |
        ⟨firing, computation, log, rfl, found, ran, returned, rfl⟩
      · have placed : (⟨id, socket, ⟨⟨book.log.size⟩, space⟩⟩ : Placeholder) ∈
            (book.place id socket space).account.placeholders := List.mem_append_right _ List.mem_cons_self
        exact ⟨OpLog.has_push _ _, Derived.placeholder _ placed⟩
      · rcases sensible with ⟨arrived, held, found, linked⟩
        exact ⟨(traced.has arrived).grows (step.logs creates),
          .link source socket held op found linked ((traced.derived arrived).grows grows)⟩
      · rcases sensible with ⟨other, otherFound, -, each⟩
        obtain rfl := Option.some.inj (found.symm.trans otherFound)
        have hasInputs : ∀ input ∈ firing.inputs, book.log.Has input := by
          intro input isInput
          rcases each.of_mem isInput with ⟨source, arrived⟩
          exact traced.has arrived
        refine ⟨(ran.creates creates).2 hasInputs op (List.of_mem_zip returned).2, ?_⟩
        refine .output firing computation socket op (List.mem_append_right _ List.mem_cons_self) found ?_ returned
        intro input isInput
        exact (traced.derived (each.of_mem_zip isInput)).grows grows
  | forward => exact absurd member step.gives_forward
  | wake socket =>
      rcases step.gives_wake member with ⟨id, rfl, waits, rfl⟩
      rcases traced.waiting id socket waits with ⟨held, heldFound, rfl⟩
      exact ⟨held, heldFound, Function.update_self ..⟩
  | fireSources id =>
      rcases step.gives_fireSources member with ⟨rfl, rfl⟩
      exact Function.update_self ..
  | fire id =>
      rcases step.gives_fire member with ⟨socket, op, computation, rfl, found, complete⟩ |
        ⟨socket, held, rfl, found, reads⟩ | ⟨owner, node, rfl, found, listed⟩
      · exact ⟨computation, found, complete⟩
      · rcases sensible with ⟨other, otherFound, complete⟩
        obtain rfl := Option.some.inj (found.symm.trans otherFound)
        rcases sound.reader found reads with ⟨computation, known, owned⟩
        exact ⟨computation, known, owned ▸ grows.complete _ complete⟩
      · rcases sound.source found listed with ⟨computation, known, owned⟩
        exact ⟨computation, known, owned ▸ grows.complete _ sensible⟩
  | fireWith id inputs =>
      rcases step.gives_fireWith member with ⟨rfl, rfl, computation, found, each⟩
      rcases sensible with ⟨other, otherFound, complete⟩
      obtain rfl := Option.some.inj (found.symm.trans otherFound)
      exact ⟨computation, found, complete, each⟩
  | _ => trivial

theorem step_arrived (creates : CreatesOps graph) (traced : Traced graph base (task :: waiting) book)
    (step : Step graph task book more final) : ∀ arrival ∈ final.arrivals,
      final.log.Has arrival.op ∧ Derived graph final.account arrival.socket arrival.op := by
  have grows := step.grows
  have logs := step.logs creates
  have kept : ∀ arrival ∈ book.arrivals, final.log.Has arrival.op ∧
      Derived graph final.account arrival.socket arrival.op := by
    intro arrival member
    rcases traced.arrived arrival member with ⟨has, derived⟩
    exact ⟨has.grows logs, derived.grows grows⟩
  rcases step.arrivals with same | ⟨socket, op, rfl, -, added⟩
  · rw [same]
    exact kept
  · rw [added]
    intro arrival member
    rcases List.mem_append.mp member with old | new
    · exact kept arrival old
    · obtain rfl := List.mem_singleton.mp new
      rcases traced.tasks _ List.mem_cons_self with ⟨has, derived⟩
      exact ⟨has.grows logs, derived.grows grows⟩

theorem step_placed (creates : CreatesOps graph) (traced : Traced graph base (task :: waiting) book)
    (step : Step graph task book more final) :
    (∀ placed ∈ final.account.placeholders,
      final.log.get? placed.op.id = some (placeholder placed.component placed.op.space)) ∧
      (final.account.placeholders.map fun placed => placed.op.id).Nodup := by
  have logs := step.logs creates
  have kept : ∀ placed ∈ book.account.placeholders,
      final.log.get? placed.op.id = some (placeholder placed.component placed.op.space) :=
    fun placed member => logs _ _ (traced.placed placed member)
  rcases step.account with ⟨same, -, -⟩ | ⟨id, socket, space, -, rfl⟩ |
    ⟨firing, computation, log, -, -, -, -, rfl⟩
  · rw [same]
    exact ⟨kept, traced.apart⟩
  · have added : (book.place id socket space).account.placeholders =
        book.account.placeholders ++ [⟨id, socket, ⟨⟨book.log.size⟩, space⟩⟩] := rfl
    rw [added]
    refine ⟨fun placed member => ?_, ?_⟩
    · rcases List.mem_append.mp member with old | new
      · exact kept placed old
      · obtain rfl := List.mem_singleton.mp new
        exact OpLog.get?_push_self book.log (placeholder id space)
    · rw [List.map_append]
      refine List.Nodup.append traced.apart (List.nodup_singleton _) ?_
      rw [List.map_singleton, List.disjoint_singleton]
      intro member
      rcases List.mem_map.mp member with ⟨placed, old, same⟩
      have below := OpLog.lt_size_of_get? (traced.placed placed old)
      rw [same] at below
      exact Nat.lt_irrefl _ below
  · exact ⟨kept, traced.apart⟩

theorem step_firings (creates : CreatesOps graph) (traced : Traced graph base (task :: waiting) book)
    (step : Step graph task book more final) :
    ∀ firing ∈ final.account.firings, ∃ computation, Justified graph final firing computation := by
  have grows := step.grows
  have kept : ∀ firing ∈ book.account.firings, ∃ computation, Justified graph final firing computation := by
    intro firing member
    rcases traced.firings firing member with ⟨computation, justified⟩
    exact ⟨computation, justified.grows grows (step.logs creates)⟩
  rcases step.account with ⟨same, -, -⟩ | ⟨id, socket, space, -, rfl⟩ |
    ⟨firing, computation, log, rfl, -, found, ran, rfl⟩
  · rw [same]
    exact kept
  · exact kept
  · intro other member
    rcases List.mem_append.mp member with old | new
    · exact kept other old
    · obtain rfl := List.mem_singleton.mp new
      rcases traced.tasks _ List.mem_cons_self with ⟨known, knownFound, complete, each⟩
      obtain rfl := Option.some.inj (found.symm.trans knownFound)
      have hasInputs : ∀ input ∈ other.inputs, book.log.Has input := by
        intro input isInput
        rcases each.of_mem isInput with ⟨source, arrived⟩
        exact traced.has arrived
      rcases ran.creates creates with ⟨growing, outputs⟩
      exact ⟨computation, found, complete, each.grows grows, ⟨_, log, ran, growing, .refl log⟩, outputs hasInputs⟩

theorem step_waiting (sound : Graph.Sound graph) (traced : Traced graph base (task :: waiting) book)
    (step : Step graph task book more final) :
    ∀ owner, ∀ socket ∈ final.deferred owner, ∃ held, graph.socket? socket = some held ∧ held.owner = owner := by
  intro owner socket waits
  rcases step.deferred waits with old | ⟨op, id, computation, rfl, found, owned⟩
  · exact traced.waiting owner socket old
  · rcases traced.tasks _ List.mem_cons_self with ⟨-, held, heldFound, reads⟩
    rcases sound.reader heldFound reads with ⟨other, otherFound, same⟩
    obtain rfl := Option.some.inj (found.symm.trans otherFound)
    exact ⟨held, heldFound, same.symm.trans owned⟩

theorem step (sound : Graph.Sound graph) (creates : CreatesOps graph)
    (traced : Traced graph base (task :: waiting) book) (step : Step graph task book more final) :
    Traced graph base (more ++ waiting) final where
  toRecorded := traced.toRecorded.step step
  arrived := traced.step_arrived creates step
  once := step.once traced.once
  tasks new member := by
    rcases List.mem_append.mp member with given | old
    · exact traced.step_sensible sound creates step new given
    · exact (traced.tasks new (List.mem_cons_of_mem task old)).grows step.grows (step.logs creates)
  placed := (traced.step_placed creates step).1
  apart := (traced.step_placed creates step).2
  firings := traced.step_firings creates step
  waiting := traced.step_waiting sound step

/-- Serving an arrival passes on an op of its socket. -/
theorem serve (traced : Traced graph base [] book) {arrival : Arrival} {held : Socket}
    (next : book.arrivals[book.served]? = some arrival) (found : graph.socket? arrival.socket = some held) :
    Traced graph base (held.outgoing.map (.forward arrival.socket arrival.op))
      { book with served := book.served + 1 } := by
  refine { traced with tasks := fun task member => ?_, firings := fun firing member => ?_ }
  · rcases List.mem_map.mp member with ⟨connection, entered, rfl⟩
    exact ⟨Book.mem_opsAt.mpr (List.mem_of_getElem? next), held, found, entered⟩
  · rcases traced.firings firing member with ⟨computation, justified⟩
    exact ⟨computation, { justified with }⟩

theorem move (sound : Graph.Sound graph) (creates : CreatesOps graph) {before later : List Task × Book}
    (move : Move graph before later) (traced : Traced graph base before.1 before.2) :
    Traced graph base later.1 later.2 := by
  cases move with
  | task task waiting more book final step => exact traced.step sound creates step
  | serve arrival held book next found => exact traced.serve next found

end Traced

end Wiring.Build
