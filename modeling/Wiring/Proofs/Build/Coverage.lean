import Wiring.Proofs.Build.Duties

/-!
Contract: no combination of inputs is missed.

Owns: `Covered`, by which every combination of ops at the inputs of a complete component has fired, or will
fire because of a waiting task or of an arrival that has not been served, and by which the sockets of an
incomplete component wait for it; and that every move preserves this.
-/

namespace Wiring.Build

variable {graph : Graph} {members : List ComponentId} {book final : Book} {task : Task} {waiting more : List Task}

/-- Tasks that lead to a firing of the computation on the inputs. -/
def Leads (id : ComputationId) (computation : Computation) (inputs : List DataOp) : Task → Prop
  | .fireWith other ops => other = id ∧ ops = inputs
  | .fire other => other = id
  | .wake socket => socket ∈ computation.inputs
  | .fireSources owner => owner = computation.owner ∧ computation.inputs = []
  | .forward socket op (.computation other) => other = id ∧ (socket, op) ∈ computation.inputs.zip inputs
  | _ => False

/-- The computation has fired on the inputs, or one of them is an arrival that has not been served. -/
def FiredOrUnserved (book : Book) (id : ComputationId) (computation : Computation) (inputs : List DataOp) : Prop :=
  (id, inputs.map DataOp.id) ∈ book.fired ∨ ∃ position socket op, book.served ≤ position ∧
    book.arrivals[position]? = some ⟨socket, op⟩ ∧ (socket, op) ∈ computation.inputs.zip inputs

structure Covered (graph : Graph) (members : List ComponentId) (tasks : List Task) (book : Book) : Prop where
  fires : ∀ id computation inputs, graph.computation? id = some computation → computation.owner ∈ members →
    book.complete computation.owner = true → AtInputs book computation.inputs inputs →
    Settled (FiredOrUnserved book id computation inputs) (Leads id computation inputs) tasks
  waits : ∀ id computation, graph.computation? id = some computation → computation.owner ∈ members →
    book.complete computation.owner = false → ∀ position arrival, position < book.served →
    book.arrivals[position]? = some arrival → arrival.socket ∈ computation.inputs →
    Settled (arrival.socket ∈ book.deferred computation.owner)
      (· = .forward arrival.socket arrival.op (.computation id)) tasks

/-! ### Steps -/

/-- A computation is entered at each of its inputs. -/
theorem reads (sound : Graph.Sound graph) {id : ComputationId} {computation : Computation}
    (found : graph.computation? id = some computation) {socket : SocketId} (member : socket ∈ computation.inputs)
    {held : Socket} (socketFound : graph.socket? socket = some held) : .computation id ∈ held.outgoing := by
  have count := sound.count_readers socketFound id
  rw [Graph.ComputationsSound.inputsOf_eq found] at count
  have positive : 0 < computation.inputs.count socket := List.count_pos_iff.mpr member
  rw [← count] at positive
  exact mem_computationEntries.mp (List.count_pos_iff.mp positive)

/-- A computation that is entered at a socket reads it. -/
theorem read_of_entered (sound : Graph.Sound graph) {id : ComputationId} {computation : Computation}
    (found : graph.computation? id = some computation) {socket : SocketId} {held : Socket}
    (socketFound : graph.socket? socket = some held) (entered : .computation id ∈ held.outgoing) :
    socket ∈ computation.inputs := by
  have count := sound.count_readers socketFound id
  rw [Graph.ComputationsSound.inputsOf_eq found] at count
  have positive := List.count_pos_iff.mpr (mem_computationEntries.mpr entered)
  rw [count] at positive
  exact List.count_pos_iff.mp positive

theorem Step.completes_of (step : Step graph task book more final) {id : ComponentId}
    (incomplete : book.complete id = false) (complete : final.complete id = true) :
    task = .check id ∧ more = (book.deferred id).map .wake ++ [.fireSources id] ∧ final = book.completeAt id := by
  cases step with
  | completes other node _ found =>
      have complete : Function.update book.complete other true id = true := complete
      by_cases same : id = other
      · subst same
        exact ⟨rfl, rfl, rfl⟩
      · rw [Function.update_of_ne same, incomplete] at complete
        cases complete
  | _ => exact absurd (incomplete.symm.trans complete) Bool.false_ne_true

/-- A socket waits until its component becomes complete. -/
theorem Step.still_waits (step : Step graph task book more final) {owner : ComponentId} {socket : SocketId}
    (waits : socket ∈ book.deferred owner) (incomplete : final.complete owner = false) :
    socket ∈ final.deferred owner := by
  cases step with
  | completes id node =>
      show socket ∈ Function.update book.deferred id [] owner
      have incomplete : Function.update book.complete id true owner = false := incomplete
      by_cases same : owner = id
      · rw [same, Function.update_self] at incomplete
        cases incomplete
      · rw [Function.update_of_ne same]
        exact waits
  | defer other op id computation =>
      show socket ∈
        Function.update book.deferred computation.owner (book.deferred computation.owner ++ [other]) owner
      by_cases same : owner = computation.owner
      · rw [same, Function.update_self]
        exact List.mem_append_left _ (same ▸ waits)
      · rw [Function.update_of_ne same]
        exact waits
  | _ => exact waits

/-- Arrivals keep their positions. -/
theorem Step.arrival_stays (step : Step graph task book more final) {position : Nat} {arrival : Arrival}
    (held : book.arrivals[position]? = some arrival) : final.arrivals[position]? = some arrival := by
  have below := (List.getElem?_eq_some_iff.mp held).1
  rcases step.arrivals with same | ⟨socket, op, -, -, added⟩
  · rw [same]
    exact held
  · rw [added, List.getElem?_append_left below]
    exact held

theorem Step.fired_stays (step : Step graph task book more final) {firing : ComputationId × List OpId}
    (member : firing ∈ book.fired) : firing ∈ final.fired := by
  rcases step.account with ⟨-, same, -⟩ | ⟨id, socket, space, -, rfl⟩ | ⟨fired, computation, log, -, -, -, -, rfl⟩
  · rw [same]
    exact member
  · exact member
  · exact List.mem_cons_of_mem _ member

theorem atInputs_of_zip {inputs : List SocketId} {ops : List DataOp} (length : inputs.length = ops.length)
    (each : ∀ input ∈ inputs.zip ops, input.2 ∈ book.opsAt input.1) : AtInputs book inputs ops :=
  List.forall₂_iff_zip.mpr ⟨length, fun member => each _ member⟩

/-- Ops that are at the inputs now were so before, or one of them has just arrived. -/
theorem Step.atInputs (step : Step graph task book more final) {inputs : List SocketId} {ops : List DataOp}
    (each : AtInputs final inputs ops) : AtInputs book inputs ops ∨ ∃ socket op,
      (socket, op) ∈ inputs.zip ops ∧ final.arrivals[book.arrivals.length]? = some ⟨socket, op⟩ := by
  rcases step.arrivals with same | ⟨socket, op, -, -, added⟩
  · refine .inl (List.Forall₂.imp (fun other known member => ?_) each)
    rw [Book.mem_opsAt, ← same]
    exact Book.mem_opsAt.mp member
  · by_cases uses : (socket, op) ∈ inputs.zip ops
    · refine .inr ⟨socket, op, uses, ?_⟩
      rw [added, List.getElem?_append_right (Nat.le_refl _), Nat.sub_self]
      rfl
    · refine .inl (atInputs_of_zip each.length_eq fun input member => ?_)
      have arrived := Book.mem_opsAt.mp (each.of_mem_zip member)
      rw [added] at arrived
      rcases List.mem_append.mp arrived with old | new
      · exact Book.mem_opsAt.mpr old
      · have same := List.mem_singleton.mp new
        have isNew : input = (socket, op) := Prod.ext (congrArg Arrival.socket same) (congrArg Arrival.op same)
        exact absurd (isNew ▸ member) uses

namespace Covered

/-- A task that leads to a firing fires, or gives rise to another that does. -/
theorem leads_on (sound : Graph.Sound graph) {id : ComputationId} {computation : Computation} {inputs : List DataOp}
    (found : graph.computation? id = some computation) (complete : book.complete computation.owner = true)
    (each : AtInputs book computation.inputs inputs) (step : Step graph task book more final)
    (leads : Leads id computation inputs task) :
    Settled (FiredOrUnserved final id computation inputs) (Leads id computation inputs) more := by
  cases step with
  | repeated other ops _ known =>
      rcases leads with ⟨rfl, rfl⟩
      exact .inl (.inl known)
  | fires firing other _ log fresh otherFound ran =>
      rcases leads with ⟨same, ops⟩
      refine .inl (.inl ?_)
      rw [← same, ← ops]
      exact List.mem_cons_self
  | fire other known _ otherFound =>
      obtain rfl : other = id := leads
      obtain rfl := Option.some.inj (found.symm.trans otherFound)
      exact .inr ⟨_, List.mem_map_of_mem (mem_combinations_opsAt.mpr each), rfl, rfl⟩
  | wake socket held _ heldFound =>
      have entered := mem_computationEntries.mpr (reads sound found leads heldFound)
      exact .inr ⟨_, List.mem_map_of_mem entered, rfl⟩
  | fireSources owner node _ nodeFound =>
      rcases leads with ⟨rfl, none⟩
      have works := sound.computations.works _ node nodeFound
      rcases (sound.computations.bound id computation found).node with ⟨other, _, otherFound, listed, -⟩
      obtain rfl := Option.some.inj (nodeFound.symm.trans otherFound)
      have source : id ∈ node.sources := by
        rw [works.sources, List.mem_filter, Graph.ComputationsSound.inputsOf_eq found, none]
        exact ⟨listed, rfl⟩
      exact .inr ⟨_, List.mem_map_of_mem source, rfl⟩
  | ready socket op other known => exact .inr ⟨_, List.mem_cons_self, leads.1⟩
  | waiting socket op other known _ otherFound incomplete =>
      obtain rfl := leads.1
      obtain rfl := Option.some.inj (found.symm.trans otherFound)
      rw [complete] at incomplete
      cases incomplete
  | defer socket op other known _ otherFound incomplete =>
      obtain rfl := leads.1
      obtain rfl := Option.some.inj (found.symm.trans otherFound)
      rw [complete] at incomplete
      cases incomplete
  | _ => cases leads

theorem start (fresh : book.Fresh graph members) : Covered graph members (initialTasks members) book where
  fires id computation inputs found member complete := by
    rw [fresh.complete _ member] at complete
    cases complete
  waits id computation found member incomplete position arrival below := by
    rw [fresh.served] at below
    cases below

/-- When a component becomes complete, all combinations at its inputs are on their way. -/
theorem fires_completed (covered : Covered graph members (task :: waiting) book)
    (step : Step graph task book more final) {id : ComputationId} {computation : Computation}
    {inputs : List DataOp} (found : graph.computation? id = some computation) (member : computation.owner ∈ members)
    (incomplete : book.complete computation.owner = false) (complete : final.complete computation.owner = true)
    (each : AtInputs book computation.inputs inputs) :
    Settled (FiredOrUnserved final id computation inputs) (Leads id computation inputs) (more ++ waiting) := by
  rcases step.completes_of incomplete complete with ⟨rfl, rfl, rfl⟩
  cases zipped : computation.inputs.zip inputs with
  | nil =>
      have none : computation.inputs = [] := by
        have lengths := congrArg List.length zipped
        rw [List.length_zip, ← each.length_eq, Nat.min_self, List.length_nil] at lengths
        exact List.length_eq_zero_iff.mp lengths
      refine .inr ⟨.fireSources computation.owner, ?_, rfl, none⟩
      exact List.mem_append_left _ (List.mem_append_right _ List.mem_cons_self)
  | cons input rest =>
      rcases input with ⟨socket, op⟩
      have isInput : (socket, op) ∈ computation.inputs.zip inputs := zipped ▸ List.mem_cons_self
      have arrived := Book.mem_opsAt.mp (each.of_mem_zip isInput)
      rcases List.mem_iff_getElem?.mp arrived with ⟨position, held⟩
      by_cases served : position < book.served
      · have isSocket := (List.of_mem_zip isInput).1
        rcases covered.waits id computation found member incomplete position _ served held isSocket with
          waits | ⟨other, pending, rfl⟩
        · refine .inr ⟨.wake socket, ?_, isSocket⟩
          exact List.mem_append_left _ (List.mem_append_left _ (List.mem_map_of_mem waits))
        · rcases List.mem_cons.mp pending with same | later
          · cases same
          · exact .inr ⟨_, List.mem_append_right _ later, rfl, isInput⟩
      · exact .inl (.inr ⟨position, socket, op, Nat.le_of_not_lt served, held, isInput⟩)

theorem step_fires (sound : Graph.Sound graph) (inRange : book.served ≤ book.arrivals.length)
    (covered : Covered graph members (task :: waiting) book) (step : Step graph task book more final)
    {id : ComputationId} {computation : Computation} {inputs : List DataOp}
    (found : graph.computation? id = some computation) (member : computation.owner ∈ members)
    (complete : final.complete computation.owner = true) (each : AtInputs final computation.inputs inputs) :
    Settled (FiredOrUnserved final id computation inputs) (Leads id computation inputs) (more ++ waiting) := by
  rcases step.atInputs each with before | ⟨socket, op, isInput, new⟩
  · cases already : book.complete computation.owner with
    | false => exact covered.fires_completed step found member already complete before
    | true =>
        refine (covered.fires id computation inputs found member already before).step ?_
          (leads_on sound found already before step)
        rintro (fired | ⟨position, socket, op, unserved, held, isInput⟩)
        · exact .inl (.inl (step.fired_stays fired))
        · refine .inl (.inr ⟨position, socket, op, ?_, step.arrival_stays held, isInput⟩)
          rw [step.served]
          exact unserved
  · refine .inl (.inr ⟨_, socket, op, ?_, new, isInput⟩)
    rw [step.served]
    exact inRange

theorem step_waits (inRange : book.served ≤ book.arrivals.length)
    (covered : Covered graph members (task :: waiting) book) (step : Step graph task book more final)
    {id : ComputationId} {computation : Computation} (found : graph.computation? id = some computation)
    (member : computation.owner ∈ members) (incomplete : final.complete computation.owner = false) {position : Nat}
    {arrival : Arrival} (served : position < final.served) (held : final.arrivals[position]? = some arrival)
    (isInput : arrival.socket ∈ computation.inputs) :
    Settled (arrival.socket ∈ final.deferred computation.owner)
      (· = .forward arrival.socket arrival.op (.computation id)) (more ++ waiting) := by
  rw [step.served] at served
  have before : book.complete computation.owner = false := by
    rw [← Bool.not_eq_true] at incomplete ⊢
    exact fun complete => incomplete (step.grows.complete _ complete)
  have before_held : ∃ old, book.arrivals[position]? = some old :=
    ⟨_, List.getElem?_eq_getElem (Nat.lt_of_lt_of_le served inRange)⟩
  rcases before_held with ⟨old, known⟩
  obtain rfl := Option.some.inj (held.symm.trans (step.arrival_stays known))
  refine (covered.waits id computation found member before position _ served known isInput).step
    (fun waits => .inl (step.still_waits waits incomplete)) ?_
  rintro rfl
  cases step with
  | ready socket op other bound _ otherFound complete =>
      obtain rfl := Option.some.inj (found.symm.trans otherFound)
      rw [before] at complete
      cases complete
  | waiting socket op other bound _ otherFound _ waits =>
      obtain rfl := Option.some.inj (found.symm.trans otherFound)
      exact .inl waits
  | defer socket op other bound _ otherFound =>
      obtain rfl := Option.some.inj (found.symm.trans otherFound)
      refine .inl ?_
      show _ ∈ Function.update book.deferred computation.owner _ computation.owner
      rw [Function.update_self]
      exact List.mem_append_right _ List.mem_cons_self

theorem serve (sound : Graph.Sound graph) (covered : Covered graph members [] book) {arrival : Arrival} {held : Socket}
    (next : book.arrivals[book.served]? = some arrival) (socketFound : graph.socket? arrival.socket = some held) :
    Covered graph members (held.outgoing.map (.forward arrival.socket arrival.op))
      { book with served := book.served + 1 } := by
  refine ⟨?_, ?_⟩
  · intro id computation inputs found member complete each
    rcases (covered.fires id computation inputs found member complete each).done with
      fired | ⟨position, socket, op, unserved, known, isInput⟩
    · exact .inl (.inl fired)
    · rcases Nat.eq_or_lt_of_le unserved with same | later
      · rw [← same, next] at known
        obtain rfl := Option.some.inj known
        have entered := reads sound found (List.of_mem_zip isInput).1 socketFound
        exact .inr ⟨_, List.mem_map_of_mem entered, rfl, isInput⟩
      · exact .inl (.inr ⟨position, socket, op, later, known, isInput⟩)
  · intro id computation found member incomplete position other served known isInput
    rcases Nat.lt_succ_iff_lt_or_eq.mp served with earlier | rfl
    · exact .inl (covered.waits id computation found member incomplete position other earlier known isInput).done
    · obtain rfl := Option.some.inj (next.symm.trans known)
      exact .inr ⟨_, List.mem_map_of_mem (reads sound found isInput socketFound), rfl⟩

theorem move (sound : Graph.Sound graph) {before later : List Task × Book}
    (move : Move graph before later) (inRange : before.2.served ≤ before.2.arrivals.length)
    (covered : Covered graph members before.1 before.2) : Covered graph members later.1 later.2 := by
  cases move with
  | task task waiting more book final step =>
      refine ⟨?_, ?_⟩
      · intro id computation inputs found member complete each
        exact covered.step_fires sound inRange step found member complete each
      · intro id computation found member incomplete position arrival served held isInput
        exact covered.step_waits inRange step found member incomplete served held isInput
  | serve arrival held book next found => exact covered.serve sound next found

end Covered

end Wiring.Build
