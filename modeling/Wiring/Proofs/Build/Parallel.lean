import Wiring.Proofs.Build.Pairing
import Wiring.Proofs.Build.Start

/-!
Contract: builds of parts that are wired alike proceed in step.

Owns: `InStep`, by which two books tell the same of paired things; that a step on each side of the same task
keeps the books in step; and that two builds which return a report end in step, so that paired sockets take
the same spaces.
-/

namespace Wiring

namespace Pairing

open Build

variable {pairing : Pairing} {left right : Graph}

/-- No task is left, and every arrival is served. -/
def Done (state : List Task × Book) : Prop :=
  state.1 = [] ∧ state.2.arrivals.length ≤ state.2.served

theorem Done.stuck {graph : Graph} {state later : List Task × Book} (done : Done state) :
    ¬Advance graph state later := by
  intro advance
  cases advance with
  | task => cases done.1
  | serve arrival held book next found =>
      rw [List.getElem?_eq_none done.2] at next
      cases next

/-- The same has happened to paired things, in the same order. -/
structure InStep (pairing : Pairing) (book other : Book) : Prop where
  log : book.log.size = other.log.size
  arrivals : List.Forall₂ (fun arrival arrivalToo => pairing.socket arrival.socket arrivalToo.socket ∧
    arrival.op = arrivalToo.op) book.arrivals other.arrivals
  served : book.served = other.served
  fired : List.Forall₂ (fun firing firingToo => pairing.computation firing.1 firingToo.1 ∧
    firing.2 = firingToo.2) book.fired other.fired
  space : ∀ a b, pairing.socket a b → book.space a = other.space b
  complete : ∀ a b, pairing.component a b → book.complete a = other.complete b
  deferred : ∀ a b, pairing.component a b → List.Forall₂ pairing.socket (book.deferred a) (other.deferred b)

/-! ### Books in step -/

namespace InStep

section Changes

variable {book other : Book}

theorem opsAt (inStep : pairing.InStep book other) (matched : pairing.Matches left right) {a b : SocketId}
    (pair : pairing.socket a b) : book.opsAt a = other.opsAt b :=
  opsAt_pairs matched.sockets inStep.arrivals pair

theorem opsAt_inputs (inStep : pairing.InStep book other) (matched : pairing.Matches left right)
    {inputs inputsToo : List SocketId} (paired : List.Forall₂ pairing.socket inputs inputsToo) :
    inputs.map book.opsAt = inputsToo.map other.opsAt := by
  induction paired with
  | nil => rfl
  | cons head _ inductionHypothesis =>
      rw [List.map_cons, List.map_cons, inStep.opsAt matched head, inductionHypothesis]

theorem arrive (inStep : pairing.InStep book other) {a b : SocketId} (pair : pairing.socket a b) (op : DataOp) :
    pairing.InStep (book.arrive a op) (other.arrive b op) :=
  { inStep with arrivals := List.rel_append inStep.arrivals (.cons ⟨pair, rfl⟩ .nil) }

theorem resolve (inStep : pairing.InStep book other) (matched : pairing.Matches left right) {a b : SocketId}
    (pair : pairing.socket a b) (space : Space) :
    pairing.InStep (book.resolve a space) (other.resolve b space) :=
  { inStep with space := update_pairs matched.sockets inStep.space pair rfl }

theorem completeAt (inStep : pairing.InStep book other) (matched : pairing.Matches left right) {a b : ComponentId}
    (pair : pairing.component a b) : pairing.InStep (book.completeAt a) (other.completeAt b) :=
  { inStep with
    complete := update_pairs matched.components inStep.complete pair rfl
    deferred := update_pairs matched.components inStep.deferred pair .nil }

theorem deferAt (inStep : pairing.InStep book other) (matched : pairing.Matches left right) {a b : ComponentId}
    (pair : pairing.component a b) {first second : SocketId} (sockets : pairing.socket first second) :
    pairing.InStep (book.deferAt a first) (other.deferAt b second) :=
  { inStep with
    deferred := update_pairs matched.components inStep.deferred pair
      (List.rel_append (inStep.deferred a b pair) (.cons sockets .nil)) }

theorem place (inStep : pairing.InStep book other) (a b : ComponentId) (first second : SocketId) (space : Space) :
    pairing.InStep (book.place a first space) (other.place b second space) :=
  { inStep with
    log := by
      show (book.log.push _).2.size = (other.log.push _).2.size
      rw [OpLog.size_push, OpLog.size_push, inStep.log] }

theorem fire (inStep : pairing.InStep book other) {firing firingToo : Firing}
    (pair : pairing.computation firing.computation firingToo.computation) (inputs : firing.inputs = firingToo.inputs)
    {log logToo : OpLog} (sizes : log.size = logToo.size) :
    pairing.InStep (book.fire firing log) (other.fire firingToo logToo) :=
  { inStep with
    log := sizes
    fired := .cons ⟨pair, congrArg (List.map DataOp.id) inputs⟩ inStep.fired }

theorem mem_fired (inStep : pairing.InStep book other) (matched : pairing.Matches left right) {a b : ComputationId}
    (pair : pairing.computation a b) (inputs : List OpId) :
    (a, inputs) ∈ book.fired ↔ (b, inputs) ∈ other.fired := by
  constructor
  · intro member
    rcases forall₂_of_mem_left inStep.fired member with ⟨⟨partner, same⟩, partnerMember, pairToo, rfl⟩
    obtain rfl : partner = b := matched.computations.2 pairToo pair
    exact partnerMember
  · intro member
    rcases forall₂_of_mem_right inStep.fired member with ⟨⟨partner, same⟩, partnerMember, pairToo, rfl⟩
    obtain rfl : partner = a := matched.computations.1 pairToo pair
    exact partnerMember

theorem mem_deferred (inStep : pairing.InStep book other) (matched : pairing.Matches left right)
    {a b : ComponentId} (pair : pairing.component a b) {first second : SocketId}
    (sockets : pairing.socket first second) : first ∈ book.deferred a ↔ second ∈ other.deferred b :=
  List.rel_mem matched.sockets sockets (inStep.deferred a b pair)

end Changes

/-! ### Steps of paired tasks -/

section Steps

variable {book other final finalToo : Book} {more moreToo : List Task}
  (inStep : pairing.InStep book other) (matched : pairing.Matches left right)
include inStep matched

theorem deliver_step {a b : SocketId} (pair : pairing.socket a b) {op : DataOp}
    (step : Step left (.deliver a op) book more final)
    (stepToo : Step right (.deliver b op) other moreToo finalToo) :
    List.Forall₂ pairing.Tasks more moreToo ∧ pairing.InStep final finalToo := by
  have ops := inStep.opsAt matched pair
  have spaces := inStep.space a b pair
  cases step with
  | known _ _ known _ member same =>
      cases stepToo with
      | known => exact ⟨.nil, inStep⟩
      | further _ _ _ _ _ fresh => exact absurd same (fresh known (ops ▸ member))
      | first _ _ _ _ fresh => exact absurd same (fresh known (ops ▸ member))
  | further _ _ held space _ fresh found resolved =>
      cases stepToo with
      | known _ _ known _ member same => exact absurd same (fresh known (ops ▸ member))
      | further => exact ⟨.nil, inStep.arrive pair op⟩
      | first _ _ _ _ _ _ unresolved =>
          rw [resolved, unresolved] at spaces
          cases spaces
  | first _ _ held _ fresh found unresolved =>
      cases stepToo with
      | known _ _ known _ member same => exact absurd same (fresh known (ops ▸ member))
      | further _ _ _ _ _ _ _ resolved =>
          rw [resolved, unresolved] at spaces
          cases spaces
      | first _ _ heldToo _ _ foundToo =>
          rcases matched.port a b pair with ⟨socket, socketToo, socketHeld, socketHeldToo, ports⟩
          obtain rfl := Option.some.inj (found.symm.trans socketHeld)
          obtain rfl := Option.some.inj (foundToo.symm.trans socketHeldToo)
          refine ⟨?_, (inStep.arrive pair op).resolve matched pair op.space⟩
          rw [ports.interface]
          split
          · exact .cons (.check _ _ ports.owner) .nil
          · exact .nil

theorem check_step {a b : ComponentId} (pair : pairing.component a b) (step : Step left (.check a) book more final)
    (stepToo : Step right (.check b) other moreToo finalToo) :
    List.Forall₂ pairing.Tasks more moreToo ∧ pairing.InStep final finalToo := by
  have completes := inStep.complete a b pair
  rcases matched.node a b pair with ⟨node, nodeToo, nodeFound, nodeFoundToo, nodes⟩
  cases step with
  | checked _ _ complete =>
      cases stepToo with
      | checked => exact ⟨.nil, inStep⟩
      | unready _ _ _ _ _ incomplete => simp [complete, incomplete] at completes
      | completes _ _ _ _ incomplete => simp [complete, incomplete] at completes
  | unready _ _ input _ found incomplete member unresolved =>
      cases stepToo with
      | checked => exact ⟨.nil, inStep⟩
      | unready => exact ⟨.nil, inStep⟩
      | completes _ _ _ foundToo _ resolved =>
          obtain rfl := Option.some.inj (found.symm.trans nodeFound)
          obtain rfl := Option.some.inj (foundToo.symm.trans nodeFoundToo)
          rcases forall₂_of_mem_left nodes.inputs member with ⟨partner, partnerMember, sockets⟩
          have known := resolved partner partnerMember
          rw [← inStep.space input partner sockets, unresolved] at known
          cases known
  | completes _ _ _ found incomplete resolved =>
      cases stepToo with
      | checked _ _ complete => simp [complete, incomplete] at completes
      | unready _ _ input _ foundToo _ member unresolved =>
          obtain rfl := Option.some.inj (found.symm.trans nodeFound)
          obtain rfl := Option.some.inj (foundToo.symm.trans nodeFoundToo)
          rcases forall₂_of_mem_right nodes.inputs member with ⟨partner, partnerMember, sockets⟩
          have known := resolved partner partnerMember
          rw [inStep.space partner input sockets, unresolved] at known
          cases known
      | completes =>
          refine ⟨?_, inStep.completeAt matched pair⟩
          refine List.rel_append ?_ (.cons (.fireSources a b pair) .nil)
          exact List.rel_map (fun first second sockets => .wake first second sockets) (inStep.deferred a b pair)

theorem forward_step {a b : SocketId} (pair : pairing.socket a b) {op : DataOp} {first second : Connection}
    (connects : pairing.Connects first second) (step : Step left (.forward a op first) book more final)
    (stepToo : Step right (.forward b op second) other moreToo finalToo) :
    List.Forall₂ pairing.Tasks more moreToo ∧ pairing.InStep final finalToo := by
  cases connects with
  | socket target targetToo targets =>
      cases step
      cases stepToo
      exact ⟨.cons (.deliver target targetToo op targets) .nil, inStep⟩
  | computation id idToo computations =>
      rcases matched.work id idToo computations with ⟨work, workToo, workFound, workFoundToo, works⟩
      have completes := inStep.complete _ _ works.owner
      have waits := inStep.mem_deferred matched works.owner pair
      cases step with
      | ready _ _ _ _ _ found complete =>
          obtain rfl := Option.some.inj (found.symm.trans workFound)
          cases stepToo with
          | ready => exact ⟨.cons (.fire id idToo computations) .nil, inStep⟩
          | waiting _ _ _ _ _ foundToo incomplete =>
              obtain rfl := Option.some.inj (foundToo.symm.trans workFoundToo)
              simp [complete, incomplete] at completes
          | defer _ _ _ _ _ foundToo incomplete =>
              obtain rfl := Option.some.inj (foundToo.symm.trans workFoundToo)
              simp [complete, incomplete] at completes
      | waiting _ _ _ _ _ found incomplete member =>
          obtain rfl := Option.some.inj (found.symm.trans workFound)
          cases stepToo with
          | ready _ _ _ _ _ foundToo complete =>
              obtain rfl := Option.some.inj (foundToo.symm.trans workFoundToo)
              simp [complete, incomplete] at completes
          | waiting => exact ⟨.nil, inStep⟩
          | defer _ _ _ _ _ foundToo _ fresh =>
              obtain rfl := Option.some.inj (foundToo.symm.trans workFoundToo)
              exact absurd (waits.mp member) fresh
      | defer _ _ _ _ _ found incomplete fresh =>
          obtain rfl := Option.some.inj (found.symm.trans workFound)
          cases stepToo with
          | ready _ _ _ _ _ foundToo complete =>
              obtain rfl := Option.some.inj (foundToo.symm.trans workFoundToo)
              simp [complete, incomplete] at completes
          | waiting _ _ _ _ _ foundToo _ member =>
              obtain rfl := Option.some.inj (foundToo.symm.trans workFoundToo)
              exact absurd (waits.mpr member) fresh
          | defer _ _ _ _ _ foundToo =>
              obtain rfl := Option.some.inj (foundToo.symm.trans workFoundToo)
              exact ⟨.nil, inStep.deferAt matched works.owner pair⟩

end Steps

section Parallel

variable {book other final finalToo : Book} {more moreToo : List Task}
  (inStep : pairing.InStep book other) (parallel : pairing.Parallel left right)
include inStep parallel

/-- Deterministic methods of paired computations return the same ops on the same inputs. -/
theorem fires_agree {firing firingToo : Firing}
    (pair : pairing.computation firing.computation firingToo.computation) (inputs : firing.inputs = firingToo.inputs)
    {log logToo : OpLog} (ran : Fires left book.log firing log) (ranToo : Fires right other.log firingToo logToo) :
    firing.outputs = firingToo.outputs ∧ log.size = logToo.size := by
  rcases parallel.work _ _ pair with ⟨work, workToo, workFound, workFoundToo, works⟩
  rcases ran with ⟨_, node, method, registry, calls, more, found, nodeFound, chosen, applied⟩
  rcases ranToo with ⟨_, nodeToo, methodToo, registryToo, callsToo, moreToo, foundToo, nodeFoundToo, chosenToo,
    appliedToo⟩
  obtain rfl := Option.some.inj (found.symm.trans workFound)
  obtain rfl := Option.some.inj (foundToo.symm.trans workFoundToo)
  rcases parallel.node _ _ works.owner with ⟨_, _, sameFound, sameFoundToo, nodes⟩
  obtain rfl := Option.some.inj (nodeFound.symm.trans sameFound)
  obtain rfl := Option.some.inj (nodeFoundToo.symm.trans sameFoundToo)
  have sameMethod : method = methodToo := by
    unfold Component.method? at chosen chosenToo
    rw [nodes.methods, works.method, chosenToo] at chosen
    exact (Option.some.inj chosen).symm
  subst sameMethod
  have listed : method ∈ node.methods := List.mem_of_find?_eq_some chosen
  have deterministic := parallel.deterministic _ _ node works.owner nodeFound method listed
  rw [← inputs, ← works.settings] at appliedToo
  refine Method.agrees_apply deterministic ?_ _ firing.inputs _ _ _ _ _ _ inStep.log applied appliedToo
  exact ⟨rfl, parallel.kind⟩

theorem fireWith_step {a b : ComputationId} (pair : pairing.computation a b) {inputs : List DataOp}
    (step : Step left (.fireWith a inputs) book more final)
    (stepToo : Step right (.fireWith b inputs) other moreToo finalToo) :
    List.Forall₂ pairing.Tasks more moreToo ∧ pairing.InStep final finalToo := by
  have fired := inStep.mem_fired parallel.toMatches pair (inputs.map DataOp.id)
  cases step with
  | repeated _ _ _ known =>
      cases stepToo with
      | repeated => exact ⟨.nil, inStep⟩
      | fires firing _ _ _ fresh => exact absurd (fired.mp known) fresh
  | fires firing work _ log fresh found ran =>
      -- The right task is taken apart by equations, as its inputs are those of the left firing.
      generalize task : Task.fireWith b firing.inputs = taskToo at stepToo
      cases stepToo with
      | repeated _ _ _ known =>
          obtain ⟨rfl, rfl⟩ := Task.fireWith.inj task
          exact absurd (fired.mpr known) fresh
      | fires firingToo workToo _ logToo freshToo foundToo ranToo =>
          rcases Task.fireWith.inj task with ⟨rfl, same⟩
          rcases inStep.fires_agree parallel pair same ran ranToo with ⟨outputs, sizes⟩
          rcases parallel.work _ _ pair with ⟨_, _, workFound, workFoundToo, works⟩
          obtain rfl := Option.some.inj (found.symm.trans workFound)
          obtain rfl := Option.some.inj (foundToo.symm.trans workFoundToo)
          refine ⟨?_, inStep.fire pair same sizes⟩
          rw [← outputs]
          exact deliveries works.outputs firing.outputs
      | _ => cases task

/-- Paired tasks do the same to books in step. -/
theorem step {task taskToo : Task} (tasks : pairing.Tasks task taskToo) (step : Step left task book more final)
    (stepToo : Step right taskToo other moreToo finalToo) :
    List.Forall₂ pairing.Tasks more moreToo ∧ pairing.InStep final finalToo := by
  have matched := parallel.toMatches
  cases tasks with
  | seed a b pair =>
      rcases matched.node a b pair with ⟨node, nodeToo, nodeFound, nodeFoundToo, nodes⟩
      cases step with
      | seed _ _ _ found =>
          cases stepToo with
          | seed _ _ _ foundToo =>
              obtain rfl := Option.some.inj (found.symm.trans nodeFound)
              obtain rfl := Option.some.inj (foundToo.symm.trans nodeFoundToo)
              have seeds := List.rel_map (fun first second sockets => Tasks.seedSocket a b first second sockets)
                nodes.sockets
              exact ⟨seeds, inStep⟩
  | seedSocket a b first second pair =>
      cases step with
      | seedSocket _ _ held _ found =>
          cases stepToo with
          | seedSocket _ _ heldToo _ foundToo =>
              rw [parallel.feeds first second held heldToo pair found foundToo]
              exact ⟨forall₂_map_same (fun space => .place a b first second space pair) _, inStep⟩
  | place a b first second space pair =>
      cases step
      cases stepToo
      rw [inStep.log]
      exact ⟨.cons (.deliver first second _ pair) .nil, inStep.place a b first second space⟩
  | deliver a b op pair => exact inStep.deliver_step matched pair step stepToo
  | check a b pair => exact inStep.check_step matched pair step stepToo
  | forward a b op first second pair connects => exact inStep.forward_step matched pair connects step stepToo
  | wake a b pair =>
      rcases matched.port a b pair with ⟨socket, socketToo, socketHeld, socketHeldToo, ports⟩
      cases step with
      | wake _ _ _ found =>
          cases stepToo with
          | wake _ _ _ foundToo =>
              obtain rfl := Option.some.inj (found.symm.trans socketHeld)
              obtain rfl := Option.some.inj (foundToo.symm.trans socketHeldToo)
              have readers := readers_of_outgoing ports.outgoing
              exact ⟨List.rel_map (fun first second computations => .fire first second computations) readers, inStep⟩
  | fireSources a b pair =>
      rcases matched.node a b pair with ⟨node, nodeToo, nodeFound, nodeFoundToo, nodes⟩
      cases step with
      | fireSources _ _ _ found =>
          cases stepToo with
          | fireSources _ _ _ foundToo =>
              obtain rfl := Option.some.inj (found.symm.trans nodeFound)
              obtain rfl := Option.some.inj (foundToo.symm.trans nodeFoundToo)
              have sources := nodes.sources
              exact ⟨List.rel_map (fun first second computations => .fire first second computations) sources, inStep⟩
  | fire a b pair =>
      rcases matched.work a b pair with ⟨work, workToo, workFound, workFoundToo, works⟩
      cases step with
      | fire _ _ _ found =>
          cases stepToo with
          | fire _ _ _ foundToo =>
              obtain rfl := Option.some.inj (found.symm.trans workFound)
              obtain rfl := Option.some.inj (foundToo.symm.trans workFoundToo)
              have ops := inStep.opsAt_inputs matched works.inputs
              rw [ops]
              exact ⟨forall₂_map_same (fun inputs => .fireWith a b inputs pair) _, inStep⟩
  | fireWith a b inputs pair => exact inStep.fireWith_step parallel pair step stepToo

end Parallel

theorem advance {before after beforeToo afterToo : List Task × Book} (parallel : pairing.Parallel left right)
    (tasks : List.Forall₂ pairing.Tasks before.1 beforeToo.1) (inStep : pairing.InStep before.2 beforeToo.2)
    (advance : Advance left before after) (advanceToo : Advance right beforeToo afterToo) :
    List.Forall₂ pairing.Tasks after.1 afterToo.1 ∧ pairing.InStep after.2 afterToo.2 := by
  cases advance with
  | task task waiting more book final step =>
      cases advanceToo with
      | task taskToo waitingToo moreToo other finalToo stepToo =>
          cases tasks with
          | cons head tail =>
              rcases inStep.step parallel head step stepToo with ⟨paired, inStepAfter⟩
              exact ⟨List.rel_append paired tail, inStepAfter⟩
      | serve => cases tasks
  | serve arrival held book next found =>
      cases advanceToo with
      | task => cases tasks
      | serve arrivalToo heldToo other nextToo foundToo =>
          have served : book.served = other.served := inStep.served
          rw [← served] at nextToo
          rcases forall₂_getElem? inStep.arrivals next nextToo with ⟨pair, ops⟩
          rcases parallel.port _ _ pair with ⟨_, _, socketHeld, socketHeldToo, ports⟩
          obtain rfl := Option.some.inj (found.symm.trans socketHeld)
          obtain rfl := Option.some.inj (foundToo.symm.trans socketHeldToo)
          refine ⟨?_, { inStep with served := congrArg (· + 1) served }⟩
          rw [ops]
          refine List.rel_map (fun first second connects => ?_) ports.outgoing
          exact .forward arrival.socket arrivalToo.socket arrivalToo.op first second pair connects

theorem done_iff {before beforeToo : List Task × Book}
    (tasks : List.Forall₂ pairing.Tasks before.1 beforeToo.1) (inStep : pairing.InStep before.2 beforeToo.2) :
    Done before ↔ Done beforeToo := by
  unfold Done
  rw [← List.length_eq_zero_iff, ← List.length_eq_zero_iff, tasks.length_eq, inStep.arrivals.length_eq,
    inStep.served]

/-- Builds in step end in step. -/
theorem run {before later beforeToo laterToo : List Task × Book} (parallel : pairing.Parallel left right)
    (advances : Relation.ReflTransGen (Advance left) before later) (done : Done later)
    (advancesToo : Relation.ReflTransGen (Advance right) beforeToo laterToo) (doneToo : Done laterToo)
    (tasks : List.Forall₂ pairing.Tasks before.1 beforeToo.1) (inStep : pairing.InStep before.2 beforeToo.2) :
    pairing.InStep later.2 laterToo.2 := by
  induction advances using Relation.ReflTransGen.head_induction_on generalizing beforeToo with
  | refl =>
      rcases advancesToo.cases_head with rfl | ⟨next, step, -⟩
      · exact inStep
      · exact absurd step ((done_iff tasks inStep).mp done).stuck
  | head first _ inductionHypothesis =>
      rcases advancesToo.cases_head with rfl | ⟨next, firstToo, rest⟩
      · exact absurd first ((done_iff tasks inStep).mpr doneToo).stuck
      · rcases advance parallel tasks inStep first firstToo with ⟨tasksAfter, inStepAfter⟩
        exact inductionHypothesis rest tasksAfter inStepAfter

/-- Nothing has happened to members that are paired. -/
theorem start {members membersToo : List ComponentId} {book other : Book} (matched : pairing.Matches left right)
    (sound : Graph.SocketsSound left) (soundToo : Graph.SocketsSound right) (fresh : book.Fresh left members)
    (freshToo : other.Fresh right membersToo)
    (within : ∀ a b, pairing.component a b → a ∈ members ∧ b ∈ membersToo) : pairing.InStep book other where
  log := by rw [fresh.log, freshToo.log]
  arrivals := by
    rw [fresh.arrivals, freshToo.arrivals]
    exact .nil
  served := by rw [fresh.served, freshToo.served]
  fired := by
    rw [fresh.fired, freshToo.fired]
    exact .nil
  space a b pair := by
    rcases matched.port a b pair with ⟨socket, socketToo, held, heldToo, ports⟩
    rcases within _ _ ports.owner with ⟨member, memberToo⟩
    rcases sound.owner a socket held with ⟨node, found⟩
    rcases soundToo.owner b socketToo heldToo with ⟨nodeToo, foundToo⟩
    have listed := (sound.mem_sockets found).mpr ⟨socket, held, rfl⟩
    have listedToo := (soundToo.mem_sockets foundToo).mpr ⟨socketToo, heldToo, rfl⟩
    rw [fresh.space _ member node found a listed, freshToo.space _ memberToo nodeToo foundToo b listedToo]
  complete a b pair := by
    rcases within a b pair with ⟨member, memberToo⟩
    rw [fresh.complete a member, freshToo.complete b memberToo]
  deferred a b pair := by
    rcases within a b pair with ⟨member, memberToo⟩
    rw [fresh.deferred a member, freshToo.deferred b memberToo]
    exact .nil

end InStep

/-- The builds begin with the same tasks for paired members. -/
theorem initialTasks_pairs {members membersToo : List ComponentId}
    (paired : List.Forall₂ pairing.component members membersToo) :
    List.Forall₂ pairing.Tasks (busy (initialTasks members)) (busy (initialTasks membersToo)) := by
  unfold initialTasks
  rw [busy_append, busy_append, busy_map fun _ => rfl, busy_map fun _ => rfl, busy_map fun _ => rfl,
    busy_map fun _ => rfl]
  refine List.rel_append ?_ ?_
  · exact List.rel_map (fun a b pair => .seed a b pair) paired
  · exact List.rel_map (fun a b pair => .check a b pair) paired

/-- Two builds of parts that behave alike give paired sockets the same spaces. -/
theorem Parallel.spaces {session sessionToo final finalToo : Session} {root rootToo : ComponentId}
    {report reportToo : Report} (parallel : pairing.Parallel session.graph sessionToo.graph)
    (sound : Graph.SocketsSound session.graph) (soundToo : Graph.SocketsSound sessionToo.graph)
    (built : Built session root report final) (builtToo : Built sessionToo rootToo reportToo finalToo)
    (paired : List.Forall₂ pairing.component built.members builtToo.members)
    (within : ∀ a b, pairing.component a b → a ∈ built.members ∧ b ∈ builtToo.members) {a b : SocketId}
    (pair : pairing.socket a b) : final.graph.spaceOf a = finalToo.graph.spaceOf b := by
  have started := InStep.start parallel.toMatches sound soundToo built.fresh builtToo.fresh within
  have ended := InStep.run parallel built.finishes.advances ⟨rfl, built.finishes.2⟩ builtToo.finishes.advances
    ⟨rfl, builtToo.finishes.2⟩ (initialTasks_pairs paired) started
  rw [built.space, builtToo.space]
  exact ended.space a b pair

end Pairing

end Wiring
