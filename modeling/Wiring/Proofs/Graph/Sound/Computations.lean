import Mathlib.Data.List.Nodup
import Wiring.Proofs.Graph.Sound.Sockets

/-!
Contract: computations, their owners and their sockets agree.

Owns: `ComputationsSound`, by which a computation is listed by its owner, binds a registered method with as
many sockets as the method takes, all of them sockets of the owner, and is entered at each socket as often as
it reads or writes it, in the order of the owner's list; and that every change preserves it.
-/

namespace Wiring

/-- The part of a component that concerns its computations. -/
def Component.works (node : Component) : Component :=
  { scope := "", name := "", methods := node.methods, computations := node.computations, sources := node.sources }

theorem Component.fields_of_works {left right : Component} (same : left.works = right.works) :
    left.methods = right.methods ∧ left.computations = right.computations ∧ left.sources = right.sources := by
  show left.works.methods = right.works.methods ∧ left.works.computations = right.works.computations ∧
    left.works.sources = right.works.sources
  rw [same]
  exact ⟨rfl, rfl, rfl⟩

/-- The computations at a socket. -/
structure Tasks where
  owner : ComponentId
  writers : List ComputationId
  readers : List ComputationId

def Socket.tasks (socket : Socket) : Tasks where
  owner := socket.owner
  writers := computationEntries socket.incoming
  readers := computationEntries socket.outgoing

theorem Socket.owner_of_tasks {left right : Socket} (same : left.tasks = right.tasks) :
    left.owner = right.owner := by
  show left.tasks.owner = right.tasks.owner
  rw [same]

namespace Graph

/-- Each computation of a list as often as a socket occurs among its ends. -/
def occurrences (ends : ComputationId → List SocketId) (id : SocketId) (computations : List ComputationId) :
    List ComputationId :=
  computations.flatMap fun computation => List.replicate ((ends computation).count id) computation

theorem occurrences_append (ends : ComputationId → List SocketId) (id : SocketId)
    (left right : List ComputationId) :
    occurrences ends id (left ++ right) = occurrences ends id left ++ occurrences ends id right :=
  List.flatMap_append

theorem occurrences_congr {before later : ComputationId → List SocketId} (id : SocketId)
    {computations : List ComputationId}
    (same : ∀ computation ∈ computations, later computation = before computation) :
    occurrences later id computations = occurrences before id computations := by
  unfold occurrences
  induction computations with
  | nil => rfl
  | cons first rest inductionHypothesis =>
      rw [List.flatMap_cons, List.flatMap_cons, same first (by simp),
        inductionHypothesis fun computation member => same computation (by simp [member])]

theorem occurrences_eq_nil {ends : ComputationId → List SocketId} {id : SocketId}
    {computations : List ComputationId} (absent : ∀ computation ∈ computations, id ∉ ends computation) :
    occurrences ends id computations = [] := by
  refine List.flatMap_eq_nil_iff.mpr fun computation member => ?_
  rw [List.count_eq_zero_of_not_mem (absent computation member)]
  rfl

/-- How often a computation occurs, if it is listed once. -/
theorem count_occurrences {ends : ComputationId → List SocketId} {id : SocketId}
    {computations : List ComputationId} (once : computations.Nodup) {computation : ComputationId}
    (listed : computation ∈ computations) :
    (occurrences ends id computations).count computation = (ends computation).count id := by
  induction computations with
  | nil => cases listed
  | cons first rest inductionHypothesis =>
      obtain ⟨notRepeated, once⟩ := List.nodup_cons.mp once
      rw [occurrences, List.flatMap_cons, List.count_append, List.count_replicate]
      rcases List.mem_cons.mp listed with rfl | later
      · have absent : computation ∉ occurrences ends id rest := by
          intro member
          obtain ⟨other, otherMember, repeated⟩ := List.mem_flatMap.mp member
          obtain rfl := List.eq_of_mem_replicate repeated
          exact notRepeated otherMember
        have zero : (occurrences ends id rest).count computation = 0 := List.count_eq_zero_of_not_mem absent
        unfold occurrences at zero
        rw [zero]
        simp
      · have differ : first ≠ computation := by
          rintro rfl
          exact notRepeated later
        have rest := inductionHypothesis once later
        unfold occurrences at rest
        rw [rest]
        simp [differ]

theorem mem_occurrences {ends : ComputationId → List SocketId} {id : SocketId}
    {computations : List ComputationId} {computation : ComputationId}
    (member : computation ∈ occurrences ends id computations) :
    computation ∈ computations ∧ id ∈ ends computation := by
  obtain ⟨other, otherMember, repeated⟩ := List.mem_flatMap.mp member
  obtain ⟨positive, rfl⟩ := List.mem_replicate.mp repeated
  exact ⟨otherMember, List.count_pos_iff.mp (Nat.pos_of_ne_zero positive)⟩

/-- A computation with everything that was checked when it was made. -/
structure Bound (graph : Graph) (id : ComputationId) (computation : Computation) : Prop where
  node : ∃ node method, graph.component? computation.owner = some node ∧ id ∈ node.computations ∧
    node.method? computation.method = some method ∧ computation.inputs.length = method.inputs ∧
    computation.outputs.length = method.outputs
  inputs : ∀ socket ∈ computation.inputs, ∃ held, graph.socket? socket = some held ∧
    held.owner = computation.owner
  outputs : ∀ socket ∈ computation.outputs, ∃ held, graph.socket? socket = some held ∧
    held.owner = computation.owner

/-- The computations of one component. -/
structure WorksSound (graph : Graph) (owner : ComponentId) (node : Component) : Prop where
  listed : ∀ id ∈ node.computations, ∃ computation, graph.computation? id = some computation ∧
    computation.owner = owner
  once : node.computations.Nodup
  /-- The computations without inputs are listed apart. -/
  sources : node.sources = node.computations.filter fun id => (graph.inputsOf id).isEmpty
  methods : (node.methods.map Method.name).Nodup

structure ComputationsSound (graph : Graph) : Prop where
  bound : ∀ id computation, graph.computation? id = some computation → Bound graph id computation
  works : ∀ owner node, graph.component? owner = some node → WorksSound graph owner node
  readers : ∀ id socket node, graph.socket? id = some socket → graph.component? socket.owner = some node →
    socket.tasks.readers = occurrences graph.inputsOf id node.computations
  writers : ∀ id socket node, graph.socket? id = some socket → graph.component? socket.owner = some node →
    socket.tasks.writers = occurrences graph.outputsOf id node.computations

namespace ComputationsSound

variable {graph : Graph}

theorem empty (backend : Backend) : ComputationsSound { backend } := by
  constructor <;> simp [socket?, component?, computation?]

theorem inputsOf_eq {id : ComputationId} {computation : Computation}
    (found : graph.computation? id = some computation) : graph.inputsOf id = computation.inputs := by
  rw [inputsOf, found]
  rfl

theorem outputsOf_eq {id : ComputationId} {computation : Computation}
    (found : graph.computation? id = some computation) : graph.outputsOf id = computation.outputs := by
  rw [outputsOf, found]
  rfl

/-- Only computations, their lists, and their entries at sockets matter. -/
theorem frame {later : Graph} (sound : ComputationsSound graph)
    (works : ∀ id, (later.component? id).map Component.works = (graph.component? id).map Component.works)
    (tasks : ∀ id, (later.socket? id).map Socket.tasks = (graph.socket? id).map Socket.tasks)
    (computations : ∀ id, later.computation? id = graph.computation? id) : ComputationsSound later := by
  have inputs : later.inputsOf = graph.inputsOf := by
    funext id
    rw [inputsOf, computations, inputsOf]
  have outputs : later.outputsOf = graph.outputsOf := by
    funext id
    rw [outputsOf, computations, outputsOf]
  have owned {id : SocketId} {owner : ComponentId}
      (known : ∃ held, graph.socket? id = some held ∧ held.owner = owner) :
      ∃ held, later.socket? id = some held ∧ held.owner = owner := by
    obtain ⟨held, found, same⟩ := known
    obtain ⟨new, newFound, tasksSame⟩ := exists_of_map_eq (tasks id).symm found
    exact ⟨new, newFound, (Socket.owner_of_tasks tasksSame).symm.trans same⟩
  refine ⟨?_, ?_, ?_, ?_⟩
  · intro id computation found
    rw [computations] at found
    have bound := sound.bound id computation found
    obtain ⟨node, method, nodeFound, listed, chosen, arity⟩ := bound.node
    obtain ⟨new, newFound, same⟩ := exists_of_map_eq (works computation.owner).symm nodeFound
    obtain ⟨methods, listedSame, -⟩ := Component.fields_of_works same
    refine ⟨⟨new, method, newFound, listedSame ▸ listed, ?_, arity⟩, fun socket member => owned (bound.inputs socket member),
      fun socket member => owned (bound.outputs socket member)⟩
    rw [Component.method?, ← methods]
    exact chosen
  · intro owner node found
    obtain ⟨old, oldFound, same⟩ := exists_of_map_eq (works owner) found
    obtain ⟨methods, listed, sources⟩ := Component.fields_of_works same
    have oldWorks := sound.works owner old oldFound
    refine ⟨?_, ?_, ?_, ?_⟩
    · intro id member
      rw [computations]
      exact oldWorks.listed id (listed ▸ member)
    · exact listed ▸ oldWorks.once
    · rw [sources, listed, inputs]
      exact oldWorks.sources
    · exact methods ▸ oldWorks.methods
  · intro id socket node held found
    obtain ⟨old, oldHeld, same⟩ := exists_of_map_eq (tasks id) held
    rw [Socket.owner_of_tasks same] at found
    obtain ⟨oldNode, oldFound, nodeSame⟩ := exists_of_map_eq (works old.owner) found
    rw [same, inputs, (Component.fields_of_works nodeSame).2.1]
    exact sound.readers id old oldNode oldHeld oldFound
  · intro id socket node held found
    obtain ⟨old, oldHeld, same⟩ := exists_of_map_eq (tasks id) held
    rw [Socket.owner_of_tasks same] at found
    obtain ⟨oldNode, oldFound, nodeSame⟩ := exists_of_map_eq (works old.owner) found
    rw [same, outputs, (Component.fields_of_works nodeSame).2.1]
    exact sound.writers id old oldNode oldHeld oldFound

theorem create (sound : ComputationsSound graph) (sockets : SocketsSound graph) (config : ComponentConfig) :
    ComputationsSound (graph.pushComponent (.ofConfig config)) := by
  have owner_found {id : SocketId} {socket : Socket} {node : Component} (held : graph.socket? id = some socket)
      (found : (graph.pushComponent (.ofConfig config)).component? socket.owner = some node) :
      graph.component? socket.owner = some node := by
    rwa [component?_pushComponent, if_neg (sockets.owner_ne_next held)] at found
  refine ⟨?_, ?_, ?_, ?_⟩
  · intro id computation found
    have bound := sound.bound id computation found
    obtain ⟨node, method, nodeFound, rest⟩ := bound.node
    exact ⟨⟨node, method, component?_pushComponent_eq_some.mpr (.inr nodeFound), rest⟩, bound.inputs, bound.outputs⟩
  · intro owner node found
    rcases component?_pushComponent_eq_some.mp found with ⟨-, rfl⟩ | known
    · exact ⟨by simp [Component.ofConfig], List.nodup_nil, rfl, List.nodup_nil⟩
    · have works := sound.works owner node known
      exact ⟨works.listed, works.once, works.sources, works.methods⟩
  · intro id socket node held found
    exact sound.readers id socket node held (owner_found held found)
  · intro id socket node held found
    exact sound.writers id socket node held (owner_found held found)

/-- No computation reads or writes a socket that is only now created. -/
theorem next_not_mem (sound : ComputationsSound graph) (id : ComputationId) :
    graph.nextSocket ∉ graph.inputsOf id ∧ graph.nextSocket ∉ graph.outputsOf id := by
  cases found : graph.computation? id with
  | none => simp [inputsOf, outputsOf, found]
  | some computation =>
      rw [inputsOf_eq found, outputsOf_eq found]
      have bound := sound.bound id computation found
      constructor
      · intro member
        obtain ⟨held, heldFound, -⟩ := bound.inputs _ member
        exact ne_nextSocket heldFound rfl
      · intro member
        obtain ⟨held, heldFound, -⟩ := bound.outputs _ member
        exact ne_nextSocket heldFound rfl

theorem works_enlist (internal : Bool) (side : Side) (id : SocketId) (node : Component) :
    (node.enlist internal side id).works = node.works := by
  unfold Component.enlist
  cases internal <;> cases side <;> rfl

theorem socket (sound : ComputationsSound graph) (owner : ComponentId) (internal : Bool) (name : String)
    (side : Side) : ComputationsSound (graph.withSocket owner internal name side) := by
  have works (id : ComponentId) : ((graph.withSocket owner internal name side).component? id).map
      Component.works = (graph.component? id).map Component.works := by
    rw [component?_withSocket]
    exact map_changed (works_enlist internal side graph.nextSocket) _ _
  refine ⟨?_, ?_, ?_, ?_⟩
  · intro id computation found
    have bound := sound.bound id computation found
    obtain ⟨node, method, nodeFound, listed, chosen, arity⟩ := bound.node
    obtain ⟨new, newFound, same⟩ := exists_of_map_eq (works computation.owner).symm nodeFound
    obtain ⟨methods, listedSame, -⟩ := Component.fields_of_works same
    refine ⟨⟨new, method, newFound, listedSame ▸ listed, ?_, arity⟩, fun socket member => ?_,
      fun socket member => ?_⟩
    · rw [Component.method?, ← methods]
      exact chosen
    · obtain ⟨held, heldFound, owned⟩ := bound.inputs socket member
      exact ⟨held, socket?_withSocket_of_some heldFound owner internal name side, owned⟩
    · obtain ⟨held, heldFound, owned⟩ := bound.outputs socket member
      exact ⟨held, socket?_withSocket_of_some heldFound owner internal name side, owned⟩
  · intro other node found
    obtain ⟨before, beforeFound, same⟩ := exists_of_map_eq (works other) found
    obtain ⟨methods, listed, sources⟩ := Component.fields_of_works same
    have beforeWorks := sound.works other before beforeFound
    exact ⟨fun id member => beforeWorks.listed id (listed ▸ member), listed ▸ beforeWorks.once,
      by rw [sources, listed]; exact beforeWorks.sources, methods ▸ beforeWorks.methods⟩
  · intro id socket node held found
    rcases socket?_withSocket_eq_some.mp held with ⟨rfl, rfl⟩ | known
    · exact (occurrences_eq_nil fun computation _ => (sound.next_not_mem computation).1).symm
    · obtain ⟨before, beforeFound, same⟩ := exists_of_map_eq (works socket.owner) found
      rw [(Component.fields_of_works same).2.1]
      exact sound.readers id socket before known beforeFound
  · intro id socket node held found
    rcases socket?_withSocket_eq_some.mp held with ⟨rfl, rfl⟩ | known
    · exact (occurrences_eq_nil fun computation _ => (sound.next_not_mem computation).2).symm
    · obtain ⟨before, beforeFound, same⟩ := exists_of_map_eq (works socket.owner) found
      rw [(Component.fields_of_works same).2.1]
      exact sound.writers id socket before known beforeFound

/-- The methods before a new one are still found. -/
theorem method?_addMethod {node : Component} {found : Method} {name : String} (method : Method)
    (known : node.method? name = some found) :
    (node.addMethod method).method? name = some found := by
  unfold Component.method? Component.addMethod at *
  rw [List.find?_append, known]
  rfl

theorem method (sound : ComputationsSound graph) {id : ComponentId} {method : Method} {node : Component}
    (found : graph.component? id = some node) (fresh : node.method? method.name = none) :
    ComputationsSound (graph.changeComponent id (Component.addMethod method)) := by
  have after {other : ComponentId} {new : Component}
      (newFound : (graph.changeComponent id (Component.addMethod method)).component? other = some new) :
      (other = id ∧ new = node.addMethod method) ∨ graph.component? other = some new := by
    rw [component?_changeComponent] at newFound
    by_cases same : id = other
    · subst same
      rw [if_pos rfl, found] at newFound
      exact .inl ⟨rfl, (Option.some.inj newFound).symm⟩
    · rw [if_neg same] at newFound
      exact .inr newFound
  have forth {other : ComponentId} {old : Component} (oldFound : graph.component? other = some old) :
      ∃ new, (graph.changeComponent id (Component.addMethod method)).component? other = some new ∧
        new.computations = old.computations ∧
        ∀ name chosen, old.method? name = some chosen → new.method? name = some chosen := by
    rw [component?_changeComponent, oldFound]
    by_cases same : id = other
    · subst same
      obtain rfl := Option.some.inj (found.symm.trans oldFound)
      rw [if_pos rfl]
      exact ⟨_, rfl, rfl, fun _ _ known => method?_addMethod method known⟩
    · rw [if_neg same]
      exact ⟨old, rfl, rfl, fun _ _ known => known⟩
  refine ⟨?_, ?_, ?_, ?_⟩
  · intro task computation taskFound
    have bound := sound.bound task computation taskFound
    obtain ⟨old, chosen, oldFound, listed, known, arity⟩ := bound.node
    obtain ⟨new, newFound, same, keeps⟩ := forth oldFound
    exact ⟨⟨new, chosen, newFound, same ▸ listed, keeps _ _ known, arity⟩, bound.inputs, bound.outputs⟩
  · intro owner new newFound
    rcases after newFound with ⟨rfl, rfl⟩ | known
    · have works := sound.works owner node found
      refine ⟨works.listed, works.once, works.sources, ?_⟩
      have absent : method.name ∉ node.methods.map Method.name := by
        intro member
        obtain ⟨other, otherMember, same⟩ := List.mem_map.mp member
        have none_found := List.find?_eq_none.mp fresh other otherMember
        exact none_found (by simp [same])
      show ((node.methods ++ [method]).map Method.name).Nodup
      rw [List.map_append, List.map_singleton]
      exact List.Nodup.append works.methods (List.nodup_singleton _) (by simpa using absent)
    · have works := sound.works owner new known
      exact ⟨works.listed, works.once, works.sources, works.methods⟩
  · intro task socket new held newFound
    rcases after newFound with ⟨same, rfl⟩ | known
    · exact sound.readers task socket node held (same ▸ found)
    · exact sound.readers task socket new held known
  · intro task socket new held newFound
    rcases after newFound with ⟨same, rfl⟩ | known
    · exact sound.writers task socket node held (same ▸ found)
    · exact sound.writers task socket new held known

/-! ### A new computation -/

theorem inputsOf_withComputation (computation : Computation) (id : ComputationId) :
    (graph.withComputation computation).inputsOf id =
      if id = graph.nextComputation then computation.inputs else graph.inputsOf id := by
  rw [inputsOf, computation?_withComputation]
  split
  · rfl
  · rfl

theorem outputsOf_withComputation (computation : Computation) (id : ComputationId) :
    (graph.withComputation computation).outputsOf id =
      if id = graph.nextComputation then computation.outputs else graph.outputsOf id := by
  rw [outputsOf, computation?_withComputation]
  split
  · rfl
  · rfl

/-- The next computation is not listed yet. -/
theorem listed_ne_next {owner : ComponentId} {node : Component} (works : WorksSound graph owner node)
    {id : ComputationId} (member : id ∈ node.computations) : id ≠ graph.nextComputation := by
  obtain ⟨computation, found, -⟩ := works.listed _ member
  exact ne_nextComputation found

/-- The entries of a socket after a new computation, if `ends` tells the side in question. -/
theorem occurrences_withComputation {before later : ComputationId → List SocketId} {ends : List SocketId}
    {owner : ComponentId} {old new : Component} {id : SocketId} {socket : Socket}
    (works : WorksSound graph socket.owner old) (held : graph.socket? id = some socket)
    (laterOf : ∀ other, later other = if other = graph.nextComputation then ends else before other)
    (endsOwned : ∀ other ∈ ends, ∃ found, graph.socket? other = some found ∧ found.owner = owner)
    (listed : new.computations =
      if owner = socket.owner then old.computations ++ [graph.nextComputation] else old.computations) :
    occurrences later id new.computations =
      occurrences before id old.computations ++ List.replicate (ends.count id) graph.nextComputation := by
  have oldSame : occurrences later id old.computations = occurrences before id old.computations := by
    refine occurrences_congr id fun other member => ?_
    rw [laterOf, if_neg (listed_ne_next works member)]
  by_cases own : owner = socket.owner
  · rw [listed, if_pos own, occurrences_append, oldSame]
    congr 1
    simp [occurrences, laterOf]
  · have absent : id ∉ ends := by
      intro member
      obtain ⟨found, foundHeld, owned⟩ := endsOwned id member
      obtain rfl := Option.some.inj (held.symm.trans foundHeld)
      exact own owned.symm
    rw [listed, if_neg own, oldSame, List.count_eq_zero_of_not_mem absent]
    simp

theorem socket_after {computation : Computation} {owner : ComponentId} {id : SocketId}
    (known : ∃ held, graph.socket? id = some held ∧ held.owner = owner) :
    ∃ held, (graph.withComputation computation).socket? id = some held ∧ held.owner = owner := by
  obtain ⟨held, heldFound, same⟩ := known
  rw [socket?_withComputation, heldFound]
  exact ⟨_, rfl, same⟩

/-- Components keep their methods and computations. -/
theorem component_after (computation : Computation) {owner : ComponentId} {old : Component}
    (oldFound : graph.component? owner = some old) :
    ∃ new, (graph.withComputation computation).component? owner = some new ∧ new.methods = old.methods ∧
      (∀ id ∈ old.computations, id ∈ new.computations) ∧
      (computation.owner = owner → graph.nextComputation ∈ new.computations) := by
  rw [component?_withComputation, oldFound]
  split
  · exact ⟨_, rfl, rfl, fun id member => List.mem_append_left _ member,
      fun _ => List.mem_append_right _ List.mem_cons_self⟩
  next other => exact ⟨old, rfl, rfl, fun _ member => member, fun own => absurd own other⟩

/-- Only the owner lists the new computation. -/
theorem component_before {computation : Computation} {owner : ComponentId} {new : Component}
    (newFound : (graph.withComputation computation).component? owner = some new) :
    ∃ old, graph.component? owner = some old ∧ new.methods = old.methods ∧
      new.computations = (if computation.owner = owner then old.computations ++ [graph.nextComputation]
        else old.computations) ∧
      new.sources = (if computation.owner = owner ∧ computation.inputs.isEmpty = true then
        old.sources ++ [graph.nextComputation] else old.sources) := by
  rw [component?_withComputation] at newFound
  by_cases own : computation.owner = owner
  · rw [if_pos own] at newFound
    obtain ⟨old, oldFound, rfl⟩ := Option.map_eq_some_iff.mp newFound
    refine ⟨old, oldFound, rfl, ?_, ?_⟩
    · rw [if_pos own]
      rfl
    · cases sources : computation.inputs.isEmpty <;> simp [Component.enrol, own]
  · rw [if_neg own] at newFound
    exact ⟨new, newFound, rfl, by rw [if_neg own], by simp [own]⟩

/-- The old computations stay bound. -/
theorem bound_after (computation : Computation) {id : ComputationId} {other : Computation}
    (bound : Bound graph id other) : Bound (graph.withComputation computation) id other := by
  obtain ⟨old, known, oldFound, listed, chosen, arity⟩ := bound.node
  obtain ⟨changed, changedFound, methods, keeps, -⟩ := component_after computation oldFound
  refine ⟨⟨changed, known, changedFound, keeps id listed, ?_, arity⟩,
    fun socket member => socket_after (bound.inputs socket member),
    fun socket member => socket_after (bound.outputs socket member)⟩
  rw [Component.method?, methods]
  exact chosen

theorem works_after {computation : Computation} {owner : ComponentId} {old new : Component}
    (works : WorksSound graph owner old) (methods : new.methods = old.methods)
    (listed : new.computations = if computation.owner = owner then old.computations ++ [graph.nextComputation]
      else old.computations)
    (sources : new.sources = if computation.owner = owner ∧ computation.inputs.isEmpty = true then
      old.sources ++ [graph.nextComputation] else old.sources) :
    WorksSound (graph.withComputation computation) owner new := by
  have stays {id : ComputationId} (member : id ∈ old.computations) :
      ∃ other, (graph.withComputation computation).computation? id = some other ∧ other.owner = owner := by
    rw [computation?_withComputation, if_neg (listed_ne_next works member)]
    exact works.listed id member
  have sameSources : old.sources =
      old.computations.filter fun id => ((graph.withComputation computation).inputsOf id).isEmpty := by
    rw [works.sources]
    refine List.filter_congr fun id member => ?_
    rw [inputsOf_withComputation, if_neg (listed_ne_next works member)]
  have apart : graph.nextComputation ∉ old.computations := fun member => listed_ne_next works member rfl
  by_cases own : computation.owner = owner
  · rw [if_pos own] at listed
    refine ⟨fun id member => ?_, ?_, ?_, methods ▸ works.methods⟩
    · rw [listed, List.mem_append, List.mem_singleton] at member
      rcases member with known | rfl
      · exact stays known
      · exact ⟨computation, by rw [computation?_withComputation, if_pos rfl], own⟩
    · rw [listed]
      exact List.Nodup.append works.once (List.nodup_singleton _) (List.disjoint_singleton.mpr apart)
    · rw [sources, listed, List.filter_append, ← sameSources]
      by_cases source : computation.inputs.isEmpty = true <;> simp [own, source, inputsOf_withComputation]
  · rw [if_neg own] at listed
    rw [if_neg fun both => own both.1] at sources
    exact ⟨fun id member => stays (listed ▸ member), listed ▸ works.once, by rw [sources, listed, sameSources],
      methods ▸ works.methods⟩

/-- A computation that was checked may be added. -/
theorem computation (sound : ComputationsSound graph) (sockets : SocketsSound graph)
    {computation : Computation} {node : Component} {method : Method}
    (found : graph.component? computation.owner = some node)
    (chosen : node.method? computation.method = some method)
    (arity : computation.inputs.length = method.inputs ∧ computation.outputs.length = method.outputs)
    (inputs : ∀ id ∈ computation.inputs, id ∈ node.sockets)
    (outputs : ∀ id ∈ computation.outputs, id ∈ node.sockets) :
    ComputationsSound (graph.withComputation computation) := by
  have owned {ids : List SocketId} (listed : ∀ id ∈ ids, id ∈ node.sockets) :
      ∀ id ∈ ids, ∃ held, graph.socket? id = some held ∧ held.owner = computation.owner :=
    fun id member => (sockets.mem_sockets found).mp (listed id member)
  refine ⟨?_, ?_, ?_, ?_⟩
  · intro id other otherFound
    rcases computation?_withComputation_eq_some.mp otherFound with ⟨new, rfl⟩ | known
    · obtain ⟨changed, changedFound, methods, -, listed⟩ := component_after other found
      refine ⟨⟨changed, method, changedFound, new ▸ listed rfl, ?_, arity⟩,
        fun socket member => socket_after (owned inputs socket member),
        fun socket member => socket_after (owned outputs socket member)⟩
      rw [Component.method?, methods]
      exact chosen
    · exact bound_after computation (sound.bound id other known)
  · intro owner new newFound
    obtain ⟨old, oldFound, methods, listed, sources⟩ := component_before newFound
    exact works_after (sound.works owner old oldFound) methods listed sources
  · intro id socket new held newFound
    rw [socket?_withComputation] at held
    obtain ⟨oldSocket, oldHeld, rfl⟩ := Option.map_eq_some_iff.mp held
    obtain ⟨old, oldFound, -, listed, -⟩ := component_before newFound
    have works : WorksSound graph oldSocket.owner old := sound.works _ old oldFound
    rw [occurrences_withComputation works oldHeld (inputsOf_withComputation computation) (owned inputs) listed,
      ← sound.readers id oldSocket old oldHeld oldFound]
    simp [Socket.tasks, computationEntries_append, computationEntries_replicate]
  · intro id socket new held newFound
    rw [socket?_withComputation] at held
    obtain ⟨oldSocket, oldHeld, rfl⟩ := Option.map_eq_some_iff.mp held
    obtain ⟨old, oldFound, -, listed, -⟩ := component_before newFound
    have works : WorksSound graph oldSocket.owner old := sound.works _ old oldFound
    rw [occurrences_withComputation works oldHeld (outputsOf_withComputation computation) (owned outputs) listed,
      ← sound.writers id oldSocket old oldHeld oldFound]
    simp [Socket.tasks, computationEntries_append, computationEntries_replicate]

/-! ### Changes -/

/-- Entries for sockets and spaces do not concern computations. -/
theorem tasks_setList {entry : LinkEntry} {socket : Socket} {connections : List Connection}
    (same : computationEntries connections = computationEntries (entry.listOf socket)) :
    (entry.setList connections socket).tasks = socket.tasks := by
  unfold LinkEntry.listOf at same
  unfold LinkEntry.setList Socket.tasks
  cases incoming : entry.incoming <;> simp_all

theorem tasks_withEntry {entry : LinkEntry} (other : entry.connection.asComputation? = none) (graph : Graph)
    (id : SocketId) : ((graph.withEntry entry).socket? id).map Socket.tasks = (graph.socket? id).map Socket.tasks := by
  rw [socket?_withEntry]
  refine map_changed (fun socket => tasks_setList ?_) _ _
  rw [computationEntries_append]
  simp [computationEntries, other]

theorem tasks_withoutEntry {entry : LinkEntry} (other : entry.connection.asComputation? = none) (graph : Graph)
    (id : SocketId) :
    ((graph.withoutEntry entry).socket? id).map Socket.tasks = (graph.socket? id).map Socket.tasks := by
  rw [socket?_withoutEntry]
  exact map_changed (fun socket => tasks_setList (computationEntries_eraseFirst other _)) _ _

/-- Every change preserves the agreement of computations, owners and sockets. -/
theorem change {later : Graph} (change : Change graph later) (sockets : SocketsSound graph)
    (sound : ComputationsSound graph) : ComputationsSound later := by
  cases change with
  | create config => exact sound.create sockets config
  | socket owner internal name side => exact sound.socket owner internal name side
  | link source target =>
      exact sound.frame (fun _ => rfl) (fun id => (tasks_withEntry rfl _ id).trans (tasks_withEntry rfl graph id))
        fun _ => rfl
  | unlink source target =>
      exact sound.frame (fun _ => rfl)
        (fun id => (tasks_withoutEntry rfl _ id).trans (tasks_withoutEntry rfl graph id)) fun _ => rfl
  | bind id incoming space => exact sound.frame (fun _ => rfl) (tasks_withEntry rfl graph) fun _ => rfl
  | unbind id incoming space => exact sound.frame (fun _ => rfl) (tasks_withoutEntry rfl graph) fun _ => rfl
  | method id method node found fresh => exact sound.method found fresh
  | computation computation node method found chosen arity inputs outputs =>
      exact sound.computation sockets found chosen arity inputs outputs
  | child parent child parentNode childNode =>
      exact sound.frame (componentView_withChild graph (fun _ _ _ _ => rfl) parent child childNode.name)
        (fun _ => rfl) fun _ => rfl
  | hook id hook =>
      exact sound.frame (componentView_changeComponent graph id (Component.withHook hook) fun _ => rfl)
        (fun _ => rfl) fun _ => rfl
  | state final same =>
      exact sound.frame (componentView_of_wiring (fun _ => rfl) same) (view_of_wiring (fun _ => rfl) same)
        (computation?_of_wiring same)

end ComputationsSound

end Graph

end Wiring
