import Wiring.Proofs.Blueprint.Feasible
import Wiring.Proofs.Graph.Atomic

/-!
Contract: a component has at most one socket of a name, and every way to look for it finds that one.

Owns: how often a socket occurs on each list of each component; what a search for a name over some sockets of
one component answers, whichever order they are in; what each side admits; and that asking for an internal
socket makes none where the name is taken.
-/

namespace Wiring.Graph

variable {graph : Graph} {owner : ComponentId} {node : Component}

/-- The sockets that a search for a side may find: those of the side and the internal ones. -/
def Admits (graph : Graph) : Option Side → SocketId → Prop
  | none, _ => True
  | some side, id => ∃ socket, graph.socket? id = some socket ∧ (socket.internal = true ∨ socket.side = side)

/-! ### Occurrences -/

/-- A socket occurs once on the list of its kind of its owner, and on no other list of that kind. -/
theorem count_of_exactly {ids : List SocketId} {kind : Socket → Bool} (exactly : graph.Exactly owner ids kind)
    (once : ids.Nodup) {id : SocketId} {socket : Socket} (held : graph.socket? id = some socket) :
    ids.count id = if socket.owner = owner ∧ kind socket = true then 1 else 0 := by
  by_cases isKind : socket.owner = owner ∧ kind socket = true
  · rw [if_pos isKind]
    exact List.count_eq_one_of_mem once ((exactly id).mpr ⟨socket, held, isKind⟩)
  · rw [if_neg isKind]
    refine List.count_eq_zero_of_not_mem fun member => isKind ?_
    obtain ⟨other, otherHeld, otherKind⟩ := (exactly id).mp member
    obtain rfl := Option.some.inj (held.symm.trans otherHeld)
    exact otherKind

/-- How often the three lists of a component hold a socket. -/
theorem PortsSound.counts (sound : PortsSound graph owner node) {id : SocketId} {socket : Socket}
    (held : graph.socket? id = some socket) :
    node.inputs.count id = (if socket.owner = owner ∧ socket.isInterfaceInput = true then 1 else 0) ∧
    node.outputs.count id = (if socket.owner = owner ∧ socket.isInterfaceOutput = true then 1 else 0) ∧
    node.internals.count id = (if socket.owner = owner ∧ socket.internal = true then 1 else 0) := by
  obtain ⟨interface, internalsOnce, -⟩ := List.nodup_append.mp sound.once
  obtain ⟨inputsOnce, outputsOnce, -⟩ := List.nodup_append.mp interface
  exact ⟨count_of_exactly sound.inputs inputsOnce held, count_of_exactly sound.outputs outputsOnce held,
    count_of_exactly sound.internals internalsOnce held⟩

/-! ### Names -/

namespace SocketsSound

variable (sound : SocketsSound graph)
include sound

theorem names_unique {name : String} {first second : SocketId} (left : graph.Names owner name first)
    (right : graph.Names owner name second) : first = second := by
  obtain ⟨one, oneHeld, oneOwned, oneNamed⟩ := left
  obtain ⟨other, otherHeld, otherOwned, otherNamed⟩ := right
  exact sound.named first second one other oneHeld otherHeld (oneOwned.trans otherOwned.symm)
    (oneNamed.trans otherNamed.symm)

theorem names_mem {name : String} {id : SocketId} (found : graph.component? owner = some node)
    (named : graph.Names owner name id) : id ∈ node.sockets := by
  obtain ⟨socket, held, owned, -⟩ := named
  exact (sound.mem_sockets found).mpr ⟨socket, held, owned⟩

theorem socketNames_nodup (found : graph.component? owner = some node) :
    ∃ names, graph.socketNames node.sockets = .ok names ∧ names.Nodup := by
  obtain ⟨names, answered, -⟩ := sound.socketNames_answers found
  refine ⟨names, answered, nodup_of_forall₂ (mapM_eq_ok.mp answered) (sound.ports owner node found).once ?_⟩
  intro left leftListed right rightListed name leftNamed rightNamed
  have named {id : SocketId} (listed : id ∈ node.sockets) (read : Socket.name <$> graph.heldSocket id = .ok name) :
      graph.Names owner name id := by
    obtain ⟨socket, held, owned⟩ := (sound.mem_sockets found).mp listed
    obtain ⟨other, otherHeld, otherNamed⟩ := except_map_eq_ok.mp read
    obtain rfl := Option.some.inj (held.symm.trans (heldSocket_eq_ok.mp otherHeld))
    exact ⟨socket, held, owned, otherNamed⟩
  exact sound.names_unique (named leftListed leftNamed) (named rightListed rightNamed)

/-! ### Searches -/

/-- A search over some sockets of a component finds the one that has the name, if it is among them. -/
theorem findNamed_eq_some (found : graph.component? owner = some node) {ids : List SocketId}
    (within : ∀ id ∈ ids, id ∈ node.sockets) (name : String) (id : SocketId) :
    graph.findNamed name ids = .ok (some id) ↔ id ∈ ids ∧ graph.Names owner name id := by
  constructor
  · intro searched
    obtain ⟨member, socket, held, named⟩ := findNamed_ok searched rfl
    obtain ⟨other, otherHeld, owned⟩ := (sound.mem_sockets found).mp (within id member)
    obtain rfl := Option.some.inj (held.symm.trans otherHeld)
    exact ⟨member, socket, held, owned, named⟩
  · rintro ⟨member, socket, held, owned, named⟩
    obtain ⟨answer, searched, absent⟩ := findNamed_answers name fun other listed =>
      sound.held_of_mem found (within other listed)
    cases answer with
    | none => exact absurd named (absent rfl id member socket held)
    | some first =>
        obtain ⟨firstMember, firstSocket, firstHeld, firstNamed⟩ := findNamed_ok searched rfl
        obtain ⟨other, otherHeld, firstOwned⟩ := (sound.mem_sockets found).mp (within first firstMember)
        obtain rfl := Option.some.inj (firstHeld.symm.trans otherHeld)
        obtain rfl := sound.names_unique ⟨firstSocket, firstHeld, firstOwned, firstNamed⟩
          ⟨socket, held, owned, named⟩
        exact searched

/-- Searches over the same sockets of a component answer the same, whatever their order. -/
theorem findNamed_congr (found : graph.component? owner = some node) {ids others : List SocketId}
    (within : ∀ id ∈ ids, id ∈ node.sockets) (same : ∀ id, id ∈ ids ↔ id ∈ others) (name : String) :
    graph.findNamed name ids = graph.findNamed name others := by
  have withinToo : ∀ id ∈ others, id ∈ node.sockets := fun id member => within id ((same id).mpr member)
  obtain ⟨answer, searched, -⟩ := findNamed_answers name fun id member =>
    sound.held_of_mem found (within id member)
  obtain ⟨other, searchedToo, -⟩ := findNamed_answers name fun id member =>
    sound.held_of_mem found (withinToo id member)
  have agree : answer = other := by
    refine Option.ext fun id => ?_
    have one := sound.findNamed_eq_some found within name id
    have two := sound.findNamed_eq_some found withinToo name id
    rw [searched, Except.ok.injEq] at one
    rw [searchedToo, Except.ok.injEq, ← same id] at two
    exact one.trans two.symm
  rw [searched, searchedToo, agree]

/-- The two lists that a side is looked for in hold the sockets of the side and the internal ones. -/
theorem mem_searched_side (found : graph.component? owner = some node) {id : SocketId} {socket : Socket}
    (held : graph.socket? id = some socket) (owned : socket.owner = owner) (side : Side) :
    id ∈ searched node (some side) ↔ socket.internal = true ∨ socket.side = side := by
  have ports := sound.ports owner node found
  have listed {kind : Socket → Bool} {ids : List SocketId} (exactly : graph.Exactly owner ids kind) :
      id ∈ ids ↔ kind socket = true := by
    rw [exactly id]
    constructor
    · rintro ⟨other, otherHeld, -, isKind⟩
      exact Option.some.inj (held.symm.trans otherHeld) ▸ isKind
    · exact fun isKind => ⟨socket, held, owned, isKind⟩
  cases side with
  | input =>
      rw [searched, List.mem_append, listed ports.inputs, listed ports.internals]
      cases internal : socket.internal <;> simp [Socket.isInterfaceInput, internal]
  | output =>
      rw [searched, List.mem_append, listed ports.outputs, listed ports.internals]
      cases internal : socket.internal <;> simp [Socket.isInterfaceOutput, internal]

/-- The lists that are searched hold the sockets of the component that the requested side admits. -/
theorem mem_searched_iff (found : graph.component? owner = some node) (side : Option Side) {id : SocketId} :
    id ∈ searched node side ↔ id ∈ node.sockets ∧ graph.Admits side id := by
  cases side with
  | none =>
      simp only [searched, Component.sockets, Admits, List.mem_append]
      tauto
  | some side =>
      constructor
      · intro member
        obtain ⟨socket, held, owned⟩ := (sound.mem_sockets found).mp (mem_searched member)
        exact ⟨mem_searched member, socket, held, (sound.mem_searched_side found held owned side).mp member⟩
      · rintro ⟨listed, socket, held, admitted⟩
        obtain ⟨other, otherHeld, owned⟩ := (sound.mem_sockets found).mp listed
        obtain rfl := Option.some.inj (held.symm.trans otherHeld)
        exact (sound.mem_searched_side found held owned side).mpr admitted

/-- Looking for a name on a side finds the socket that has the name if the side admits it, and nothing
otherwise. -/
theorem socketNamed_eq (found : graph.component? owner = some node) (name : String) (side : Option Side) :
    ∃ answer, graph.socketNamed? owner name side = .ok answer ∧
      ∀ id, answer = some id ↔ graph.Names owner name id ∧ graph.Admits side id := by
  have within : ∀ id ∈ searched node side, id ∈ node.sockets := fun id member => mem_searched member
  obtain ⟨answer, searchedIn, -⟩ := findNamed_answers name fun id member =>
    sound.held_of_mem found (within id member)
  refine ⟨answer, except_bind_eq_ok.mpr ⟨node, component_eq_ok.mpr found, searchedIn⟩, fun id => ?_⟩
  have exact_ := sound.findNamed_eq_some found within name id
  rw [searchedIn, Except.ok.injEq, sound.mem_searched_iff found side] at exact_
  rw [exact_]
  exact ⟨fun ⟨⟨_, admitted⟩, named⟩ => ⟨named, admitted⟩,
    fun ⟨named, admitted⟩ => ⟨⟨sound.names_mem found named, admitted⟩, named⟩⟩

/-- Asking for an internal socket answers the socket that has the name; only where there is none, one is made. -/
theorem run_ensureInternal (found : graph.component? owner = some node) (name : String) :
    (∀ id, graph.Names owner name id → (ensureInternal owner name).run graph = (.ok id, graph)) ∧
    ((∀ id, ¬ graph.Names owner name id) →
      (ensureInternal owner name).run graph = (.ok graph.nextSocket, graph.withSocket owner true name .input)) := by
  obtain ⟨answer, asked, exactly⟩ := sound.socketNamed_eq found name none
  unfold ensureInternal
  rw [run_query_bind asked]
  constructor
  · intro id named
    rw [(exactly id).mpr ⟨named, trivial⟩]
    rfl
  · intro absent
    obtain rfl : answer = none := Option.eq_none_iff_forall_ne_some.mpr fun id answered =>
      absent id ((exactly id).mp answered).1
    refine run_bind_ok (sound.run_addSockets_absent found (fun id listed socket held named => ?_) .input true) _
    obtain ⟨other, otherHeld, owned⟩ := (sound.mem_sockets found).mp listed
    obtain rfl := Option.some.inj (held.symm.trans otherHeld)
    exact absent id ⟨socket, held, owned, named⟩

end SocketsSound

/-- In a reachable graph a socket occurs once, on the list of its kind of its owner, and all that is listed is a
socket; the names on the lists of a component differ. So a name is found in any order of the sockets, on a side
exactly if the side admits its socket, and an internal socket is made only for a name that is free. -/
theorem Reachable.sockets_by_name {graph : Graph} (reachable : graph.Reachable) :
    (∀ id socket, graph.socket? id = some socket → ∃ node, graph.component? socket.owner = some node) ∧
    ∀ owner node, graph.component? owner = some node →
      (∀ id socket, graph.socket? id = some socket →
        node.inputs.count id = (if socket.owner = owner ∧ socket.isInterfaceInput = true then 1 else 0) ∧
        node.outputs.count id = (if socket.owner = owner ∧ socket.isInterfaceOutput = true then 1 else 0) ∧
        node.internals.count id = (if socket.owner = owner ∧ socket.internal = true then 1 else 0)) ∧
      (∀ id ∈ node.sockets, ∃ socket, graph.socket? id = some socket) ∧
      (∃ names, graph.socketNames node.sockets = .ok names ∧ names.Nodup) ∧
      ∀ name,
        (∀ order, order.Perm node.sockets →
          graph.findNamed name order = graph.socketNamed? owner name none) ∧
        (∀ side, ∃ answer, graph.socketNamed? owner name side = .ok answer ∧
          ∀ id, answer = some id ↔ graph.Names owner name id ∧ graph.Admits side id) ∧
        (∀ id, graph.Names owner name id → (ensureInternal owner name).run graph = (.ok id, graph)) ∧
        ((∀ id, ¬ graph.Names owner name id) → (ensureInternal owner name).run graph =
          (.ok graph.nextSocket, graph.withSocket owner true name .input)) := by
  have sound := reachable.sound.sockets
  refine ⟨sound.owner, fun owner node found => ⟨fun id socket held => ?_, ?_, ?_, fun name => ⟨?_, ?_, ?_⟩⟩⟩
  · exact (sound.ports owner node found).counts held
  · exact fun id listed => sound.held_of_mem found listed
  · exact sound.socketNames_nodup found
  · intro order reordered
    have unfolded : graph.socketNamed? owner name none = graph.findNamed name (searched node none) := by
      unfold socketNamed?
      rw [component_eq_ok.mpr found]
      rfl
    rw [unfolded]
    refine sound.findNamed_congr found (fun id member => reordered.subset member) (fun id => ?_) name
    rw [reordered.mem_iff, sound.mem_searched_iff found none, and_iff_left (show graph.Admits none id from trivial)]
  · exact sound.socketNamed_eq found name
  · exact sound.run_ensureInternal found name

/-- The out-socket of the source is found from behind, and asking for an internal socket of its name answers it. -/
theorem sockets_by_name_doubled :
    (after doubled {}).findNamed "out" [⟨1⟩, ⟨0⟩] = (after doubled {}).socketNamed? ⟨0⟩ "out" none ∧
    (ensureInternal ⟨0⟩ "out").run (after doubled {}) = (.ok ⟨1⟩, after doubled {}) := by
  obtain ⟨-, listed⟩ := Reachable.sockets_by_name reachable_doubled
  obtain ⟨-, -, -, named⟩ := listed ⟨0⟩ _ rfl
  obtain ⟨reordered, -, known, -⟩ := named "out"
  exact ⟨reordered [⟨1⟩, ⟨0⟩] (List.Perm.swap _ _ []), known ⟨1⟩ ⟨_, rfl, rfl, rfl⟩⟩

end Wiring.Graph
