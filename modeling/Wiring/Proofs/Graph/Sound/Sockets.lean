import Wiring.Proofs.Graph.Change

/-!
Contract: sockets and the lists of their components agree.

Owns: `SocketsSound`, by which a component lists exactly its own sockets, each once and in the list of its
kind, under names that differ from each other; the part of a graph that this depends on; and that every change
preserves it.
-/

namespace Wiring

/-- What the lists of a component depend on. -/
def Socket.face (socket : Socket) : Socket :=
  { socket with incoming := [], outgoing := [], space := none }

theorem Socket.owner_of_face {left right : Socket} (same : left.face = right.face) :
    left.owner = right.owner := by
  show left.face.owner = right.face.owner
  rw [same]

theorem Socket.name_of_face {left right : Socket} (same : left.face = right.face) :
    left.name = right.name := by
  show left.face.name = right.face.name
  rw [same]

theorem Socket.side_of_face {left right : Socket} (same : left.face = right.face) :
    left.side = right.side := by
  show left.face.side = right.face.side
  rw [same]

def Socket.isInterfaceOutput (socket : Socket) : Bool :=
  socket.side = .output && !socket.internal

/-- The three lists of sockets. -/
def Component.ports (node : Component) : Component :=
  { scope := "", name := "", inputs := node.inputs, outputs := node.outputs, internals := node.internals }

theorem Component.lists_of_ports {left right : Component} (same : left.ports = right.ports) :
    left.inputs = right.inputs ∧ left.outputs = right.outputs ∧ left.internals = right.internals := by
  show left.ports.inputs = right.ports.inputs ∧ left.ports.outputs = right.ports.outputs ∧
    left.ports.internals = right.ports.internals
  rw [same]
  exact ⟨rfl, rfl, rfl⟩

theorem Component.sockets_of_ports {left right : Component} (same : left.ports = right.ports) :
    left.sockets = right.sockets := by
  obtain ⟨inputs, outputs, internals⟩ := lists_of_ports same
  unfold sockets
  rw [inputs, outputs, internals]

namespace Graph

/-- The list holds the sockets of one kind that a component owns, and nothing else. -/
def Exactly (graph : Graph) (owner : ComponentId) (ids : List SocketId) (kind : Socket → Bool) : Prop :=
  ∀ id, id ∈ ids ↔ ∃ socket, graph.socket? id = some socket ∧ socket.owner = owner ∧ kind socket = true

/-- The lists of one component. -/
structure PortsSound (graph : Graph) (owner : ComponentId) (node : Component) : Prop where
  inputs : graph.Exactly owner node.inputs Socket.isInterfaceInput
  outputs : graph.Exactly owner node.outputs Socket.isInterfaceOutput
  internals : graph.Exactly owner node.internals Socket.internal
  /-- No socket is listed twice. -/
  once : node.sockets.Nodup

structure SocketsSound (graph : Graph) : Prop where
  /-- The owner of a socket exists. -/
  owner : ∀ id socket, graph.socket? id = some socket → ∃ node, graph.component? socket.owner = some node
  ports : ∀ owner node, graph.component? owner = some node → PortsSound graph owner node
  /-- The sockets of a component have different names. -/
  named : ∀ first second (left right : Socket), graph.socket? first = some left →
    graph.socket? second = some right → left.owner = right.owner → left.name = right.name → first = second

/-- The lists of a component together hold all of its sockets. -/
theorem PortsSound.mem_sockets {graph : Graph} {owner : ComponentId} {node : Component}
    (sound : PortsSound graph owner node) {id : SocketId} :
    id ∈ node.sockets ↔ ∃ socket, graph.socket? id = some socket ∧ socket.owner = owner := by
  unfold Component.sockets
  rw [List.mem_append, List.mem_append, sound.inputs id, sound.outputs id, sound.internals id]
  constructor
  · rintro ((⟨socket, held, owned, -⟩ | ⟨socket, held, owned, -⟩) | ⟨socket, held, owned, -⟩)
    · exact ⟨socket, held, owned⟩
    · exact ⟨socket, held, owned⟩
    · exact ⟨socket, held, owned⟩
  · rintro ⟨socket, held, owned⟩
    cases internal : socket.internal with
    | true => exact .inr ⟨socket, held, owned, internal⟩
    | false =>
        cases side : socket.side with
        | input => exact .inl (.inl ⟨socket, held, owned, by simp [Socket.isInterfaceInput, side, internal]⟩)
        | output => exact .inl (.inr ⟨socket, held, owned, by simp [Socket.isInterfaceOutput, side, internal]⟩)

namespace SocketsSound

variable {graph : Graph}

theorem mem_sockets (sound : SocketsSound graph) {owner : ComponentId} {node : Component}
    (found : graph.component? owner = some node) {id : SocketId} :
    id ∈ node.sockets ↔ ∃ socket, graph.socket? id = some socket ∧ socket.owner = owner :=
  (sound.ports owner node found).mem_sockets

theorem empty (backend : Backend) : SocketsSound { backend } where
  owner := by simp [socket?]
  ports := by simp [component?]
  named := by simp [socket?]

/-- Only the lists of components and the faces of sockets matter. -/
theorem frame {later : Graph} (sound : SocketsSound graph)
    (ports : ∀ id, (later.component? id).map Component.ports = (graph.component? id).map Component.ports)
    (faces : ∀ id, (later.socket? id).map Socket.face = (graph.socket? id).map Socket.face) :
    SocketsSound later := by
  have transfer {owner : ComponentId} {ids : List SocketId} {kind : Socket → Bool}
      (onFace : ∀ socket, kind socket.face = kind socket) (exactly : graph.Exactly owner ids kind) :
      later.Exactly owner ids kind := by
    intro id
    rw [exactly id]
    constructor
    · rintro ⟨socket, held, owned, isKind⟩
      obtain ⟨new, newHeld, same⟩ := exists_of_map_eq (faces id).symm held
      refine ⟨new, newHeld, ?_, ?_⟩
      · exact (Socket.owner_of_face same).symm.trans owned
      · rw [← onFace, ← same, onFace, isKind]
    · rintro ⟨socket, held, owned, isKind⟩
      obtain ⟨old, oldHeld, same⟩ := exists_of_map_eq (faces id) held
      refine ⟨old, oldHeld, ?_, ?_⟩
      · exact (Socket.owner_of_face same).symm.trans owned
      · rw [← onFace, ← same, onFace, isKind]
  refine ⟨?_, ?_, ?_⟩
  · intro id socket held
    obtain ⟨old, oldHeld, same⟩ := exists_of_map_eq (faces id) held
    obtain ⟨node, found⟩ := sound.owner id old oldHeld
    obtain ⟨new, newFound, -⟩ := exists_of_map_eq (ports old.owner).symm found
    exact ⟨new, Socket.owner_of_face same ▸ newFound⟩
  · intro owner node found
    obtain ⟨old, oldFound, same⟩ := exists_of_map_eq (ports owner) found
    have oldPorts := sound.ports owner old oldFound
    obtain ⟨inputs, outputs, internals⟩ := Component.lists_of_ports same
    refine ⟨?_, ?_, ?_, ?_⟩
    · rw [inputs]
      exact transfer (fun _ => rfl) oldPorts.inputs
    · rw [outputs]
      exact transfer (fun _ => rfl) oldPorts.outputs
    · rw [internals]
      exact transfer (fun _ => rfl) oldPorts.internals
    · rw [Component.sockets_of_ports same]
      exact oldPorts.once
  · intro first second left right leftHeld rightHeld sameOwner sameName
    obtain ⟨oldLeft, oldLeftHeld, leftSame⟩ := exists_of_map_eq (faces first) leftHeld
    obtain ⟨oldRight, oldRightHeld, rightSame⟩ := exists_of_map_eq (faces second) rightHeld
    refine sound.named first second oldLeft oldRight oldLeftHeld oldRightHeld ?_ ?_
    · rw [← Socket.owner_of_face leftSame, sameOwner, Socket.owner_of_face rightSame]
    · rw [← Socket.name_of_face leftSame, sameName, Socket.name_of_face rightSame]

/-- No socket belongs to the next component yet. -/
theorem owner_ne_next (sound : SocketsSound graph) {id : SocketId} {socket : Socket}
    (held : graph.socket? id = some socket) : socket.owner ≠ graph.nextComponent := by
  intro same
  obtain ⟨node, found⟩ := sound.owner id socket held
  exact ne_nextComponent found same

theorem create (sound : SocketsSound graph) (config : ComponentConfig) :
    SocketsSound (graph.pushComponent (.ofConfig config)) := by
  have nothing (kind : Socket → Bool) : graph.Exactly graph.nextComponent [] kind := by
    intro id
    refine iff_of_false List.not_mem_nil ?_
    rintro ⟨socket, held, owned, -⟩
    exact sound.owner_ne_next held owned
  refine ⟨?_, ?_, sound.named⟩
  · intro id socket held
    obtain ⟨node, found⟩ := sound.owner id socket held
    exact ⟨node, component?_pushComponent_eq_some.mpr (.inr found)⟩
  · intro owner node found
    rcases component?_pushComponent_eq_some.mp found with ⟨rfl, rfl⟩ | known
    · exact ⟨nothing _, nothing _, nothing _, List.nodup_nil⟩
    · have old := sound.ports owner node known
      exact ⟨old.inputs, old.outputs, old.internals, old.once⟩

/-- A list that the new socket is not put on. -/
theorem exactly_withSocket_other {owner other : ComponentId} {internal : Bool} {name : String} {side : Side}
    {ids : List SocketId} {kind : Socket → Bool} (exactly : graph.Exactly other ids kind)
    (otherwise : owner ≠ other ∨ kind { name, side, internal, owner } = false) :
    (graph.withSocket owner internal name side).Exactly other ids kind := by
  intro id
  rw [exactly id, socket?_withSocket]
  by_cases new : id = graph.nextSocket
  · rw [if_pos new, new, socket?_nextSocket]
    refine iff_of_false (by simp) ?_
    rintro ⟨socket, held, owned, isKind⟩
    rw [← Option.some.inj held] at owned isKind
    rcases otherwise with apart | notKind
    · exact apart owned
    · exact Bool.false_ne_true (notKind.symm.trans isKind)
  · rw [if_neg new]

/-- The list that the new socket is put on. -/
theorem exactly_withSocket_own {owner : ComponentId} {internal : Bool} {name : String} {side : Side}
    {ids : List SocketId} {kind : Socket → Bool} (exactly : graph.Exactly owner ids kind)
    (isKind : kind { name, side, internal, owner } = true) :
    (graph.withSocket owner internal name side).Exactly owner (ids ++ [graph.nextSocket]) kind := by
  intro id
  rw [List.mem_append, List.mem_singleton, exactly id, socket?_withSocket]
  by_cases new : id = graph.nextSocket
  · rw [if_pos new]
    exact iff_of_true (.inr new) ⟨_, rfl, rfl, isKind⟩
  · rw [if_neg new, or_iff_left new]

theorem ports_withSocket {owner : ComponentId} {node : Component} (sound : PortsSound graph owner node)
    (internal : Bool) (name : String) (side : Side) :
    PortsSound (graph.withSocket owner internal name side) owner
      (node.enlist internal side graph.nextSocket) := by
  have unlisted : graph.nextSocket ∉ node.sockets := by
    intro member
    obtain ⟨socket, held, -⟩ := sound.mem_sockets.mp member
    exact ne_nextSocket held rfl
  have once : (graph.nextSocket :: node.sockets).Nodup := List.nodup_cons.mpr ⟨unlisted, sound.once⟩
  cases internal with
  | true =>
      refine ⟨?_, ?_, ?_, ?_⟩
      · exact exactly_withSocket_other sound.inputs (.inr (by simp [Socket.isInterfaceInput]))
      · exact exactly_withSocket_other sound.outputs (.inr (by simp [Socket.isInterfaceOutput]))
      · exact exactly_withSocket_own sound.internals rfl
      · refine (List.Perm.nodup_iff ?_).mp once
        simp only [Component.sockets, Component.enlist, if_true, ← List.append_assoc]
        exact (List.perm_append_singleton _ _).symm
  | false =>
      cases side with
      | input =>
          refine ⟨?_, ?_, ?_, ?_⟩
          · exact exactly_withSocket_own sound.inputs rfl
          · exact exactly_withSocket_other sound.outputs (.inr (by simp [Socket.isInterfaceOutput]))
          · exact exactly_withSocket_other sound.internals (.inr rfl)
          · refine (List.Perm.nodup_iff ?_).mp once
            simp only [Component.sockets, Component.enlist, Bool.false_eq_true, if_false, List.append_assoc,
              List.singleton_append]
            exact List.perm_middle.symm
      | output =>
          refine ⟨?_, ?_, ?_, ?_⟩
          · exact exactly_withSocket_other sound.inputs (.inr (by simp [Socket.isInterfaceInput]))
          · exact exactly_withSocket_own sound.outputs rfl
          · exact exactly_withSocket_other sound.internals (.inr rfl)
          · refine (List.Perm.nodup_iff ?_).mp once
            simp only [Component.sockets, Component.enlist, Bool.false_eq_true, if_false]
            rw [← List.append_assoc node.inputs, List.append_assoc _ [graph.nextSocket], List.singleton_append]
            exact List.perm_middle.symm

theorem socket (sound : SocketsSound graph) {owner : ComponentId} {node : Component} {internal : Bool}
    {name : String} {side : Side} (found : graph.component? owner = some node)
    (fresh : ∀ id ∈ node.sockets, ∀ socket, graph.socket? id = some socket → socket.name ≠ name) :
    SocketsSound (graph.withSocket owner internal name side) := by
  -- an old socket of the owner has another name than the new one
  have apart {id : SocketId} {socket : Socket} (held : graph.socket? id = some socket)
      (owned : socket.owner = owner) : socket.name ≠ name :=
    fresh id ((sound.mem_sockets found).mpr ⟨socket, held, owned⟩) socket held
  have exists_after {other : ComponentId} {node : Component} (found : graph.component? other = some node) :
      ∃ node, (graph.withSocket owner internal name side).component? other = some node := by
    rw [component?_withSocket, found]
    split
    · exact ⟨_, rfl⟩
    · exact ⟨node, rfl⟩
  refine ⟨?_, ?_, ?_⟩
  · intro id socket held
    rcases socket?_withSocket_eq_some.mp held with ⟨-, rfl⟩ | known
    · exact exists_after found
    · obtain ⟨node, found⟩ := sound.owner id socket known
      exact exists_after found
  · intro other after foundAfter
    rw [component?_withSocket] at foundAfter
    by_cases own : owner = other
    · subst own
      rw [if_pos rfl, found] at foundAfter
      rw [← Option.some.inj foundAfter]
      exact ports_withSocket (sound.ports owner node found) internal name side
    · rw [if_neg own] at foundAfter
      have old := sound.ports other after foundAfter
      exact ⟨exactly_withSocket_other old.inputs (.inl own), exactly_withSocket_other old.outputs (.inl own),
        exactly_withSocket_other old.internals (.inl own), old.once⟩
  · intro first second left right leftHeld rightHeld sameOwner sameName
    rcases socket?_withSocket_eq_some.mp leftHeld with ⟨firstNew, rfl⟩ | leftKnown <;>
      rcases socket?_withSocket_eq_some.mp rightHeld with ⟨secondNew, rfl⟩ | rightKnown
    · rw [firstNew, secondNew]
    · exact absurd sameName.symm (apart rightKnown sameOwner.symm)
    · exact absurd sameName (apart leftKnown sameOwner)
    · exact sound.named first second left right leftKnown rightKnown sameOwner sameName

theorem of_wiring {later : Graph} (sound : SocketsSound graph) (same : later.wiring = graph.wiring) :
    SocketsSound later :=
  sound.frame (componentView_of_wiring (fun _ => rfl) same) (view_of_wiring (fun _ => rfl) same)

/-- Every change preserves the agreement of sockets and lists. -/
theorem change {later : Graph} (change : Change graph later) (sound : SocketsSound graph) :
    SocketsSound later := by
  cases change with
  | create config scope => exact sound.create config
  | socket owner internal name side node found fresh => exact sound.socket found fresh
  | link source target => exact sound.frame (fun _ => rfl) (view_withLink graph (fun _ _ _ => rfl) source target)
  | unlink source target =>
      exact sound.frame (fun _ => rfl) (view_withoutLink graph (fun _ _ _ => rfl) source target)
  | bind id incoming space => exact sound.frame (fun _ => rfl) (view_withEntry graph (fun _ _ _ => rfl) _)
  | unbind id incoming space => exact sound.frame (fun _ => rfl) (view_withoutEntry graph (fun _ _ _ => rfl) _)
  | method id method =>
      exact sound.frame (componentView_changeComponent graph id (Component.addMethod method) fun _ => rfl)
        fun _ => rfl
  | computation computation =>
      exact sound.frame (componentView_withComputation graph (fun _ _ _ => rfl) computation)
        (view_withComputation graph (fun _ _ _ => rfl) computation)
  | child parent child parentNode childNode =>
      exact sound.frame (componentView_withChild graph (fun _ _ _ _ => rfl) parent child childNode.name)
        fun _ => rfl
  | hook id hook =>
      exact sound.frame (componentView_changeComponent graph id (Component.withHook hook) fun _ => rfl) fun _ => rfl
  | state final same => exact sound.of_wiring same

end SocketsSound

end Graph

end Wiring
