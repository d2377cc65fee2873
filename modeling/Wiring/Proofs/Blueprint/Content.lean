import Wiring.Proofs.Blueprint.Places

/-!
Contract: what a blueprint holds.

Owns: `linksAt` and `bindingsAt`, what one socket contributes to a blueprint; and `blueprint_ok`, by which a
blueprint of a sound graph succeeds and holds the plan of its root and the contributions of all sockets of the
subtree in order.
-/

namespace Wiring.Graph

variable {graph : Graph}

/-- The sockets of several components. -/
def portsOf (graph : Graph) (members : List ComponentId) : List SocketId :=
  members.flatMap fun member => ((graph.component? member).map Component.sockets).getD []

/-- The socket belongs to one of the components. -/
def isWithin (graph : Graph) (members : List ComponentId) (id : SocketId) : Bool :=
  (graph.socket? id).any fun socket => socket.owner ∈ members

/-- The sockets of the members that a socket is linked to. -/
def innerTargets (graph : Graph) (members : List ComponentId) (id : SocketId) : List SocketId :=
  ((graph.socket? id).map fun socket => (socketEntries socket.outgoing).filter (graph.isWithin members)).getD []

def linksAt (graph : Graph) (root : ComponentId) (members : List ComponentId) (id : SocketId) :
    List (SocketPath × SocketPath) :=
  (graph.innerTargets members id).map fun target => (graph.siteOf root id, graph.siteOf root target)

/-- The spaces bound to a socket at a place. -/
def boundAt (place : SocketPath) (socket : Socket) : List SpaceBinding :=
  (spaceEntries socket.outgoing).map (fun space => ⟨place, space, false⟩) ++
    (spaceEntries socket.incoming).map fun space => ⟨place, space, true⟩

def bindingsAt (graph : Graph) (root : ComponentId) (id : SocketId) : List SpaceBinding :=
  ((graph.socket? id).map fun socket =>
    if socket.owner = root then [] else boundAt (graph.siteOf root id) socket).getD []

theorem innerTargets_eq {id : SocketId} {socket : Socket} (held : graph.socket? id = some socket)
    (members : List ComponentId) :
    graph.innerTargets members id = (socketEntries socket.outgoing).filter (graph.isWithin members) := by
  rw [innerTargets, held]
  rfl

theorem bindingsAt_eq {id : SocketId} {socket : Socket} (held : graph.socket? id = some socket)
    (root : ComponentId) :
    graph.bindingsAt root id = if socket.owner = root then [] else boundAt (graph.siteOf root id) socket := by
  rw [bindingsAt, held]
  rfl

theorem isWithin_eq_true {members : List ComponentId} {id : SocketId} :
    graph.isWithin members id = true ↔ ∃ socket, graph.socket? id = some socket ∧ socket.owner ∈ members := by
  unfold isWithin
  cases graph.socket? id <;> simp

theorem mem_innerTargets {members : List ComponentId} {id target : SocketId} {socket : Socket}
    (held : graph.socket? id = some socket) :
    target ∈ graph.innerTargets members id ↔ target ∈ socketEntries socket.outgoing ∧
      ∃ other, graph.socket? target = some other ∧ other.owner ∈ members := by
  rw [innerTargets_eq held, List.mem_filter, isWithin_eq_true]

theorem mem_portsOf {members : List ComponentId} {id : SocketId} (sound : SocketsSound graph) :
    id ∈ graph.portsOf members ↔ ∃ socket, graph.socket? id = some socket ∧ socket.owner ∈ members := by
  unfold portsOf
  rw [List.mem_flatMap]
  constructor
  · rintro ⟨member, isMember, listed⟩
    cases found : graph.component? member with
    | none => simp [found] at listed
    | some node =>
        rw [found] at listed
        rcases (sound.mem_sockets found).mp listed with ⟨socket, held, rfl⟩
        exact ⟨socket, held, isMember⟩
  · rintro ⟨socket, held, isMember⟩
    rcases sound.owner id socket held with ⟨node, found⟩
    refine ⟨socket.owner, isMember, ?_⟩
    rw [found]
    exact (sound.mem_sockets found).mpr ⟨socket, held, rfl⟩

/-- Different components have different sockets. -/
theorem portsOf_nodup (sound : SocketsSound graph) {members : List ComponentId} (once : members.Nodup) :
    (graph.portsOf members).Nodup := by
  refine List.nodup_flatMap.mpr ⟨fun member _ => ?_, ?_⟩
  · cases found : graph.component? member with
    | none => exact List.nodup_nil
    | some node => exact (sound.ports member node found).once
  · refine (List.nodup_iff_pairwise_ne.mp once).imp fun {first second} differ => ?_
    intro id firstListed secondListed
    have left : ∃ socket, graph.socket? id = some socket ∧ socket.owner ∈ [first] :=
      (mem_portsOf sound).mp (by simpa [portsOf] using firstListed)
    have right : ∃ socket, graph.socket? id = some socket ∧ socket.owner ∈ [second] :=
      (mem_portsOf sound).mp (by simpa [portsOf] using secondListed)
    rcases left with ⟨socket, held, leftOwner⟩
    rcases right with ⟨other, otherHeld, rightOwner⟩
    obtain rfl := Option.some.inj (held.symm.trans otherHeld)
    exact differ ((List.mem_singleton.mp leftOwner).symm.trans (List.mem_singleton.mp rightOwner))

/-! ### The contributions -/

/-- A list of answers that are all known. -/
theorem mapM_of_forall {α β ε : Type} {ask : α → Except ε β} {value : α → β} {items : List α}
    (answered : ∀ item ∈ items, ask item = .ok (value item)) : items.mapM ask = .ok (items.map value) :=
  mapM_eq_ok.mpr (List.forall₂_map_right_iff.mpr (List.forall₂_same.mpr answered))

section Contributions

variable {root : ComponentId} {members : List ComponentId}

theorem relativePath_siteOf (sound : Sound graph) {id : SocketId} {socket : Socket}
    (held : graph.socket? id = some socket) (above : graph.Above root socket.owner) :
    graph.relativePath root socket.owner = .ok (graph.siteOf root id).path ∧
      socket.name = (graph.siteOf root id).name := by
  rcases sound.stands held above with ⟨other, otherHeld, descends, named⟩
  obtain rfl := Option.some.inj (held.symm.trans otherHeld)
  exact ⟨descends.relativePath sound.tree, named⟩

theorem linksFrom_ok (sound : Sound graph) (within : ∀ member ∈ members, graph.Above root member)
    (source : SocketPath) {connections : List Connection}
    (held : ∀ target ∈ socketEntries connections, ∃ socket, graph.socket? target = some socket) :
    graph.linksFrom root members source connections =
      .ok (((socketEntries connections).filter (graph.isWithin members)).map fun target =>
        (source, graph.siteOf root target)) := by
  let linked (connection : Connection) : List (SocketPath × SocketPath) :=
    ((socketEntries [connection]).filter (graph.isWithin members)).map fun target =>
      (source, graph.siteOf root target)
  refine except_bind_eq_ok.mpr ⟨connections.map linked, mapM_of_forall fun connection member => ?_, ?_⟩
  · cases connection with
    | space space => rfl
    | computation computation => rfl
    | socket id =>
        rcases held id (mem_socketEntries.mpr member) with ⟨socket, socketHeld⟩
        refine except_bind_eq_ok.mpr ⟨socket, heldSocket_eq_ok.mpr socketHeld, ?_⟩
        by_cases owned : socket.owner ∈ members
        · have inner : graph.isWithin members id = true := isWithin_eq_true.mpr ⟨socket, socketHeld, owned⟩
          rcases relativePath_siteOf sound socketHeld (within _ owned) with ⟨path, name⟩
          rw [if_pos owned, path, name]
          simp [linked, socketEntries, inner, bind, Except.bind, pure, Except.pure]
        · have outer : graph.isWithin members id = false := by
            rw [Bool.eq_false_iff, ne_eq, isWithin_eq_true]
            rintro ⟨other, otherHeld, otherOwned⟩
            exact owned (Option.some.inj (socketHeld.symm.trans otherHeld) ▸ otherOwned)
          rw [if_neg owned]
          simp [linked, socketEntries, outer, pure, Except.pure]
  refine congrArg Except.ok ?_
  clear held
  induction connections with
  | nil => rfl
  | cons first rest inductionHypothesis =>
      rw [List.map_cons, List.flatten_cons, inductionHypothesis, ← List.map_append, ← List.filter_append,
        ← socketEntries_append]
      rfl

/-- What one member contributes. -/
theorem wiringOf_ok (sound : Sound graph) (within : ∀ member ∈ members, graph.Above root member)
    {member : ComponentId} (isMember : member ∈ members) :
    graph.wiringOf root members member =
      .ok ((graph.portsOf [member]).flatMap (graph.linksAt root members),
        (graph.portsOf [member]).flatMap (graph.bindingsAt root)) := by
  rcases Descends.of_above sound.tree (within member isMember) with ⟨path, descends⟩
  rcases within member isMember with ⟨chain, ancestry, -⟩
  rcases ancestry.head with ⟨rest, rfl⟩
  rcases ancestry.exists_of_mem List.mem_cons_self with ⟨node, found⟩
  have ports : graph.portsOf [member] = node.sockets := by
    simp [portsOf, found]
  refine except_bind_eq_ok.mpr ⟨path, descends.relativePath sound.tree, ?_⟩
  refine except_bind_eq_ok.mpr ⟨node, heldComponent_eq_ok.mpr found, ?_⟩
  rw [ports]
  have answered : ∀ id ∈ node.sockets, (do
      let socket ← graph.heldSocket id
      let place : SocketPath := ⟨path, socket.name⟩
      let links ← graph.linksFrom root members place socket.outgoing
      let bind (incoming : Bool) (space : Space) : SpaceBinding := { socket := place, space, incoming }
      let bindings := if member = root then [] else
        (socket.outgoing.filterMap Connection.asSpace?).map (bind false) ++
          (socket.incoming.filterMap Connection.asSpace?).map (bind true)
      return (links, bindings)) = Except.ok (graph.linksAt root members id, graph.bindingsAt root id) := by
    intro id listed
    rcases (sound.sockets.mem_sockets found).mp listed with ⟨socket, held, owned⟩
    have stands : graph.Stands root id ⟨path, socket.name⟩ := ⟨socket, held, owned ▸ descends, rfl⟩
    refine except_bind_eq_ok.mpr ⟨socket, heldSocket_eq_ok.mpr held, ?_⟩
    refine except_bind_eq_ok.mpr ⟨_, linksFrom_ok sound within _ fun target linked => ?_, ?_⟩
    · rcases sound.links.targets id socket held target linked with ⟨other, otherHeld, -⟩
      exact ⟨other, otherHeld⟩
    · rw [linksAt, innerTargets_eq held, bindingsAt_eq held, stands.siteOf sound.tree, owned]
      rfl
  refine except_bind_eq_ok.mpr ⟨_, mapM_of_forall answered, ?_⟩
  rw [List.map_map, List.map_map, ← List.flatMap_def, ← List.flatMap_def]
  rfl

end Contributions

/-- The blueprint of a component holds its plan and what the sockets of its subtree contribute, in order. -/
theorem blueprint_ok (sound : Sound graph) {root : ComponentId} {node : Component}
    (found : graph.component? root = some node) :
    ∃ plan members, graph.Planned root plan ∧ graph.subtree root = .ok members ∧
      graph.blueprint root = .ok {
        root := plan
        links := (graph.portsOf members).flatMap (graph.linksAt root members)
        bindings := (graph.portsOf members).flatMap (graph.bindingsAt root) } := by
  rcases sound.planComponent_size found with ⟨plan, planned⟩
  rcases subtree_succeeds sound.tree found with ⟨members, listed⟩
  refine ⟨plan, members, ⟨_, planned⟩, listed, ?_⟩
  refine except_bind_eq_ok.mpr ⟨node, component_eq_ok.mpr found, ?_⟩
  refine except_bind_eq_ok.mpr ⟨plan, planned, except_bind_eq_ok.mpr ⟨members, listed, ?_⟩⟩
  have within : ∀ member ∈ members, graph.Above root member :=
    fun member isMember => (mem_subtree sound.tree listed).mp isMember
  refine except_bind_eq_ok.mpr ⟨_, mapM_of_forall fun member => wiringOf_ok sound within, ?_⟩
  rw [List.map_map, List.map_map, ← List.flatMap_def, ← List.flatMap_def]
  simp only [Function.comp_def, portsOf, List.flatMap_assoc, List.flatMap_cons, List.flatMap_nil,
    List.append_nil]
  rfl

end Wiring.Graph
