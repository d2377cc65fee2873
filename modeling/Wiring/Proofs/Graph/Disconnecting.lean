import Wiring.Proofs.Graph.Operations.Links
import Wiring.Proofs.Graph.Sound.Sockets
import Wiring.Proofs.Space.Equality

/-!
Contract: disconnecting what has just been connected.

Owns: that what is planned for two ends does not depend on the connection lists; `Comparable`, the ends whose spaces
are found again; `Requeued`, a list whose entries have kept their places or in which an equal entry has gone to the
end; and that a connection and its removal change the lists they edit in this way at most, and nothing else.

Does not own: what a removal does to a graph in which the connection was not the last to be made.
-/

namespace Wiring

/-! ### An entry appended and removed -/

/-- The entries in another order, where the given connection may stand for one that is equal to it. They are the same
as before if no equal one was among them. -/
structure Requeued (connection : Connection) (before later : List Connection) : Prop where
  permuted : ∃ order : List Connection, order.Perm before ∧
    List.Forall₂ (fun old new => new = old ∨ new = connection ∧ old.same connection = true) order later
  kept : (∀ old ∈ before, old.same connection = false) → later = before

namespace Graph

theorem eraseFirst_append_of_none {connection : Connection} {connections : List Connection}
    (none : ∀ old ∈ connections, old.same connection = false) (rest : List Connection) :
    eraseFirst connection (connections ++ rest) = connections ++ eraseFirst connection rest := by
  induction connections with
  | nil => rfl
  | cons first others inductionHypothesis =>
      rw [List.forall_mem_cons] at none
      rw [List.cons_append, eraseFirst, if_neg (by simp [none.1]), inductionHypothesis none.2, List.cons_append]

theorem eraseFirst_cons_of_same {connection first : Connection} (same : first.same connection = true)
    (rest : List Connection) : eraseFirst connection (first :: rest) = rest := by
  rw [eraseFirst, if_pos same]

/-- The entries before the first equal one, that one, and the entries behind it. -/
theorem exists_first_same {connection : Connection} {connections : List Connection}
    (some : ∃ old ∈ connections, old.same connection = true) :
    ∃ front first back, connections = front ++ first :: back ∧ first.same connection = true ∧
      ∀ old ∈ front, old.same connection = false := by
  induction connections with
  | nil => simp at some
  | cons first rest inductionHypothesis =>
      cases here : first.same connection with
      | true => exact ⟨[], first, rest, rfl, here, by simp⟩
      | false =>
          rcases inductionHypothesis (by simpa [here] using some) with ⟨front, found, back, same, equal, none⟩
          exact ⟨first :: front, found, back, by rw [same, List.cons_append], equal,
            List.forall_mem_cons.mpr ⟨here, none⟩⟩

/-- The removal takes away the appended entry, or an earlier one that is equal to it. -/
theorem requeued_eraseFirst {connection : Connection} (self : connection.same connection = true)
    (connections : List Connection) :
    Requeued connection connections (eraseFirst connection (connections ++ [connection])) := by
  by_cases some : ∃ old ∈ connections, old.same connection = true
  · rcases exists_first_same some with ⟨front, first, back, rfl, equal, none⟩
    have removed : eraseFirst connection (front ++ first :: back ++ [connection]) = front ++ back ++ [connection] := by
      rw [List.append_assoc, eraseFirst_append_of_none none, List.cons_append, eraseFirst_cons_of_same equal,
        List.append_assoc]
    rw [removed]
    -- The new entry stands at the end for the equal one that has gone.
    refine ⟨⟨front ++ back ++ [first], ?_, ?_⟩, fun absent => ?_⟩
    · rw [List.append_assoc]
      exact (List.perm_append_singleton first back).append_left front
    · exact List.rel_append (List.forall₂_same.mpr fun _ _ => .inl rfl) (.cons (.inr ⟨rfl, equal⟩) .nil)
    · exact absurd (absent first (by simp)) (by simp [equal])
  · have none : ∀ old ∈ connections, old.same connection = false := fun old listed =>
      Bool.eq_false_iff.mpr fun equal => some ⟨old, listed, equal⟩
    rw [eraseFirst_append_of_none none, eraseFirst_cons_of_same self, List.append_nil]
    exact ⟨⟨connections, .refl _, List.forall₂_same.mpr fun _ _ => .inl rfl⟩, fun _ => rfl⟩

/-! ### Ends in graphs with other connection lists -/

/-- The graphs have the same components, and sockets that differ in their connections and spaces at most. -/
structure SameFaces (left right : Graph) : Prop where
  components : left.components = right.components
  faces : ∀ id, (left.socket? id).map Socket.face = (right.socket? id).map Socket.face

namespace SameFaces

variable {left right : Graph} (same : SameFaces left right)
include same

theorem component_eq (id : ComponentId) : left.component id = right.component id := by
  unfold component
  rw [same.components]

theorem heldComponent_eq (id : ComponentId) : left.heldComponent id = right.heldComponent id := by
  unfold heldComponent
  rw [same.components]

/-- What is done with a socket answers the same if it only looks at the face. -/
theorem heldSocket_bind {α : Type} (id : SocketId) {next other : Socket → Except Error α}
    (alike : ∀ first second : Socket, first.face = second.face → next first = other second) :
    (left.heldSocket id >>= next) = (right.heldSocket id >>= other) := by
  have faces := same.faces id
  unfold heldSocket
  change left.sockets[id.index]?.map _ = right.sockets[id.index]?.map _ at faces
  cases one : left.sockets[id.index]? <;> cases two : right.sockets[id.index]? <;>
    rw [one, two] at faces
  · rfl
  · cases faces
  · cases faces
  · exact alike _ _ (Option.some.inj faces)

theorem findNamed_eq (name : String) (ids : List SocketId) : left.findNamed name ids = right.findNamed name ids := by
  induction ids with
  | nil => rfl
  | cons first rest inductionHypothesis =>
      rw [findNamed, findNamed]
      refine same.heldSocket_bind first fun one two face => ?_
      rw [Socket.name_of_face face, inductionHypothesis]

theorem socketNamed_eq (owner : ComponentId) (name : String) (side : Option Side) :
    left.socketNamed? owner name side = right.socketNamed? owner name side := by
  unfold socketNamed?
  simp only [same.component_eq, same.findNamed_eq]

theorem resolve_eq (viewer : ComponentId) (ref : SocketRef) (side : Option Side) :
    left.resolve viewer ref side = right.resolve viewer ref side := by
  unfold resolve
  simp only [same.component_eq, same.socketNamed_eq]
  refine bind_congr fun node => ?_
  cases ref with
  | id id =>
      have faces := same.faces id
      cases one : left.socket? id <;> cases two : right.socket? id <;> rw [one, two] at faces
      · simp only [one, two]
      · cases faces
      · cases faces
      · simp only [one, two]
  | _ => rfl

theorem terminal_eq (viewer : ComponentId) (side : Side) (endpoint : Endpoint) :
    left.terminal viewer side endpoint = right.terminal viewer side endpoint := by
  cases endpoint <;> simp only [terminal, same.resolve_eq]

theorem planLink_eq (viewer : ComponentId) (source target : Endpoint) :
    left.planLink viewer source target = right.planLink viewer source target := by
  unfold planLink
  simp only [same.terminal_eq]
  refine bind_congr fun sourceEnd => bind_congr fun targetEnd => ?_
  rcases sourceEnd with space | first <;> rcases targetEnd with other | second
  · rfl
  · refine same.heldSocket_bind second fun one two face => ?_
    rw [Socket.side_of_face face, Socket.name_of_face face]
  · refine same.heldSocket_bind first fun one two face => ?_
    rw [Socket.side_of_face face, Socket.name_of_face face]
  · refine same.heldSocket_bind first fun one two face => ?_
    refine same.heldSocket_bind second fun three four faceToo => ?_
    simp only [Socket.owner_of_face face, Socket.owner_of_face faceToo, Socket.name_of_face face,
      Socket.name_of_face faceToo, same.heldComponent_eq]

end SameFaces

theorem sameFaces_withEntry (graph : Graph) (entry : LinkEntry) : SameFaces (graph.withEntry entry) graph where
  components := rfl
  faces := view_withEntry graph (fun _ _ _ => rfl) entry

theorem sameFaces_withLink (graph : Graph) (source target : SocketId) :
    SameFaces (graph.withLink source target) graph where
  components := rfl
  faces := view_withLink graph (fun _ _ _ => rfl) source target

/-! ### Ends that are found again -/

end Graph

/-- The space of the end, if it is one, has no key twice in a dict and no bound that is no number. What a specification
describes has no key twice anyway. -/
def Endpoint.Comparable : Endpoint → Prop
  | .space bound => bound.Distinct ∧ bound.Numeric
  | .spec description => ∀ bound, Space.ofSpec description = .ok bound → bound.Numeric
  | .component _ => True
  | .socket _ => True

namespace Graph

theorem same_self_of_terminal {graph : Graph} {viewer : ComponentId} {side : Side} {endpoint : Endpoint} {space : Space}
    (comparable : endpoint.Comparable) (found : graph.terminal viewer side endpoint = .ok (.space space)) :
    space.same space = true := by
  cases endpoint with
  | space given =>
      obtain rfl := Terminal.space.inj (Except.ok.inj found)
      exact Space.same_self comparable.1 comparable.2
  | spec spec =>
      simp only [terminal] at found
      cases described : Space.ofSpec spec with
      | error fault =>
          rw [described] at found
          cases found
      | ok given =>
          rw [described] at found
          obtain rfl := Terminal.space.inj (Except.ok.inj found)
          exact Space.same_self (Space.distinct_ofSpec described) (comparable given described)
  | component id => simp [terminal, except_map_eq_ok] at found
  | socket ref => simp [terminal, except_map_eq_ok] at found

/-- What is bound is the space of an end. -/
theorem planLink_bound {graph : Graph} {viewer : ComponentId} {source target : Endpoint} {id : SocketId}
    {incoming : Bool} {space : Space}
    (planned : graph.planLink viewer source target = .ok [⟨id, incoming, .space space⟩]) :
    graph.terminal viewer .output source = .ok (.space space) ∨
      graph.terminal viewer .input target = .ok (.space space) := by
  obtain ⟨sourceEnd, sourceFound, planned⟩ := except_bind_eq_ok.mp planned
  obtain ⟨targetEnd, targetFound, planned⟩ := except_bind_eq_ok.mp planned
  rcases sourceEnd with given | first <;> rcases targetEnd with other | second
  · cases planned
  · obtain ⟨socket, -, planned⟩ := except_bind_eq_ok.mp planned
    split at planned
    next =>
      cases planned
      exact .inl sourceFound
    next => cases planned
  · obtain ⟨socket, -, planned⟩ := except_bind_eq_ok.mp planned
    split at planned
    next =>
      cases planned
      exact .inr targetFound
    next => cases planned
  · obtain ⟨firstSocket, -, planned⟩ := except_bind_eq_ok.mp planned
    obtain ⟨secondSocket, -, planned⟩ := except_bind_eq_ok.mp planned
    split at planned
    next =>
      obtain ⟨owner, -, planned⟩ := except_bind_eq_ok.mp planned
      cases planned
    next => cases planned

/-! ### Connecting and disconnecting -/

/-- What an end and its removal leave of a socket: a list that an entry belongs to is requeued, nothing else differs. -/
structure RequeuedSocket (entries : List LinkEntry) (id : SocketId) (before later : Socket) : Prop where
  face : { later with incoming := before.incoming, outgoing := before.outgoing } = before
  edited : ∀ entry ∈ entries, entry.socket = id → Requeued entry.connection (entry.listOf before) (entry.listOf later)
  untouched : ∀ other : LinkEntry,
    (∀ entry ∈ entries, entry.socket = id → entry.incoming ≠ other.incoming) → other.listOf later = other.listOf before

/-- Nothing differs but the lists that the entries belong to, which are requeued. -/
structure RequeuedGraph (entries : List LinkEntry) (before later : Graph) : Prop where
  backend : later.backend = before.backend
  components : later.components = before.components
  computations : later.computations = before.computations
  sockets : ∀ id, Option.Rel (RequeuedSocket entries id) (before.socket? id) (later.socket? id)

theorem listOf_setList (entry : LinkEntry) (connections : List Connection) (socket : Socket) :
    entry.listOf (entry.setList connections socket) = connections := by
  unfold LinkEntry.listOf LinkEntry.setList
  split <;> rfl

theorem setList_setList (entry : LinkEntry) (first second : List Connection) (socket : Socket) :
    entry.setList second (entry.setList first socket) = entry.setList second socket := by
  unfold LinkEntry.setList
  split <;> rfl

/-- One list is requeued by an entry that is equal to itself. -/
theorem requeuedSocket_setList {entry : LinkEntry} (self : entry.connection.same entry.connection = true)
    (socket : Socket) :
    RequeuedSocket [entry] entry.socket socket
      (entry.setList (eraseFirst entry.connection (entry.listOf socket ++ [entry.connection])) socket) where
  face := by
    unfold LinkEntry.setList
    split <;> rfl
  edited other listed _ := by
    obtain rfl := List.mem_singleton.mp listed
    rw [listOf_setList]
    exact requeued_eraseFirst self _
  untouched other elsewhere := by
    have differ := elsewhere entry List.mem_cons_self rfl
    unfold LinkEntry.setList LinkEntry.listOf
    cases one : entry.incoming <;> cases two : other.incoming <;> simp_all

theorem requeuedSocket_self {entries : List LinkEntry} {id : SocketId}
    (elsewhere : ∀ entry ∈ entries, entry.socket ≠ id) (socket : Socket) : RequeuedSocket entries id socket socket where
  face := rfl
  edited entry listed same := absurd same (elsewhere entry listed)
  untouched _ _ := rfl

theorem requeued_entry (graph : Graph) (entry : LinkEntry) (self : entry.connection.same entry.connection = true) :
    RequeuedGraph [entry] graph ((graph.withEntry entry).withoutEntry entry) where
  backend := rfl
  components := rfl
  computations := rfl
  sockets other := by
    rw [socket?_withoutEntry, socket?_withEntry]
    cases graph.socket? other with
    | none => simp
    | some socket =>
        by_cases here : entry.socket = other
        · subst here
          simpa [listOf_setList, setList_setList] using requeuedSocket_setList self socket
        · have elsewhere : ∀ edited ∈ [entry], edited.socket ≠ other := by simpa using here
          simpa [here] using requeuedSocket_self elsewhere socket

theorem requeued_link (graph : Graph) (source target : SocketId) :
    RequeuedGraph [⟨source, false, .socket target⟩, ⟨target, true, .socket source⟩] graph
      ((graph.withLink source target).withoutLink source target) where
  backend := rfl
  components := rfl
  computations := rfl
  sockets other := by
    rw [socket?_withoutLink, socket?_withLink]
    cases graph.socket? other with
    | none => simp
    | some socket =>
        refine .some ⟨rfl, ?_, ?_⟩
        · rw [List.forall_mem_cons, List.forall_mem_singleton]
          constructor
          · rintro rfl
            simpa [LinkEntry.listOf] using requeued_eraseFirst (same_socket_iff.mpr rfl) socket.outgoing
          · rintro rfl
            simpa [LinkEntry.listOf] using requeued_eraseFirst (same_socket_iff.mpr rfl) socket.incoming
        · intro entry elsewhere
          rw [List.forall_mem_cons, List.forall_mem_singleton] at elsewhere
          unfold LinkEntry.listOf
          cases incoming : entry.incoming with
          | true =>
              have differ : target ≠ other := fun here => elsewhere.2 here incoming.symm
              simp [differ]
          | false =>
              have differ : source ≠ other := fun here => elsewhere.1 here incoming.symm
              simp [differ]

/-- A socket none of whose edited lists held an equal entry is the same as before. -/
theorem RequeuedSocket.eq_of_new {entries : List LinkEntry} {id : SocketId} {before later : Socket}
    (requeued : RequeuedSocket entries id before later)
    (new : ∀ entry ∈ entries, entry.socket = id → ∀ old ∈ entry.listOf before, old.same entry.connection = false) :
    later = before := by
  have lists (other : LinkEntry) : other.listOf later = other.listOf before := by
    by_cases edited : ∃ entry ∈ entries, entry.socket = id ∧ entry.incoming = other.incoming
    · rcases edited with ⟨entry, listed, here, incoming⟩
      have kept := (requeued.edited entry listed here).kept (new entry listed here)
      unfold LinkEntry.listOf at kept ⊢
      rwa [incoming] at kept
    · exact requeued.untouched other fun entry listed here incoming => edited ⟨entry, listed, here, incoming⟩
  have incoming : later.incoming = before.incoming := lists ⟨id, true, default⟩
  have outgoing : later.outgoing = before.outgoing := lists ⟨id, false, default⟩
  rw [← requeued.face, ← incoming, ← outgoing]

theorem RequeuedGraph.eq_of_new {entries : List LinkEntry} {before later : Graph}
    (requeued : RequeuedGraph entries before later)
    (new : ∀ entry ∈ entries, ∀ socket, before.socket? entry.socket = some socket →
      ∀ old ∈ entry.listOf socket, old.same entry.connection = false) : later = before := by
  refine ext_parts requeued.backend (fun id => ?_) (fun id => ?_) requeued.computations
  · unfold component?
    rw [requeued.components]
  · have sockets := requeued.sockets id
    cases old : before.socket? id <;> cases found : later.socket? id <;> rw [old, found] at sockets
    · cases sockets
    · cases sockets
    · cases sockets with
      | some requeuedSocket =>
          refine congrArg some (requeuedSocket.eq_of_new fun entry listed here => new entry listed _ ?_)
          rw [here, old]

theorem run_connect {graph connected : Graph} {viewer : ComponentId} {source target : Endpoint}
    (connects : (connect viewer source target).run graph = (.ok ⟨⟩, connected)) :
    ∃ entries, graph.planLink viewer source target = .ok entries ∧ Linking graph entries ∧
      connected = entries.foldl withEntry graph := by
  obtain ⟨entries, middle, planned, appended⟩ := of_run_bind_ok connects
  rw [run_query] at planned
  obtain rfl : graph = middle := congrArg Prod.snd planned
  have planned : graph.planLink viewer source target = .ok entries := congrArg Prod.fst planned
  have linking := planLink_ok planned
  refine ⟨entries, planned, linking, ?_⟩
  cases linking with
  | bound id incoming space socket found side => exact congrArg Prod.snd (appended.symm.trans (run_append_bound found))
  | linked source target first second sourceFound targetFound apart =>
      exact congrArg Prod.snd (appended.symm.trans (run_append_link sourceFound targetFound))

/-- Both entries of a link that has just been made are there. -/
theorem checkLinked_withLink {graph : Graph} {source target : SocketId} {first second : Socket}
    (sourceFound : graph.socket? source = some first) (targetFound : graph.socket? target = some second) :
    (graph.withLink source target).checkLinked
      [⟨source, false, .socket target⟩, ⟨target, true, .socket source⟩] = .ok ⟨⟩ := by
  have sourceAfter := (socket?_withLink graph source target source).trans (congrArg _ sourceFound)
  have targetAfter := (socket?_withLink graph source target target).trans (congrArg _ targetFound)
  refine except_bind_eq_ok.mpr ⟨_, heldSocket_eq_ok.mpr sourceAfter, ?_⟩
  refine except_bind_eq_ok.mpr ⟨_, heldSocket_eq_ok.mpr targetAfter, ?_⟩
  refine if_neg ?_
  simp [LinkEntry.listOf, Connection.same]

/-- What has just been entered can be removed. -/
theorem run_remove_withEntry {graph : Graph} {entry : LinkEntry} {socket : Socket}
    (self : entry.connection.same entry.connection = true) (found : graph.socket? entry.socket = some socket) :
    (remove entry).run (graph.withEntry entry) = (.ok ⟨⟩, (graph.withEntry entry).withoutEntry entry) := by
  have foundAfter := (socket?_withEntry graph entry entry.socket).trans (if_pos rfl)
  rw [found] at foundAfter
  rw [run_remove entry foundAfter, if_pos]
  rw [listOf_setList, List.any_append]
  simp [self]

/-- What has just been connected can be disconnected. The graph is then the same as before, but that the lists which
the connection was entered in may have an equal entry moved to their end; where there was none, also the lists are the
same. -/
theorem disconnect_connect {graph connected : Graph} {viewer : ComponentId} {source target : Endpoint}
    (sourceComparable : source.Comparable) (targetComparable : target.Comparable)
    (connects : (connect viewer source target).run graph = (.ok ⟨⟩, connected)) :
    ∃ entries later, graph.planLink viewer source target = .ok entries ∧ connected = entries.foldl withEntry graph ∧
      (disconnect viewer source target).run connected = (.ok ⟨⟩, later) ∧ RequeuedGraph entries graph later ∧
      ((∀ entry ∈ entries, ∀ socket, graph.socket? entry.socket = some socket →
        ∀ old ∈ entry.listOf socket, old.same entry.connection = false) → later = graph) := by
  obtain ⟨entries, planned, linking, rfl⟩ := run_connect connects
  cases linking with
  | bound id incoming space socket found side =>
      have self : space.same space = true :=
        (planLink_bound planned).elim (same_self_of_terminal sourceComparable) (same_self_of_terminal targetComparable)
      have requeued := requeued_entry graph ⟨id, incoming, .space space⟩ self
      refine ⟨_, _, planned, rfl, ?_, requeued, requeued.eq_of_new⟩
      -- Plans look at faces only, which an entry leaves alone.
      have plannedAgain := ((sameFaces_withEntry graph ⟨id, incoming, .space space⟩).planLink_eq _ _ _).trans planned
      have checked :
          (graph.withEntry ⟨id, incoming, .space space⟩).checkLinked [⟨id, incoming, .space space⟩] = .ok ⟨⟩ := rfl
      have removed : (remove ⟨id, incoming, .space space⟩).run (graph.withEntry ⟨id, incoming, .space space⟩) = _ :=
        run_remove_withEntry self found
      unfold disconnect
      rw [List.foldl_cons, List.foldl_nil, run_query_bind plannedAgain, run_query_bind checked, forM_cons,
        run_bind_ok removed]
      rfl
  | linked source target first second sourceFound targetFound apart =>
      have requeued := requeued_link graph source target
      refine ⟨_, _, planned, rfl, ?_, requeued, requeued.eq_of_new⟩
      have plannedAgain := ((sameFaces_withLink graph source target).planLink_eq _ _ _).trans planned
      have sourceAfter := (socket?_withLink graph source target source).trans (congrArg _ sourceFound)
      have targetAfter := (socket?_withLink graph source target target).trans (congrArg _ targetFound)
      have removed := run_remove_link sourceAfter targetAfter apart (by simp) (by simp)
      unfold disconnect
      exact (run_query_bind plannedAgain _).trans
        ((run_query_bind (checkLinked_withLink sourceFound targetFound) _).trans removed)

/-- A component whose only socket is fed by a space of two boxes. -/
def fedByRecord : GraphM Unit := do
  let sink ← create { scope := "sink" }
  let _ ← addSockets sink ["in"] (some .input) false
  connect sink (.space (.dictOf [("x", .floatBox []), ("y", .boundedBox [2] 0.0 1.0)])) (.component sink)

/-- The same two boxes in the other order. -/
def swappedRecord : Space :=
  .dictOf [("y", .boundedBox [2] 0.0 1.0), ("x", .floatBox [])]

theorem comparable_swappedRecord : Endpoint.Comparable (.space swappedRecord) := by
  have bounded : Box.Numeric { shape := [2], low := some 0.0, high := some 1.0 } := by
    constructor <;> (rintro bound ⟨⟩; rfl)
  have free : Box.Numeric { shape := [] } := by
    constructor <;> rintro bound ⟨⟩
  refine ⟨Space.distinct_dictOf ?_, Space.numeric_dict fun entry listed => ?_⟩
  · simp [Space.boundedBox, Space.floatBox, Space.distinct_box]
  · have listed := Keyed.mem_ofList listed
    rw [List.mem_cons, List.mem_singleton] at listed
    rcases listed with rfl | rfl
    · exact Space.numeric_box bounded
    · exact Space.numeric_box free

/-- The record in the other order is bound and unbound, although the first equal entry has the old order. -/
theorem disconnect_connect_swappedRecord :
    ∃ later, (disconnect ⟨0⟩ (.space swappedRecord) (.component ⟨0⟩)).run
        (after (connect ⟨0⟩ (.space swappedRecord) (.component ⟨0⟩)) (after fedByRecord {})) = (.ok ⟨⟩, later) ∧
      RequeuedGraph [⟨⟨0⟩, true, .space swappedRecord⟩] (after fedByRecord {}) later := by
  have connects : (connect ⟨0⟩ (.space swappedRecord) (.component ⟨0⟩)).run (after fedByRecord {}) =
      (.ok ⟨⟩, after (connect ⟨0⟩ (.space swappedRecord) (.component ⟨0⟩)) (after fedByRecord {})) := rfl
  have sink : Endpoint.Comparable (.component ⟨0⟩) := trivial
  obtain ⟨entries, later, planned, -, ran, requeued, -⟩ := disconnect_connect comparable_swappedRecord sink connects
  obtain rfl : [⟨⟨0⟩, true, .space swappedRecord⟩] = entries := Except.ok.inj planned
  exact ⟨later, ran, requeued⟩

end Graph

end Wiring
