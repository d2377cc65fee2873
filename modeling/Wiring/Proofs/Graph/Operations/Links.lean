import Wiring.Proofs.Graph.Operations.Sockets

/-!
Contract: connecting and disconnecting, as changes.

Owns: `Linking`, the three forms of what `planLink` answers with the checks behind each; that each form is
connected and disconnected by one change; and that `connect`, `disconnect`, `defineInputs` and
`defineOutputs` are sequences of changes whatever their outcome.
-/

namespace Wiring.Graph

/-- The entries of a connection, with what has been checked of their sockets. -/
inductive Linking (graph : Graph) : List LinkEntry → Prop where
  | bound (id : SocketId) (incoming : Bool) (space : Space) (socket : Socket)
      (found : graph.socket? id = some socket) (side : socket.side = if incoming then .input else .output) :
      Linking graph [⟨id, incoming, .space space⟩]
  | linked (source target : SocketId) (first second : Socket)
      (sourceFound : graph.socket? source = some first) (targetFound : graph.socket? target = some second)
      (apart : first.owner ≠ second.owner) :
      Linking graph [⟨source, false, .socket target⟩, ⟨target, true, .socket source⟩]

theorem planLink_ok {graph : Graph} {viewer : ComponentId} {source target : Endpoint}
    {entries : List LinkEntry} (planned : graph.planLink viewer source target = .ok entries) :
    Linking graph entries := by
  obtain ⟨sourceEnd, -, planned⟩ := except_bind_eq_ok.mp planned
  obtain ⟨targetEnd, -, planned⟩ := except_bind_eq_ok.mp planned
  rcases sourceEnd with space | first <;> rcases targetEnd with other | second
  · cases planned
  · obtain ⟨socket, held, planned⟩ := except_bind_eq_ok.mp planned
    by_cases side : socket.side = .input
    · rw [if_pos side] at planned
      obtain rfl := Except.ok.inj planned
      exact .bound second true space socket (heldSocket_eq_ok.mp held) side
    · rw [if_neg side] at planned
      cases planned
  · obtain ⟨socket, held, planned⟩ := except_bind_eq_ok.mp planned
    by_cases side : socket.side = .output
    · rw [if_pos side] at planned
      obtain rfl := Except.ok.inj planned
      exact .bound first false other socket (heldSocket_eq_ok.mp held) side
    · rw [if_neg side] at planned
      cases planned
  · obtain ⟨firstSocket, firstHeld, planned⟩ := except_bind_eq_ok.mp planned
    obtain ⟨secondSocket, secondHeld, planned⟩ := except_bind_eq_ok.mp planned
    by_cases same : firstSocket.owner = secondSocket.owner
    · simp only [if_pos same] at planned
      obtain ⟨owner, -, planned⟩ := except_bind_eq_ok.mp planned
      cases planned
    · simp only [if_neg same] at planned
      obtain rfl := Except.ok.inj planned
      exact .linked first second firstSocket secondSocket (heldSocket_eq_ok.mp firstHeld)
        (heldSocket_eq_ok.mp secondHeld) same

/-! ### Connecting -/

theorem run_append {graph : Graph} {entry : LinkEntry} {socket : Socket}
    (found : graph.socket? entry.socket = some socket) :
    (append entry).run graph = (.ok ⟨⟩, graph.withEntry entry) :=
  run_editSocket found _

/-- Sockets are still found after an entry was added to one of them. -/
theorem exists_socket?_withEntry {graph : Graph} {id : SocketId} {socket : Socket}
    (found : graph.socket? id = some socket) (entry : LinkEntry) :
    ∃ changed, (graph.withEntry entry).socket? id = some changed := by
  rw [socket?_withEntry, found]
  split
  · exact ⟨_, rfl⟩
  · exact ⟨socket, rfl⟩

theorem run_append_link {graph : Graph} {source target : SocketId} {first second : Socket}
    (sourceFound : graph.socket? source = some first) (targetFound : graph.socket? target = some second) :
    (List.forM [⟨source, false, .socket target⟩, ⟨target, true, .socket source⟩] append).run graph =
      (.ok ⟨⟩, graph.withLink source target) := by
  obtain ⟨changed, targetAfter⟩ := exists_socket?_withEntry targetFound ⟨source, false, .socket target⟩
  rw [forM_cons, run_bind_ok (run_append sourceFound), forM_cons, run_bind_ok (run_append targetAfter)]
  rfl

theorem run_append_bound {graph : Graph} {id : SocketId} {incoming : Bool} {space : Space}
    {socket : Socket} (found : graph.socket? id = some socket) :
    (List.forM [⟨id, incoming, .space space⟩] append).run graph =
      (.ok ⟨⟩, graph.withEntry ⟨id, incoming, .space space⟩) := by
  rw [forM_cons, run_bind_ok (run_append found)]
  rfl

theorem resolve_id {graph : Graph} {viewer : ComponentId} {node : Component} (found : graph.component? viewer = some node)
    {id : SocketId} {socket : Socket} (held : graph.socket? id = some socket) (side : Option Side) :
    graph.resolve viewer (.id id) side = .ok id := by
  refine except_bind_eq_ok.mpr ⟨node, component_eq_ok.mpr found, ?_⟩
  simp only [held]
  rfl

/-- A space can be bound to every in-socket that is found. -/
theorem run_connect_input {graph : Graph} {viewer : ComponentId} {reference : SocketRef} {id : SocketId} {socket : Socket}
    (resolved : graph.resolve viewer reference none = .ok id) (held : graph.socket? id = some socket)
    (side : socket.side = .input) (space : Space) :
    (connect viewer (.space space) (.socket reference)).run graph =
      (.ok ⟨⟩, graph.withEntry ⟨id, true, .space space⟩) := by
  have planned : graph.planLink viewer (.space space) (.socket reference) = .ok [⟨id, true, .space space⟩] := by
    refine except_bind_eq_ok.mpr ⟨.space space, rfl, ?_⟩
    refine except_bind_eq_ok.mpr ⟨.socket id, except_map_eq_ok.mpr ⟨id, resolved, rfl⟩, ?_⟩
    refine except_bind_eq_ok.mpr ⟨socket, heldSocket_eq_ok.mpr held, ?_⟩
    rw [if_pos side]
    rfl
  unfold connect
  rw [run_query_bind planned]
  exact run_append_bound held

theorem keeps_connect (viewer : ComponentId) (source target : Endpoint) :
    Keeps Changes (connect viewer source target) := by
  intro graph
  refine Keeps.query_bind_of fun entries planned => ?_
  cases planLink_ok planned with
  | bound id incoming space socket found side =>
      rw [after_of_run (run_append_bound found)]
      exact .single (.bind id incoming space socket found side)
  | linked source target first second sourceFound targetFound apart =>
      rw [after_of_run (run_append_link sourceFound targetFound)]
      exact .single (.link source target first second sourceFound targetFound apart)

/-! ### Disconnecting -/

theorem same_socket_iff {connection : Connection} {id : SocketId} :
    connection.same (.socket id) = true ↔ connection = .socket id := by
  cases connection <;> simp [Connection.same]

/-- Removing an entry succeeds exactly where an equal one is found. -/
theorem run_remove {graph : Graph} (entry : LinkEntry) {socket : Socket}
    (found : graph.socket? entry.socket = some socket) :
    (remove entry).run graph =
      if (entry.listOf socket).any (fun other => other.same entry.connection) then
        (.ok ⟨⟩, graph.withoutEntry entry)
      else (.error (.noSuchConnection socket.name entry.connection), graph) := by
  unfold remove
  rw [run_query_bind (heldSocket_eq_ok.mpr found)]
  split
  · exact run_editSocket found _
  · rfl

theorem run_remove_link {graph : Graph} {source target : SocketId} {first second : Socket}
    (sourceFound : graph.socket? source = some first) (targetFound : graph.socket? target = some second)
    (apart : first.owner ≠ second.owner)
    (outgoing : .socket target ∈ first.outgoing) (incoming : .socket source ∈ second.incoming) :
    (List.forM [⟨source, false, .socket target⟩, ⟨target, true, .socket source⟩] remove).run graph =
      (.ok ⟨⟩, graph.withoutLink source target) := by
  have differ : source ≠ target := by
    rintro rfl
    exact apart (by rw [Option.some.inj (sourceFound.symm.trans targetFound)])
  have outgoingFound : (LinkEntry.listOf ⟨source, false, .socket target⟩ first).any
      (fun other => other.same (.socket target)) = true :=
    List.any_eq_true.mpr ⟨_, outgoing, same_socket_iff.mpr rfl⟩
  have incomingFound : (LinkEntry.listOf ⟨target, true, .socket source⟩ second).any
      (fun other => other.same (.socket source)) = true :=
    List.any_eq_true.mpr ⟨_, incoming, same_socket_iff.mpr rfl⟩
  have targetAfter : (graph.withoutEntry ⟨source, false, .socket target⟩).socket? target = some second := by
    rw [socket?_withoutEntry, if_neg differ, targetFound]
  have removedFirst := run_remove ⟨source, false, .socket target⟩ sourceFound
  have removedSecond := run_remove ⟨target, true, .socket source⟩ targetAfter
  rw [if_pos outgoingFound] at removedFirst
  rw [if_pos incomingFound] at removedSecond
  rw [forM_cons, run_bind_ok removedFirst, forM_cons, run_bind_ok removedSecond]
  rfl

/-- Only links both of whose entries are there pass the check before a removal. -/
theorem checkLinked_link_ok {graph : Graph} {source target : SocketId} {first second : Socket}
    (sourceFound : graph.socket? source = some first) (targetFound : graph.socket? target = some second)
    (checked : graph.checkLinked [⟨source, false, .socket target⟩, ⟨target, true, .socket source⟩] = .ok ⟨⟩) :
    .socket target ∈ first.outgoing ∧ .socket source ∈ second.incoming := by
  obtain ⟨firstSocket, firstHeld, checked⟩ := except_bind_eq_ok.mp checked
  obtain ⟨secondSocket, secondHeld, checked⟩ := except_bind_eq_ok.mp checked
  obtain rfl : first = firstSocket :=
    Option.some.inj (sourceFound.symm.trans (heldSocket_eq_ok.mp firstHeld))
  obtain rfl : second = secondSocket :=
    Option.some.inj (targetFound.symm.trans (heldSocket_eq_ok.mp secondHeld))
  simp only [LinkEntry.listOf, Bool.false_eq_true, ↓reduceIte, Bool.not_and, Bool.or_eq_true,
    Bool.not_eq_eq_eq_not, Bool.not_true] at checked
  split at checked
  · cases checked
  · next both =>
      simp only [not_or, Bool.not_eq_false, List.any_eq_true, same_socket_iff] at both
      obtain ⟨⟨outgoing, outgoingMember, rfl⟩, incoming, incomingMember, rfl⟩ := both
      exact ⟨outgoingMember, incomingMember⟩

theorem keeps_disconnect (viewer : ComponentId) (source target : Endpoint) :
    Keeps Changes (disconnect viewer source target) := by
  intro graph
  refine Keeps.query_bind_of fun entries planned => ?_
  refine Keeps.query_bind_of fun _ checked => ?_
  cases planLink_ok planned with
  | bound id incoming space socket found side =>
      rw [forM_cons]
      have removed := run_remove ⟨id, incoming, .space space⟩ found
      refine Keeps.bind_of ?_ fun _ _ => .refl
      split at removed
      · rw [after_of_run removed]
        exact .single (.unbind id incoming space)
      · rw [after_of_run removed]
  | linked source target first second sourceFound targetFound apart =>
      obtain ⟨outgoing, incoming⟩ := checkLinked_link_ok sourceFound targetFound checked
      rw [after_of_run (run_remove_link sourceFound targetFound apart outgoing incoming)]
      exact .single (.unlink source target first second sourceFound targetFound apart outgoing incoming)

/-! ### Sockets with spaces -/

theorem keeps_defineInputs (owner : ComponentId) (names : List String) (space : Option Space) :
    Keeps Changes (defineInputs owner names space) := by
  refine Keeps.bind (keeps_addSockets owner names (some .input) false) fun ids => ?_
  cases space with
  | none => exact Keeps.pure ids
  | some space =>
      exact Keeps.bind (Keeps.forM (fun id => keeps_connect owner (.space space) (.socket (.id id))) ids)
        fun _ => Keeps.pure ids

theorem keeps_defineOutputs (owner : ComponentId) (names : List String) :
    Keeps Changes (defineOutputs owner names) :=
  keeps_addSockets owner names (some .output) false

end Wiring.Graph
