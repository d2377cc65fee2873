import Wiring.Proofs.Blueprint.Counterparts
import Wiring.Proofs.Blueprint.RoundTrip
import Wiring.Proofs.Build.Moves

/-!
Contract: copies whose in-sockets are given spaces from outside.

Owns: `bindSpaces`, which binds spaces to in-sockets of a component by name, and the graph that it leaves;
`Retains`, by which a later graph is wired as before except for bound spaces; and that a pairing which matches
still does so then.
-/

namespace Wiring

/-- The socket with the spaces for its name bound to it, if it belongs to the component. -/
def Socket.feed (owner : ComponentId) (spaces : List (String × Space)) (socket : Socket) : Socket :=
  if socket.owner = owner then
    { socket with
      incoming := socket.incoming ++
        (spaces.filter fun entry => entry.1 = socket.name).map fun entry => .space entry.2 }
  else socket

theorem Socket.feed_other {owner : ComponentId} {socket : Socket} (other : socket.owner ≠ owner)
    (spaces : List (String × Space)) : socket.feed owner spaces = socket :=
  if_neg other

theorem Socket.face_feed (owner : ComponentId) (spaces : List (String × Space)) (socket : Socket) :
    (socket.feed owner spaces).face = socket.face := by
  unfold feed
  split
  · rfl
  · rfl

theorem Socket.outgoing_feed (owner : ComponentId) (spaces : List (String × Space)) (socket : Socket) :
    (socket.feed owner spaces).outgoing = socket.outgoing := by
  unfold feed
  split
  · rfl
  · rfl

theorem spaceEntries_bound (entries : List (String × Space)) :
    spaceEntries (entries.map fun entry => .space entry.2) = entries.map Prod.snd := by
  induction entries with
  | nil => rfl
  | cons first rest inductionHypothesis => exact congrArg (first.2 :: ·) inductionHypothesis

/-- A socket without bound spaces has those of its name afterwards. -/
theorem Socket.spaces_feed {owner : ComponentId} {socket : Socket} (own : socket.owner = owner)
    (unfed : spaceEntries socket.incoming = []) (spaces : List (String × Space)) :
    spaceEntries (socket.feed owner spaces).incoming =
      (spaces.filter fun entry => entry.1 = socket.name).map Prod.snd := by
  rw [feed, if_pos own, spaceEntries_append, unfed, List.nil_append]
  exact spaceEntries_bound _

namespace Graph

/-- Binds spaces to in-sockets of a component, one after the other. -/
def bindSpaces (owner : ComponentId) (spaces : List (String × Space)) : GraphM Unit :=
  spaces.forM fun entry => connect owner (.space entry.2) (.socket (.named entry.1))

theorem resolve_named_ok {graph : Graph} {viewer : ComponentId} {name : String} {side : Option Side} {id : SocketId}
    (resolved : graph.resolve viewer (.named name) side = .ok id) :
    graph.socketNamed? viewer name side = .ok (some id) := by
  rcases except_bind_eq_ok.mp resolved with ⟨node, -, resolved⟩
  rcases except_bind_eq_ok.mp resolved with ⟨answer, named, resolved⟩
  cases answer with
  | none =>
      rcases except_bind_eq_ok.mp resolved with ⟨owner, -, failed⟩
      cases failed
  | some found =>
      obtain rfl := Except.ok.inj resolved
      exact named

/-- Binding a space by name succeeds at a socket of that name only. -/
theorem connect_space_ok {graph later : Graph} (sound : SocketsSound graph) {owner : ComponentId} {space : Space}
    {name : String} {answer : Unit}
    (ran : (connect owner (.space space) (.socket (.named name))).run graph = (.ok answer, later)) :
    ∃ id socket, graph.socket? id = some socket ∧ socket.owner = owner ∧ socket.name = name ∧
      later = graph.withEntry ⟨id, true, .space space⟩ := by
  rcases of_run_bind_ok ran with ⟨entries, middle, asked, ran⟩
  obtain rfl : graph = middle := congrArg Prod.snd asked
  have planned : graph.planLink owner (.space space) (.socket (.named name)) = .ok entries := congrArg Prod.fst asked
  rcases except_bind_eq_ok.mp planned with ⟨source, atSource, planned⟩
  obtain rfl := Except.ok.inj atSource
  rcases except_bind_eq_ok.mp planned with ⟨target, atTarget, planned⟩
  rcases except_map_eq_ok.mp atTarget with ⟨id, resolved, rfl⟩
  rcases socketNamed_ok (resolve_named_ok resolved) with ⟨node, found, listed, socket, held, named⟩
  rcases (sound.mem_sockets found).mp listed with ⟨_, again, owned⟩
  obtain rfl := Option.some.inj (held.symm.trans again)
  rcases except_bind_eq_ok.mp planned with ⟨_, again, planned⟩
  obtain rfl := Option.some.inj (held.symm.trans (heldSocket_eq_ok.mp again))
  refine ⟨id, socket, held, owned, named, ?_⟩
  by_cases side : socket.side = .input
  · rw [if_pos side] at planned
    obtain rfl := Except.ok.inj planned
    rw [run_append_bound held] at ran
    exact (congrArg Prod.snd ran).symm
  · rw [if_neg side] at planned
    cases planned

/-- Spaces that could be bound are bound to the sockets of their names, and nothing else has changed. -/
theorem bindSpaces_ok {graph later : Graph} (sound : Sound graph) {owner : ComponentId}
    {spaces : List (String × Space)} {answer : Unit}
    (ran : (bindSpaces owner spaces).run graph = (.ok answer, later)) :
    Sound later ∧ (∀ id, later.component? id = graph.component? id) ∧
      (∀ id, later.computation? id = graph.computation? id) ∧
      ∀ id, later.socket? id = (graph.socket? id).map (Socket.feed owner spaces) := by
  induction spaces generalizing graph with
  | nil =>
      obtain rfl : graph = later := congrArg Prod.snd ran
      refine ⟨sound, fun _ => rfl, fun _ => rfl, fun id => ?_⟩
      cases graph.socket? id with
      | none => rfl
      | some socket => simp [Socket.feed]
  | cons first rest inductionHypothesis =>
      rcases of_run_bind_ok ran with ⟨_, middle, bound, ran⟩
      have soundAfter := sound.changes (keeps_connect owner (.space first.2) (.socket (.named first.1)) graph)
      rw [after_of_run bound] at soundAfter
      rcases connect_space_ok sound.sockets bound with ⟨target, socket, held, owned, named, rfl⟩
      rcases inductionHypothesis soundAfter ran with ⟨soundLater, components, computations, sockets⟩
      refine ⟨soundLater, fun id => (components id).trans (component?_withEntry graph _ id),
        fun id => (computations id).trans (computation?_withEntry graph _ id), fun id => ?_⟩
      rw [sockets id, socket?_withEntry]
      by_cases same : target = id
      · subst same
        rw [if_pos rfl, held]
        simp [Socket.feed, LinkEntry.setList, LinkEntry.listOf, owned, named]
      · rw [if_neg same]
        cases other : graph.socket? id with
        | none => rfl
        | some second =>
            -- Another socket of the component has another name.
            refine congrArg some ?_
            by_cases own : second.owner = owner
            · have differ : first.1 ≠ second.name := by
                rw [← named]
                exact mt (sound.sockets.named target id socket second held other (owned.trans own.symm)) same
              simp [Socket.feed, own, differ]
            · rw [Socket.feed_other own, Socket.feed_other own]

/-! ### Graphs that are wired as before -/

/-- Everything stays and is wired as before, up to what is entered at the incoming side of sockets. -/
structure Retains (graph later : Graph) : Prop where
  component : ∀ id node, graph.component? id = some node →
    ∃ new, later.component? id = some new ∧ new.wiring = node.wiring
  socket : ∀ id socket, graph.socket? id = some socket →
    ∃ new, later.socket? id = some new ∧ new.face = socket.face ∧ new.outgoing = socket.outgoing
  computation : ∀ id computation, graph.computation? id = some computation →
    later.computation? id = some computation

namespace Retains

variable {graph later : Graph}

theorem trans {middle : Graph} (first : Retains graph middle) (second : Retains middle later) :
    Retains graph later where
  component id node found := by
    rcases first.component id node found with ⟨between, betweenFound, same⟩
    rcases second.component id between betweenFound with ⟨new, newFound, sameLater⟩
    exact ⟨new, newFound, sameLater.trans same⟩
  socket id socket held := by
    rcases first.socket id socket held with ⟨between, betweenHeld, face, outgoing⟩
    rcases second.socket id between betweenHeld with ⟨new, newHeld, faceLater, outgoingLater⟩
    exact ⟨new, newHeld, faceLater.trans face, outgoingLater.trans outgoing⟩
  computation id computation found :=
    second.computation id computation (first.computation id computation found)

theorem of_extends (extended : Extends graph later) : Retains graph later where
  component id node found := ⟨node, extended.component id node found, rfl⟩
  socket id socket held := ⟨socket, extended.socket id socket held, rfl, rfl⟩
  computation := extended.computation

theorem of_wiring (same : later.wiring = graph.wiring) : Retains graph later where
  component id node found :=
    exists_of_map_eq (componentView_of_wiring (fun _ => rfl) same.symm id) found |>.imp fun new kept =>
      ⟨kept.1, kept.2.symm⟩
  socket id socket held := by
    rcases socket?_of_wiring same.symm held with ⟨new, newHeld, kept⟩
    refine ⟨new, newHeld, ?_, (Socket.fields_of_wiring kept).2.2.1.symm⟩
    show new.wiring.face = socket.wiring.face
    rw [kept]
  computation id computation found := by
    rw [computation?_of_wiring same, found]

theorem of_bindSpaces {owner : ComponentId} {spaces : List (String × Space)}
    (components : ∀ id, later.component? id = graph.component? id)
    (computations : ∀ id, later.computation? id = graph.computation? id)
    (sockets : ∀ id, later.socket? id = (graph.socket? id).map (Socket.feed owner spaces)) :
    Retains graph later where
  component id node found := ⟨node, (components id).trans found, rfl⟩
  socket id socket held := by
    refine ⟨socket.feed owner spaces, ?_, socket.face_feed owner spaces, socket.outgoing_feed owner spaces⟩
    rw [sockets, held]
    rfl
  computation id computation found := (computations id).trans found

/-- The traversal visits the same components. -/
theorem visits (retains : Retains graph later) {waiting visited : List ComponentId}
    (visits : graph.Visits waiting visited) : later.Visits waiting visited := by
  refine visits.of_children fun id node found => ?_
  rcases retains.component id node found with ⟨new, newFound, same⟩
  have children : new.wiring.children = node.wiring.children := congrArg Component.children same
  exact ⟨new, newFound, children⟩

theorem subtree (retains : Retains graph later) {root : ComponentId} {members membersLater : List ComponentId}
    (listed : graph.subtree root = .ok members) (listedLater : later.subtree root = .ok membersLater) :
    members = membersLater :=
  (retains.visits (subtree_visits listed)).unique (subtree_visits listedLater)

end Retains

/-- What is paired stays wired alike. -/
theorem matches_of_retains {pairing : Pairing} {left right leftLater rightLater : Graph}
    (matched : pairing.Matches left right) (retains : Retains left leftLater)
    (retainsToo : Retains right rightLater) : pairing.Matches leftLater rightLater where
  components := matched.components
  sockets := matched.sockets
  computations := matched.computations
  node a b pair := by
    rcases matched.node a b pair with ⟨node, other, found, foundToo, nodes⟩
    rcases retains.component a node found with ⟨new, newFound, same⟩
    rcases retainsToo.component b other foundToo with ⟨newToo, newFoundToo, sameToo⟩
    rcases Component.fields_of_wiring same with ⟨-, inputs, outputs, internals, methods, sources, -⟩
    rcases Component.fields_of_wiring sameToo with ⟨-, inputsToo, outputsToo, internalsToo, methodsToo, sourcesToo, -⟩
    refine ⟨new, newToo, newFound, newFoundToo, ?_, ?_, ?_, ?_⟩
    · rw [methods, methodsToo, nodes.methods]
    · rw [Component.sockets, Component.sockets, inputs, outputs, internals, inputsToo, outputsToo, internalsToo]
      exact nodes.sockets
    · rw [inputs, inputsToo]
      exact nodes.inputs
    · rw [sources, sourcesToo]
      exact nodes.sources
  port a b pair := by
    rcases matched.port a b pair with ⟨socket, other, held, heldToo, ports⟩
    rcases retains.socket a socket held with ⟨new, newHeld, face, outgoing⟩
    rcases retainsToo.socket b other heldToo with ⟨newToo, newHeldToo, faceToo, outgoingToo⟩
    refine ⟨new, newToo, newHeld, newHeldToo, ?_, ?_, ?_⟩
    · rw [Socket.owner_of_face face, Socket.owner_of_face faceToo]
      exact ports.owner
    · show new.face.isInterfaceInput = newToo.face.isInterfaceInput
      rw [face, faceToo]
      exact ports.interface
    · rw [outgoing, outgoingToo]
      exact ports.outgoing
  work a b pair := by
    rcases matched.work a b pair with ⟨computation, other, found, foundToo, works⟩
    exact ⟨computation, other, retains.computation a computation found, retainsToo.computation b other foundToo,
      works⟩

end Graph

end Wiring
