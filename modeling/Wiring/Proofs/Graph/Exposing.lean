import Wiring.Proofs.Graph.Ports

/-!
Contract: which links an addition makes, and which sockets.

Owns: `ShownLink`, a link between a socket of a child and the socket of the parent that shows it; `Showing`, by which
exposed sockets have one link each, sockets of the parent were made for names that were free, and nothing else about
sockets has changed; that every addition in a reachable graph shows what it selects; and `OneSided`, the condition
under which all of its links join sockets of one side.

Does not own: which additions succeed.
-/

namespace Wiring

/-- A link between a socket of a child and the socket of the parent that shows it. -/
structure ShownLink where
  inner : SocketId
  outer : SocketId
  /-- The side of the socket of the child. -/
  side : Side

namespace ShownLink

/-- In-sockets of the child are fed. -/
def source (link : ShownLink) : SocketId :=
  match link.side with
  | .input => link.outer
  | .output => link.inner

def target (link : ShownLink) : SocketId :=
  match link.side with
  | .input => link.inner
  | .output => link.outer

theorem source_mem (link : ShownLink) : link.source = link.inner ∨ link.source = link.outer := by
  unfold source
  cases link.side with
  | input => exact .inr rfl
  | output => exact .inl rfl

theorem target_mem (link : ShownLink) : link.target = link.inner ∨ link.target = link.outer := by
  unfold target
  cases link.side with
  | input => exact .inl rfl
  | output => exact .inr rfl

end ShownLink

/-- The socket with the entries of the links behind those that it has. -/
def Socket.withLinks (links : List ShownLink) (id : SocketId) (socket : Socket) : Socket :=
  { socket with
    outgoing := socket.outgoing ++ (links.filter (·.source = id)).map fun link => .socket link.target
    incoming := socket.incoming ++ (links.filter (·.target = id)).map fun link => .socket link.source }

namespace Socket

theorem withLinks_append (left right : List ShownLink) (id : SocketId) (socket : Socket) :
    (socket.withLinks left id).withLinks right id = socket.withLinks (left ++ right) id := by
  simp [withLinks, List.append_assoc]

/-- Links between other sockets add nothing. -/
theorem withLinks_of_ne {links : List ShownLink} {id : SocketId}
    (elsewhere : ∀ link ∈ links, link.inner ≠ id ∧ link.outer ≠ id) (socket : Socket) :
    socket.withLinks links id = socket := by
  have none {place : ShownLink → SocketId} (ends : ∀ link, place link = link.inner ∨ place link = link.outer) :
      links.filter (place · = id) = [] := List.filter_eq_nil_iff.mpr fun link listed here => by
    rcases ends link with same | same <;> rw [decide_eq_true_eq, same] at here
    · exact (elsewhere link listed).1 here
    · exact (elsewhere link listed).2 here
  simp [withLinks, none ShownLink.source_mem, none ShownLink.target_mem]

end Socket

namespace Graph

theorem socket?_withShown (graph : Graph) (side : Side) (inner outer id : SocketId) :
    (graph.withShown side inner outer).socket? id =
      (graph.socket? id).map (Socket.withLinks [⟨inner, outer, side⟩] id) := by
  cases side with
  | input =>
      refine (socket?_withLink graph outer inner id).trans (congrArg (Option.map · _) (funext fun socket => ?_))
      by_cases isSource : outer = id <;> by_cases isTarget : inner = id <;>
        simp [Socket.withLinks, ShownLink.source, ShownLink.target, isSource, isTarget]
  | output =>
      refine (socket?_withLink graph inner outer id).trans (congrArg (Option.map · _) (funext fun socket => ?_))
      by_cases isSource : inner = id <;> by_cases isTarget : outer = id <;>
        simp [Socket.withLinks, ShownLink.source, ShownLink.target, isSource, isTarget]

/-! ### Shown sockets -/

/-- Sockets of the child are shown by the parent as planned. -/
structure Showing (graph : Graph) (parent child : ComponentId) (plans : List Exposed) (links : List ShownLink)
    (final : Graph) : Prop where
  /-- There is one link for every exposed socket, to the socket that the parent has under the exposed name. -/
  linked : List.Forall₂ (fun plan link => graph.Names child plan.socket link.inner ∧
    final.Names parent plan.exposed link.outer ∧ link.side = plan.side) plans links
  /-- What was there has new entries for the links only. -/
  kept : ∀ id socket, graph.socket? id = some socket → final.socket? id = some (socket.withLinks links id)
  /-- A new socket was made for the first socket exposed under a name that the parent did not have. -/
  made : ∀ id socket, graph.socket? id = none → final.socket? id = some socket →
    ∃ plan, plans.find? (fun plan => plan.exposed = socket.name) = some plan ∧
      (∀ other, ¬ graph.Names parent socket.name other) ∧
      socket = Socket.withLinks links id { name := plan.exposed, side := plan.side, internal := false, owner := parent }

namespace Showing

variable {graph middle final : Graph} {parent child : ComponentId} {plans others : List Exposed}
  {links more : List ShownLink}

theorem names (showing : Showing graph parent child plans links final) {owner : ComponentId} {name : String}
    {id : SocketId} (known : graph.Names owner name id) : final.Names owner name id := by
  rcases known with ⟨socket, held, owned, named⟩
  exact ⟨_, showing.kept id socket held, owned, named⟩

/-- New sockets belong to the parent. -/
theorem names_child (showing : Showing graph parent child plans links final) (apart : parent ≠ child) {name : String}
    {id : SocketId} (known : final.Names child name id) : graph.Names child name id := by
  rcases known with ⟨socket, held, owned, named⟩
  cases before : graph.socket? id with
  | none =>
      rcases showing.made id socket before held with ⟨plan, -, -, rfl⟩
      exact absurd owned apart
  | some old =>
      obtain rfl := Option.some.inj ((showing.kept id old before).symm.trans held)
      exact ⟨old, before, owned, named⟩

theorem refl (graph : Graph) (parent child : ComponentId) : Showing graph parent child [] [] graph where
  linked := .nil
  kept id socket held := by
    rw [held, Socket.withLinks_of_ne (by simp)]
  made id socket before held := by
    rw [before] at held
    cases held

/-- One socket after the other is shown. -/
theorem append (showing : Showing graph parent child plans links middle)
    (next : Showing middle parent child others more final) (apart : parent ≠ child) :
    Showing graph parent child (plans ++ others) (links ++ more) final where
  linked := by
    refine List.rel_append (showing.linked.imp fun plan link ends => ?_) (next.linked.imp fun plan link ends => ?_)
    · exact ⟨ends.1, next.names ends.2.1, ends.2.2⟩
    · exact ⟨showing.names_child apart ends.1, ends.2⟩
  kept id socket held := by
    rw [next.kept id _ (showing.kept id socket held), Socket.withLinks_append]
  made id socket before held := by
    cases between : middle.socket? id with
    | some old =>
        rcases showing.made id old before between with ⟨plan, first, free, rfl⟩
        obtain rfl := Option.some.inj ((next.kept id _ between).symm.trans held)
        refine ⟨plan, ?_, free, Socket.withLinks_append _ _ _ _⟩
        rw [List.find?_append]
        exact Option.or_eq_some_iff.mpr (.inl first)
    | none =>
        rcases next.made id socket between held with ⟨plan, first, free, same⟩
        -- No socket before has been exposed under the name, and no link before leads to this one.
        have unnamed : plans.find? (fun plan => plan.exposed = socket.name) = none := by
          refine List.find?_eq_none.mpr fun other listed named => ?_
          rcases forall₂_of_mem_left showing.linked listed with ⟨link, -, -, above, -⟩
          exact free _ (of_decide_eq_true named ▸ above)
        have elsewhere : ∀ link ∈ links, link.inner ≠ id ∧ link.outer ≠ id := by
          intro link listed
          rcases forall₂_of_mem_right showing.linked listed with
            ⟨other, -, ⟨below, belowHeld, -⟩, ⟨above, aboveHeld, -⟩, -⟩
          constructor
          · rintro rfl
            rw [before] at belowHeld
            cases belowHeld
          · rintro rfl
            rw [between] at aboveHeld
            cases aboveHeld
        refine ⟨plan, ?_, fun other known => free other (showing.names known), ?_⟩
        · rw [List.find?_append, unnamed, first]
          rfl
        · rw [← Socket.withLinks_append, Socket.withLinks_of_ne elsewhere]
          exact same

/-- What is made of one exposed socket. -/
theorem of_exposes {plan : Exposed} {inner outer : SocketId}
    (exposes : Exposes graph parent child plan inner outer final) :
    Showing graph parent child [plan] [⟨inner, outer, plan.side⟩] final := by
  have names {name : String} {owner : ComponentId} {id : SocketId} (known : graph.Names owner name id) :
      final.Names owner name id := known.kept exposes.keepsFaces
  cases exposes with
  | linked outer below above =>
      refine ⟨.cons ⟨below, names above, rfl⟩ .nil, fun id socket held => ?_, fun id socket before held => ?_⟩
      · rw [socket?_withShown, held]
        rfl
      · rw [socket?_withShown, before] at held
        cases held
  | made below free =>
      have new := socket?_withShown (graph.withSocket parent false plan.exposed plan.side) plan.side inner
        graph.nextSocket graph.nextSocket
      rw [socket?_withSocket, if_pos rfl] at new
      refine ⟨.cons ⟨below, ⟨_, new, rfl, rfl⟩, rfl⟩ .nil, fun id socket held => ?_, fun id socket before held => ?_⟩
      · rw [socket?_withShown, socket?_withSocket_of_some held]
        rfl
      · by_cases isNew : id = graph.nextSocket
        · subst isNew
          obtain rfl := Option.some.inj (new.symm.trans held)
          exact ⟨plan, List.find?_cons_of_pos (by simp [Socket.withLinks]), free, rfl⟩
        · rw [socket?_withShown, socket?_withSocket, if_neg isNew, before] at held
          cases held

/-- Different sockets of the child have different links. -/
theorem nodup_inner (showing : Showing graph parent child plans links final)
    (distinct : (plans.map Exposed.socket).Nodup) : (links.map ShownLink.inner).Nodup := by
  have related : List.Forall₂ (fun name inner => graph.Names child name inner) (plans.map Exposed.socket)
      (links.map ShownLink.inner) := by
    rw [List.forall₂_map_left_iff, List.forall₂_map_right_iff]
    exact showing.linked.imp fun _ _ ends => ends.1
  refine nodup_of_forall₂ related distinct fun left _ right _ inner leftNamed rightNamed => ?_
  rcases leftNamed with ⟨socket, held, -, rfl⟩
  rcases rightNamed with ⟨other, otherHeld, -, rfl⟩
  rw [Option.some.inj (held.symm.trans otherHeld)]

end Showing

/-- Exposed sockets are shown one after the other. -/
theorem Sound.showing (sound : Sound graph) {parent child : ComponentId} {node : Component}
    (found : graph.component? parent = some node) (apart : parent ≠ child) {plans : List Exposed} {final : Graph}
    (inner : ∀ plan ∈ plans, graph.Shows child plan.socket)
    (exposed : (plans.forM (expose parent child)).run graph = (.ok ⟨⟩, final)) :
    ∃ links, Showing graph parent child plans links final := by
  induction plans generalizing graph node with
  | nil =>
      obtain rfl : graph = final := congrArg Prod.snd exposed
      exact ⟨[], .refl graph parent child⟩
  | cons first rest inductionHypothesis =>
      rcases inner first List.mem_cons_self with ⟨below, names⟩
      rcases sound.run_expose found apart names with ⟨outer, middle, ran, exposes⟩
      have soundAfter := sound.changes (keeps_expose parent child first graph)
      rw [after_of_run ran] at soundAfter
      rcases exposes.keepsFaces.component parent node found with ⟨grown, foundAfter⟩
      rw [forM_cons, run_bind_ok ran] at exposed
      rcases inductionHypothesis soundAfter foundAfter (fun plan member =>
        (inner plan (List.mem_cons_of_mem first member)).kept exposes.keepsFaces) exposed with ⟨links, showing⟩
      exact ⟨_, (Showing.of_exposes exposes).append showing apart⟩

/-! ### Selections -/

/-- A socket is selected once, however often the exposure names it. -/
theorem distinctKeys_of_selection {graph : Graph} {node : Component} {exposure : Exposure} {selected : Keyed String}
    (selects : graph.selection node exposure = .ok selected) : Keyed.DistinctKeys selected := by
  have gathered {answer : Except Error (List String)}
      (selects : (do return Keyed.ofList ((← answer).map fun name => (name, name))) = Except.ok selected) :
      Keyed.DistinctKeys selected := by
    obtain ⟨names, -, same⟩ := except_bind_eq_ok.mp selects
    exact Except.ok.inj same ▸ Keyed.distinctKeys_ofList _
  cases exposure with
  | nothing => exact Except.ok.inj selects ▸ Keyed.distinctKeys_nil
  | socket name => exact Except.ok.inj selects ▸ List.nodup_singleton _
  | sockets entries => exact Except.ok.inj selects ▸ Keyed.distinctKeys_ofList _
  | inputs => exact gathered selects
  | outputs => exact gathered selects
  | all => exact gathered selects

theorem sockets_of_selects {graph : Graph} {child : ComponentId} {selected : Keyed String} {plans : List Exposed}
    (each : List.Forall₂ (Selects graph child) selected plans) : plans.map Exposed.socket = Keyed.keys selected := by
  induction each with
  | nil => rfl
  | cons first _ inductionHypothesis =>
      rcases first with ⟨id, socket, -, -, rfl⟩
      rw [List.map_cons, inductionHypothesis]
      rfl

/-! ### Sides -/

/-- Every name that the parent shows stands for one side: that of the socket that the parent has under it, if it has
one, and of all sockets that are exposed under it. -/
structure OneSided (graph : Graph) (parent : ComponentId) (plans : List Exposed) : Prop where
  parent : ∀ plan ∈ plans, ∀ id socket, graph.socket? id = some socket → socket.owner = parent →
    socket.name = plan.exposed → socket.side = plan.side
  plans : ∀ plan ∈ plans, ∀ other ∈ plans, plan.exposed = other.exposed → plan.side = other.side

/-- The links join sockets of one side exactly if no name stands for both. -/
theorem Showing.sides_iff {graph final : Graph} {parent child : ComponentId} {plans : List Exposed}
    {links : List ShownLink} (showing : Showing graph parent child plans links final) (sound : SocketsSound final) :
    (∀ link ∈ links, ∀ socket, final.socket? link.outer = some socket → socket.side = link.side) ↔
      OneSided graph parent plans := by
  constructor
  · intro joins
    have shown {plan : Exposed} (listed : plan ∈ plans) {id : SocketId} {socket : Socket}
        (held : final.socket? id = some socket) (owned : socket.owner = parent) (named : socket.name = plan.exposed) :
        socket.side = plan.side := by
      rcases forall₂_of_mem_left showing.linked listed with ⟨link, member, -, above, side⟩
      obtain rfl := sound.names_unique above ⟨socket, held, owned, named⟩
      exact (joins link member socket held).trans side
    refine ⟨fun plan listed id socket held owned named => ?_, fun plan listed other otherListed same => ?_⟩
    · have same := shown listed (showing.kept id socket held) owned named
      exact same
    · rcases forall₂_of_mem_left showing.linked listed with ⟨link, -, -, ⟨socket, held, owned, named⟩, -⟩
      exact (shown listed held owned named).symm.trans (shown otherListed held owned (named.trans same))
  · intro oneSided link member socket held
    rcases forall₂_of_mem_right showing.linked member with ⟨plan, listed, -, ⟨_, again, owned, named⟩, side⟩
    obtain rfl := Option.some.inj (held.symm.trans again)
    rw [side]
    cases before : graph.socket? link.outer with
    | some old =>
        obtain rfl := Option.some.inj ((showing.kept _ old before).symm.trans held)
        exact oneSided.parent plan listed _ old before owned named
    | none =>
        rcases showing.made _ socket before held with ⟨first, found, -, same⟩
        have exposed : first.exposed = socket.name := by simpa using List.find?_some found
        rw [same]
        exact oneSided.plans first (List.mem_of_find?_eq_some found) plan listed (exposed.trans named)

/-- An addition makes one link for each selected socket of the child: an in-socket is fed by the socket that the
parent then has under the exposed name, an out-socket feeds it. Such a socket is made only where the parent had none
of the name, for the first socket exposed under it; all other sockets stay as they are. The socket of the parent has
the side of the child's, in all links, exactly if every exposed name stands for one side only. -/
theorem Reachable.add_shows {graph final : Graph} (reachable : graph.Reachable) {parent child : ComponentId}
    {exposure : Exposure} (added : (add parent child exposure).run graph = (.ok ⟨⟩, final)) :
    ∃ node selected plans links, graph.component? child = some node ∧
      graph.selection node exposure = .ok selected ∧ Keyed.DistinctKeys selected ∧
      List.Forall₂ (Selects graph child) selected plans ∧ (links.map ShownLink.inner).Nodup ∧
      Showing graph parent child plans links final ∧
      ((∀ link ∈ links, ∀ socket, final.socket? link.outer = some socket → socket.side = link.side) ↔
        OneSided graph parent plans) := by
  have sound := reachable.sound
  have soundAfter : Sound final := by
    have later := sound.changes (keeps_add parent child exposure graph)
    rwa [after_of_run added] at later
  obtain ⟨⟨name, plans⟩, middle, planned, exposed⟩ := of_run_bind_ok added
  rw [run_query] at planned
  obtain rfl : graph = middle := congrArg Prod.snd planned
  have planned : graph.planAdd parent child exposure = .ok (name, plans) := congrArg Prod.fst planned
  obtain ⟨plan, selected, selects, each⟩ := planAdd_checked planned
  have shown : ∀ plan ∈ plans, (graph.withChild parent child name).Shows child plan.socket :=
    planAdd_shows sound.sockets planned
  obtain ⟨node, found⟩ := plan.found_withChild
  have attached := run_attach plan.parentFound plan.childFound name (plans.forM (expose parent child))
  obtain ⟨links, showing⟩ := (plan.sound_withChild sound).showing found plan.apart shown
    (attached.symm.trans exposed)
  -- The new parent is no part of what is said about sockets.
  have showing : Showing graph parent child plans links final := ⟨showing.linked, showing.kept, showing.made⟩
  have distinct := distinctKeys_of_selection selects
  refine ⟨plan.childNode, selected, plans, links, plan.childFound, selects, distinct, each, ?_, showing,
    showing.sides_iff soundAfter.sockets⟩
  exact showing.nodup_inner (sockets_of_selects each ▸ distinct)

/-- A component with an out-socket, and another one beside it with an in-socket and an out-socket. -/
def unassembled : GraphM Unit := do
  let whole ← create { scope := "whole" }
  let _ ← addSockets whole ["go"] (some .output) false
  let part ← create { scope := "part" }
  let _ ← addSockets part ["start"] (some .input) false
  let _ ← addSockets part ["end"] (some .output) false

theorem keeps_unassembled : Keeps Reaches unassembled := by
  refine Keeps.bind (Reaches.create _) fun whole => ?_
  refine Keeps.bind (Reaches.addSockets whole _ _ _) fun _ => ?_
  refine Keeps.bind (Reaches.create _) fun part => ?_
  refine Keeps.bind (Reaches.addSockets part _ _ _) fun _ => ?_
  exact Keeps.bind (Reaches.addSockets part _ _ _) fun _ => Keeps.pure _

theorem reachable_unassembled : (after unassembled {}).Reachable :=
  (reachable_empty {}).reaches (keeps_unassembled {})

/-- The out-socket of the part is shown under the name that is there, its in-socket under a new one. -/
theorem add_shows_unassembled :
    ∃ final plans links,
      (add ⟨0⟩ ⟨1⟩ (.sockets [.rename "end" "go", .keep "start"])).run (after unassembled {}) = (.ok ⟨⟩, final) ∧
      List.Forall₂ (Selects (after unassembled {}) ⟨1⟩) [("end", "go"), ("start", "start")] plans ∧
      Showing (after unassembled {}) ⟨0⟩ ⟨1⟩ plans links final := by
  have ran : ∃ final,
      (add ⟨0⟩ ⟨1⟩ (.sockets [.rename "end" "go", .keep "start"])).run (after unassembled {}) = (.ok ⟨⟩, final) :=
    ⟨_, rfl⟩
  obtain ⟨final, ran⟩ := ran
  obtain ⟨node, selected, plans, links, -, selects, -, each, -, showing, -⟩ :=
    Reachable.add_shows reachable_unassembled ran
  obtain rfl : [("end", "go"), ("start", "start")] = selected := Except.ok.inj selects
  exact ⟨final, plans, links, ran, each, showing⟩

/-- An in-socket that is exposed under the name of an out-socket is fed by that one. -/
theorem add_feeds_from_output :
    (after unassembled {}).Reachable ∧ ∃ final inner outer,
      (add ⟨0⟩ ⟨1⟩ (.sockets [.rename "start" "go"])).run (after unassembled {}) = (.ok ⟨⟩, final) ∧
      final.socket? ⟨1⟩ = some inner ∧ inner.owner = ⟨1⟩ ∧ inner.name = "start" ∧ inner.side = .input ∧
      inner.incoming = [.socket ⟨0⟩] ∧
      final.socket? ⟨0⟩ = some outer ∧ outer.owner = ⟨0⟩ ∧ outer.name = "go" ∧ outer.side = .output :=
  ⟨reachable_unassembled, _, _, _, rfl, rfl, rfl, rfl, rfl, rfl, rfl, rfl, rfl, rfl⟩

end Graph

end Wiring
