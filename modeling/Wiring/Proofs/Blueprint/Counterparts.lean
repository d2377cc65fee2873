import Wiring.Proofs.Blueprint.Restored
import Wiring.Proofs.Build.Pairing

/-!
Contract: components with the same blueprint are wired alike.

Owns: `Counterparts`, computations at the same position of twins; the pairing of everything below two roots
that are shown alike; and that this pairing matches, if both sides show the same links and nothing is connected
in another order than blueprints give.
-/

namespace Wiring

/-- Of connections in order, those that carry ops are the computations and then the sockets. -/
theorem ComputationsFirst.carrying_eq {connections : List Connection} (order : ComputationsFirst connections) :
    carrying connections = (computationEntries connections).map .computation ++
      (socketEntries connections).map .socket := by
  induction connections with
  | nil => rfl
  | cons first rest inductionHypothesis =>
      rcases List.pairwise_cons.mp order with ⟨before, order⟩
      have later := inductionHypothesis order
      cases first with
      | space space => exact later
      | computation id => exact congrArg (Connection.computation id :: ·) later
      | socket id =>
          have noComputations : computationEntries rest = [] := by
            refine List.filterMap_eq_nil_iff.mpr fun connection member => ?_
            exact (before connection member).resolve_left (by simp)
          show Connection.socket id :: carrying rest = (computationEntries rest).map .computation ++
            .socket id :: (socketEntries rest).map .socket
          rw [later, noComputations]
          rfl

namespace Graph

/-- Computations at the same position of twins. -/
def Counterparts (left right : Graph) (first second : ComponentId) (a b : ComputationId) : Prop :=
  ∃ i j node other, ∃ position : Nat, Twins left right first second i j ∧ left.component? i = some node ∧
    right.component? j = some other ∧ node.computations[position]? = some a ∧ other.computations[position]? = some b

/-- Whatever is at the same place below two roots. -/
def counterparts (left right : Graph) (first second : ComponentId) : Pairing where
  component := Twins left right first second
  socket := Mates left right first second
  computation := Counterparts left right first second

/-! ### Lists in step -/

theorem forall₂_of_getElem? {α β : Type} {relates : α → β → Prop} {items : List α} {values : List β}
    (lengths : items.length = values.length)
    (each : ∀ (position : Nat) item value, items[position]? = some item → values[position]? = some value →
      relates item value) : List.Forall₂ relates items values := by
  refine List.forall₂_iff_get.mpr ⟨lengths, fun position bound boundToo => ?_⟩
  exact each position _ _ (List.getElem?_eq_getElem bound) (List.getElem?_eq_getElem boundToo)

theorem forall₂_of_map_eq {α β γ : Type} {items : List α} {values : List β} {first : α → γ} {second : β → γ}
    (same : items.map first = values.map second) :
    List.Forall₂ (fun item value => first item = second value) items values := by
  have equal : List.Forall₂ Eq (items.map first) (values.map second) := by
    rw [List.forall₂_eq_eq_eq, same]
  exact List.forall₂_map_right_iff.mp (List.forall₂_map_left_iff.mp equal)

theorem forall₂_mem {α β : Type} {relates : α → β → Prop} {items : List α} {values : List β}
    (all : List.Forall₂ relates items values) :
    List.Forall₂ (fun item value => item ∈ items ∧ value ∈ values ∧ relates item value) items values := by
  induction all with
  | nil => exact .nil
  | cons head _ inductionHypothesis =>
      refine .cons ⟨List.mem_cons_self, List.mem_cons_self, head⟩ (inductionHypothesis.imp fun item value related => ?_)
      exact ⟨List.mem_cons_of_mem _ related.1, List.mem_cons_of_mem _ related.2.1, related.2.2⟩

theorem count_pairs {relates : SocketId → SocketId → Prop} (unique : Relator.BiUnique relates)
    {items values : List SocketId} (all : List.Forall₂ relates items values) {a b : SocketId} (pair : relates a b) :
    items.count a = values.count b := by
  induction all with
  | nil => rfl
  | cons head _ inductionHypothesis =>
      rw [List.count_cons, List.count_cons, inductionHypothesis]
      have same := Relator.rel_eq unique head pair
      simp [same]

theorem forall₂_replicate {α β : Type} {relates : α → β → Prop} {a : α} {b : β} (pair : relates a b) (count : Nat) :
    List.Forall₂ relates (List.replicate count a) (List.replicate count b) := by
  induction count with
  | zero => exact .nil
  | succ count inductionHypothesis => exact .cons pair inductionHypothesis

/-- In-sockets are told from the other sockets of a component by their kind. -/
theorem PortsSound.inputs_eq {graph : Graph} {owner : ComponentId} {node : Component}
    (ports : PortsSound graph owner node) :
    node.inputs = node.sockets.filter fun id => (graph.socket? id).any Socket.isInterfaceInput := by
  have kept : node.inputs.filter (fun id => (graph.socket? id).any Socket.isInterfaceInput) = node.inputs := by
    refine List.filter_eq_self.mpr fun id member => ?_
    rcases (ports.inputs id).mp member with ⟨socket, held, -, kind⟩
    simpa [held] using kind
  have outputs : node.outputs.filter (fun id => (graph.socket? id).any Socket.isInterfaceInput) = [] := by
    refine List.filter_eq_nil_iff.mpr fun id member => ?_
    rcases (ports.outputs id).mp member with ⟨socket, held, -, kind⟩
    simp only [Socket.isInterfaceOutput, Bool.and_eq_true, decide_eq_true_eq] at kind
    simp [held, Socket.isInterfaceInput, kind]
  have internals : node.internals.filter (fun id => (graph.socket? id).any Socket.isInterfaceInput) = [] := by
    refine List.filter_eq_nil_iff.mpr fun id member => ?_
    rcases (ports.internals id).mp member with ⟨socket, held, -, kind⟩
    simp [held, Socket.isInterfaceInput, kind]
  rw [Component.sockets, List.filter_append, List.filter_append, kept, outputs, internals, List.append_nil,
    List.append_nil]

/-- The spaces bound to the incoming side, read off what a blueprint says of a socket. -/
theorem spaces_of_boundAt (place : SocketPath) (socket : Socket) :
    ((boundAt place socket).filter fun binding => binding.incoming = true).map SpaceBinding.space =
      spaceEntries socket.incoming := by
  unfold boundAt
  simp [List.filter_append, List.filter_map, Function.comp_def]

/-- The targets of an enclosed socket stand below the root. -/
theorem targets_stand {graph : Graph} (sound : Sound graph) {root : ComponentId} (enclosed : graph.Enclosed root)
    {id : SocketId} {socket : Socket} (held : graph.socket? id = some socket)
    (above : graph.Above root socket.owner) :
    ∀ target ∈ socketEntries socket.outgoing, graph.Stands root target (graph.siteOf root target) := by
  intro target linked
  rcases sound.links.targets id socket held target linked with ⟨other, otherHeld, -⟩
  exact sound.stands otherHeld (enclosed id socket held above target linked other otherHeld)

/-- So the blueprint shows all of them. -/
theorem innerTargets_of_stands {graph : Graph} (sound : Sound graph) {root : ComponentId}
    {members : List ComponentId} (listed : graph.subtree root = .ok members) {id : SocketId} {socket : Socket}
    (held : graph.socket? id = some socket)
    (below : ∀ target ∈ socketEntries socket.outgoing, graph.Stands root target (graph.siteOf root target)) :
    graph.innerTargets members id = socketEntries socket.outgoing := by
  rw [innerTargets_eq held]
  refine List.filter_eq_self.mpr fun target linked => ?_
  rcases below target linked with ⟨other, otherHeld, descends, -⟩
  exact isWithin_eq_true.mpr ⟨other, otherHeld, (mem_subtree sound.tree listed).mpr (descends.above sound.tree)⟩

/-! ### Partners are unique -/

/-- A computation is listed by one component. -/
theorem owner_unique {graph : Graph} (sound : Sound graph) {i j : ComponentId} {node other : Component}
    (found : graph.component? i = some node) (otherFound : graph.component? j = some other) {id : ComputationId}
    {position again : Nat} (here : node.computations[position]? = some id)
    (there : other.computations[again]? = some id) : i = j := by
  rcases (sound.computations.works i node found).listed id (List.mem_of_getElem? here) with ⟨work, held, owned⟩
  rcases (sound.computations.works j other otherFound).listed id (List.mem_of_getElem? there) with
    ⟨_, heldToo, ownedToo⟩
  obtain rfl := Option.some.inj (held.symm.trans heldToo)
  exact owned.symm.trans ownedToo

/-- It is listed once. -/
theorem position_unique {graph : Graph} (sound : Sound graph) {i : ComponentId} {node : Component}
    (found : graph.component? i = some node) {id : ComputationId} {position again : Nat}
    (here : node.computations[position]? = some id) (there : node.computations[again]? = some id) :
    position = again := by
  have once := (sound.computations.works i node found).once
  have bound : position < node.computations.length := (List.getElem?_eq_some_iff.mp here).1
  exact (List.getElem?_inj bound once).mp (here.trans there.symm)

section Unique

variable {left right : Graph} {first second : ComponentId} (alike : Alike left right first second)
include alike

theorem twins_unique : Relator.BiUnique (Twins left right first second) := by
  constructor
  · intro a b other twins twinsToo
    rcases twins.path with ⟨path, descends, reached⟩
    rcases twinsToo.path with ⟨same, descendsToo, reachedToo⟩
    obtain rfl := reached.path_unique alike.rightSound.tree reachedToo
    exact descends.id_unique alike.leftSound.tree descendsToo
  · intro a b other twins twinsToo
    rcases twins.path with ⟨path, descends, reached⟩
    rcases twinsToo.path with ⟨same, descendsToo, reachedToo⟩
    obtain rfl := descends.path_unique alike.leftSound.tree descendsToo
    exact reached.id_unique alike.rightSound.tree reachedToo

theorem mates_unique : Relator.BiUnique (Mates left right first second) :=
  ⟨fun _ _ _ mates again => mates.left_unique alike again, fun _ _ _ mates again => mates.right_unique alike again⟩

theorem counterparts_unique : Relator.BiUnique (Counterparts left right first second) := by
  have unique := twins_unique alike
  constructor
  · rintro a b other ⟨i, j, node, nodeToo, position, twins, found, foundToo, here, hereToo⟩
      ⟨k, l, nodeAgain, nodeTooAgain, positionAgain, twinsAgain, foundAgain, foundTooAgain, there, thereToo⟩
    obtain rfl := owner_unique alike.rightSound foundToo foundTooAgain hereToo thereToo
    obtain rfl := unique.1 twins twinsAgain
    obtain rfl := Option.some.inj (found.symm.trans foundAgain)
    obtain rfl := Option.some.inj (foundToo.symm.trans foundTooAgain)
    have same := position_unique alike.rightSound foundToo hereToo thereToo
    rw [← same, here] at there
    exact Option.some.inj there
  · rintro a b other ⟨i, j, node, nodeToo, position, twins, found, foundToo, here, hereToo⟩
      ⟨k, l, nodeAgain, nodeTooAgain, positionAgain, twinsAgain, foundAgain, foundTooAgain, there, thereToo⟩
    obtain rfl := owner_unique alike.leftSound found foundAgain here there
    obtain rfl := unique.2 twins twinsAgain
    obtain rfl := Option.some.inj (found.symm.trans foundAgain)
    obtain rfl := Option.some.inj (foundToo.symm.trans foundTooAgain)
    have same := position_unique alike.leftSound found here there
    rw [← same, hereToo] at thereToo
    exact Option.some.inj thereToo

end Unique

/-! ### What twins hold -/

section Alike

variable {left right : Graph} {first second : ComponentId} (alike : Alike left right first second)
include alike

theorem exists_members : ∃ members membersToo, left.subtree first = .ok members ∧
    right.subtree second = .ok membersToo := by
  rcases alike.plan with ⟨plan, config, planned, plannedToo⟩
  rcases planned.drawn with ⟨node, found, -⟩
  rcases plannedToo.drawn with ⟨other, otherFound, -⟩
  rcases subtree_succeeds alike.leftSound.tree found with ⟨members, listed⟩
  rcases subtree_succeeds alike.rightSound.tree otherFound with ⟨membersToo, listedToo⟩
  exact ⟨members, membersToo, listed, listedToo⟩

/-- Components at the same path are twins. -/
theorem twins_of_descends {path : List String} {i j : ComponentId} (descends : left.Descends first path i)
    (descendsToo : right.Descends second path j) : Twins left right first second i j := by
  rcases exists_members alike with ⟨members, membersToo, listed, listedToo⟩
  have member := (mem_subtree alike.leftSound.tree listed).mpr (descends.above alike.leftSound.tree)
  rcases forall₂_of_mem_left (alike.members listed listedToo) member with ⟨partner, -, twins⟩
  rcases twins.path with ⟨same, reached, reachedToo⟩
  obtain rfl := descends.path_unique alike.leftSound.tree reached
  obtain rfl := descendsToo.id_unique alike.rightSound.tree reachedToo
  exact twins

/-- Sockets at the same place are mates. -/
theorem mates_of_stands {place : SocketPath} {a b : SocketId} (stands : left.Stands first a place)
    (standsToo : right.Stands second b place) : Mates left right first second a b := by
  rcases exists_members alike with ⟨members, membersToo, listed, listedToo⟩
  have member : a ∈ left.portsOf members := by
    rcases stands with ⟨socket, held, descends, -⟩
    have isMember := (mem_subtree alike.leftSound.tree listed).mpr (descends.above alike.leftSound.tree)
    exact (mem_portsOf alike.leftSound.sockets).mpr ⟨socket, held, isMember⟩
  rcases forall₂_of_mem_left (alike.ports listed listedToo) member with ⟨partner, -, mates⟩
  rcases mates.place with ⟨same, there, thereToo⟩
  obtain rfl := stands.place_unique alike.leftSound there
  obtain rfl := standsToo.id_unique alike.rightSound thereToo
  exact mates

/-- Twins are below the roots. -/
theorem above_of_twins {i j : ComponentId} (twins : Twins left right first second i j) :
    left.Above first i ∧ right.Above second j := by
  rcases twins.path with ⟨path, descends, descendsToo⟩
  exact ⟨descends.above alike.leftSound.tree, descendsToo.above alike.rightSound.tree⟩

/-- Mates belong to twins. -/
theorem twins_of_mates {a b : SocketId} (mates : Mates left right first second a b) {socket other : Socket}
    (held : left.socket? a = some socket) (heldToo : right.socket? b = some other) :
    Twins left right first second socket.owner other.owner := by
  rcases mates.place with ⟨place, ⟨_, again, descends, -⟩, ⟨_, againToo, descendsToo, -⟩⟩
  obtain rfl := Option.some.inj (held.symm.trans again)
  obtain rfl := Option.some.inj (heldToo.symm.trans againToo)
  exact twins_of_descends alike descends descendsToo

/-- Sockets of twins with the same names are mates. -/
theorem mates_of_names {i j : ComponentId} (twins : Twins left right first second i j) {ids idsToo : List SocketId}
    {names : List String} (named : left.socketNames ids = .ok names) (namedToo : right.socketNames idsToo = .ok names)
    (owned : ∀ id ∈ ids, ∃ held, left.socket? id = some held ∧ held.owner = i)
    (ownedToo : ∀ id ∈ idsToo, ∃ held, right.socket? id = some held ∧ held.owner = j) :
    List.Forall₂ (Mates left right first second) ids idsToo := by
  rcases twins.path with ⟨path, descends, descendsToo⟩
  have listed := (List.forall₂_and_left _ _).mpr ⟨owned, socketNames_eq_ok.mp named⟩
  have listedToo := (List.forall₂_and_left _ _).mpr ⟨ownedToo, socketNames_eq_ok.mp namedToo⟩
  refine (forall₂_join listed listedToo).imp fun a b related => ?_
  rcases related with ⟨name, ⟨⟨socket, held, rfl⟩, _, again, rfl⟩, ⟨other, heldToo, rfl⟩, _, againToo, same⟩
  obtain rfl := Option.some.inj (held.symm.trans again)
  obtain rfl := Option.some.inj (heldToo.symm.trans againToo)
  have stands : left.Stands first a ⟨path, socket.name⟩ := ⟨socket, held, descends, rfl⟩
  have standsToo : right.Stands second b ⟨path, socket.name⟩ := ⟨other, heldToo, descendsToo, same⟩
  exact mates_of_stands alike stands standsToo

omit alike in
/-- Computations at the same position are shown by the same plan. -/
theorem shown_computations {i j : ComponentId} (twins : Twins left right first second i j) {node other : Component}
    (found : left.component? i = some node) (otherFound : right.component? j = some other) :
    List.Forall₂ (fun a b => ∃ plan, left.planComputation a = .ok plan ∧ right.planComputation b = .ok plan)
      node.computations other.computations := by
  rcases twins.drawn found otherFound with ⟨plan, config, drawn, drawnToo⟩
  have shown := drawnToo.computations
  rw [ComponentPlan.computations_withConfig] at shown
  exact forall₂_join drawn.computations shown

omit alike in
theorem computations_pairs {i j : ComponentId} (twins : Twins left right first second i j) {node other : Component}
    (found : left.component? i = some node) (otherFound : right.component? j = some other) :
    List.Forall₂ (Counterparts left right first second) node.computations other.computations :=
  forall₂_of_getElem? (shown_computations twins found otherFound).length_eq
    fun position _ _ here hereToo => ⟨i, j, node, other, position, twins, found, otherFound, here, hereToo⟩

/-- Counterparts run methods of the same name on mates. -/
theorem works_of_counterparts {a b : ComputationId} (pair : Counterparts left right first second a b) :
    ∃ computation other, left.computation? a = some computation ∧ right.computation? b = some other ∧
      (counterparts left right first second).Works computation other := by
  rcases pair with ⟨i, j, node, nodeToo, position, twins, found, foundToo, here, hereToo⟩
  rcases forall₂_getElem? (shown_computations twins found foundToo) here hereToo with
    ⟨plan, planned, plannedToo⟩
  rcases planComputation_eq_ok.mp planned with ⟨computation, held, read, written, method, settings⟩
  rcases planComputation_eq_ok.mp plannedToo with ⟨other, heldToo, readToo, writtenToo, methodToo, settingsToo⟩
  rcases (alike.leftSound.computations.works i node found).listed a (List.mem_of_getElem? here) with
    ⟨_, again, owned⟩
  obtain rfl := Option.some.inj (held.symm.trans again)
  rcases (alike.rightSound.computations.works j nodeToo foundToo).listed b (List.mem_of_getElem? hereToo) with
    ⟨_, againToo, ownedToo⟩
  obtain rfl := Option.some.inj (heldToo.symm.trans againToo)
  have bound := alike.leftSound.computations.bound a computation held
  have boundToo := alike.rightSound.computations.bound b other heldToo
  have owners : Twins left right first second computation.owner other.owner := by
    rw [owned, ownedToo]
    exact twins
  exact ⟨computation, other, held, heldToo, {
    owner := owners
    inputs := mates_of_names alike owners read readToo bound.inputs boundToo.inputs
    outputs := mates_of_names alike owners written writtenToo bound.outputs boundToo.outputs
    method := method.symm.trans methodToo
    settings := settings.symm.trans settingsToo }⟩

/-- The sockets that counterparts read are mates. -/
theorem inputsOf_pairs {a b : ComputationId} (pair : Counterparts left right first second a b) :
    List.Forall₂ (Mates left right first second) (left.inputsOf a) (right.inputsOf b) := by
  rcases works_of_counterparts alike pair with ⟨computation, other, held, heldToo, works⟩
  rw [ComputationsSound.inputsOf_eq held, ComputationsSound.inputsOf_eq heldToo]
  exact works.inputs

theorem nodes_of_twins {i j : ComponentId} (twins : Twins left right first second i j) :
    ∃ node other, left.component? i = some node ∧ right.component? j = some other ∧
      (counterparts left right first second).Nodes node other := by
  rcases twins.plan with ⟨plan, config, planned, plannedToo⟩
  rcases planned.drawn with ⟨node, found, drawn⟩
  rcases plannedToo.drawn with ⟨other, otherFound, drawnToo⟩
  have sockets := alike.sockets twins found otherFound
  have computations := computations_pairs twins found otherFound
  refine ⟨node, other, found, otherFound, ?_, sockets, ?_, ?_⟩
  · rw [← drawn.methods, ← drawnToo.methods, ComponentPlan.methods_withConfig]
  · rw [(alike.leftSound.sockets.ports i node found).inputs_eq,
      (alike.rightSound.sockets.ports j other otherFound).inputs_eq]
    refine List.rel_filter (fun a b mates => ?_) sockets
    rcases mates.faces with ⟨socket, socketToo, held, heldToo, -, side, internal⟩
    simp [held, heldToo, Socket.isInterfaceInput, side, internal]
  · rw [(alike.leftSound.computations.works i node found).sources,
      (alike.rightSound.computations.works j other otherFound).sources]
    refine List.rel_filter (fun a b pair => ?_) computations
    have lengths := (inputsOf_pairs alike pair).length_eq
    show (left.inputsOf a).isEmpty = true ↔ (right.inputsOf b).isEmpty = true
    rw [List.isEmpty_iff_length_eq_zero, List.isEmpty_iff_length_eq_zero, lengths]

/-! ### What is connected to mates -/

/-- Counterparts read mates in the same order. -/
theorem readers_of_mates {a b : SocketId} (mates : Mates left right first second a b) {socket other : Socket}
    (held : left.socket? a = some socket) (heldToo : right.socket? b = some other) :
    List.Forall₂ (Counterparts left right first second) (computationEntries socket.outgoing)
      (computationEntries other.outgoing) := by
  rcases alike.leftSound.sockets.owner a socket held with ⟨node, found⟩
  rcases alike.rightSound.sockets.owner b other heldToo with ⟨nodeToo, foundToo⟩
  have readers := alike.leftSound.computations.readers a socket node held found
  have readersToo := alike.rightSound.computations.readers b other nodeToo heldToo foundToo
  have computations := computations_pairs (twins_of_mates alike mates held heldToo) found foundToo
  rw [show computationEntries socket.outgoing = _ from readers,
    show computationEntries other.outgoing = _ from readersToo]
  refine List.rel_flatMap computations fun {x y} pair => ?_
  rw [count_pairs (mates_unique alike) (inputsOf_pairs alike pair) mates]
  exact forall₂_replicate pair _

/-- Mates are linked to mates in the same order, if they show the same links and all links are shown. -/
theorem targets_of_mates {members membersToo : List ComponentId} (listed : left.subtree first = .ok members)
    (listedToo : right.subtree second = .ok membersToo) (enclosed : left.Enclosed first)
    (enclosedToo : right.Enclosed second) {a b : SocketId} (mates : Mates left right first second a b)
    {socket other : Socket} (held : left.socket? a = some socket) (heldToo : right.socket? b = some other)
    (links : left.linksAt first members a = right.linksAt second membersToo b) :
    List.Forall₂ (Mates left right first second) (socketEntries socket.outgoing) (socketEntries other.outgoing) := by
  rcases mates.place with ⟨place, ⟨_, again, descends, -⟩, ⟨_, againToo, descendsToo, -⟩⟩
  obtain rfl := Option.some.inj (held.symm.trans again)
  obtain rfl := Option.some.inj (heldToo.symm.trans againToo)
  have below := targets_stand alike.leftSound enclosed held (descends.above alike.leftSound.tree)
  have belowToo := targets_stand alike.rightSound enclosedToo heldToo (descendsToo.above alike.rightSound.tree)
  rw [linksAt, linksAt, innerTargets_of_stands alike.leftSound listed held below,
    innerTargets_of_stands alike.rightSound listedToo heldToo belowToo] at links
  have sites := forall₂_mem (forall₂_of_map_eq links)
  refine sites.imp fun target targetToo related => ?_
  rcases related with ⟨member, memberToo, same⟩
  have stands := below target member
  rw [(Prod.mk.inj same).2] at stands
  exact mates_of_stands alike stands (belowToo targetToo memberToo)

/-- Mates show the links and bound spaces at their place. -/
theorem contributions_of_mates {members membersToo : List ComponentId} (listed : left.subtree first = .ok members)
    (listedToo : right.subtree second = .ok membersToo)
    (links : (left.portsOf members).flatMap (left.linksAt first members) =
      (right.portsOf membersToo).flatMap (right.linksAt second membersToo))
    (bindings : (left.portsOf members).flatMap (left.bindingsAt first) =
      (right.portsOf membersToo).flatMap (right.bindingsAt second))
    {a b : SocketId} (mates : Mates left right first second a b) :
    left.linksAt first members a = right.linksAt second membersToo b ∧
      left.bindingsAt first a = right.bindingsAt second b := by
  have sites := mates.siteOf alike
  rcases mates.place with ⟨place, ⟨socket, held, descends, -⟩, ⟨other, heldToo, descendsToo, -⟩⟩
  have port : a ∈ left.portsOf members := by
    have isMember := (mem_subtree alike.leftSound.tree listed).mpr (descends.above alike.leftSound.tree)
    exact (mem_portsOf alike.leftSound.sockets).mpr ⟨socket, held, isMember⟩
  have portToo : b ∈ right.portsOf membersToo := by
    have isMember := (mem_subtree alike.rightSound.tree listedToo).mpr (descendsToo.above alike.rightSound.tree)
    exact (mem_portsOf alike.rightSound.sockets).mpr ⟨other, heldToo, isMember⟩
  constructor
  · rw [← linksAt_eq_filter alike.leftSound listed port, ← linksAt_eq_filter alike.rightSound listedToo portToo,
      links, sites]
  · rw [← bindingsAt_eq_filter alike.leftSound listed port, ← bindingsAt_eq_filter alike.rightSound listedToo portToo,
      bindings, sites]

/-- The roots are mates of each other only. -/
theorem root_iff {i j : ComponentId} (twins : Twins left right first second i j) : i = first ↔ j = second :=
  Relator.rel_eq (twins_unique alike) twins alike.roots

/-- Mates that show the same bound spaces are fed with the same spaces, unless they belong to the roots. -/
theorem spaces_of_mates {a b : SocketId} (mates : Mates left right first second a b) {socket other : Socket}
    (held : left.socket? a = some socket) (heldToo : right.socket? b = some other)
    (bindings : left.bindingsAt first a = right.bindingsAt second b) (below : socket.owner ≠ first) :
    spaceEntries socket.incoming = spaceEntries other.incoming := by
  have belowToo := mt (root_iff alike (twins_of_mates alike mates held heldToo)).mpr below
  rw [bindingsAt_eq held, bindingsAt_eq heldToo, if_neg below, if_neg belowToo] at bindings
  rw [← spaces_of_boundAt (left.siteOf first a) socket, bindings, spaces_of_boundAt]

/-- Mates that list computations first are connected to partners in the same order. -/
theorem outgoing_of_mates {members membersToo : List ComponentId} (listed : left.subtree first = .ok members)
    (listedToo : right.subtree second = .ok membersToo) (enclosed : left.Enclosed first)
    (enclosedToo : right.Enclosed second) {a b : SocketId} (mates : Mates left right first second a b)
    {socket other : Socket} (held : left.socket? a = some socket) (heldToo : right.socket? b = some other)
    (links : left.linksAt first members a = right.linksAt second membersToo b)
    (order : ComputationsFirst socket.outgoing) (orderToo : ComputationsFirst other.outgoing) :
    List.Forall₂ (counterparts left right first second).Connects (carrying socket.outgoing)
      (carrying other.outgoing) := by
  have readers := readers_of_mates alike mates held heldToo
  have targets := targets_of_mates alike listed listedToo enclosed enclosedToo mates held heldToo links
  rw [order.carrying_eq, orderToo.carrying_eq]
  refine List.rel_append ?_ ?_
  · exact List.rel_map (fun x y pair => .computation x y pair) readers
  · exact List.rel_map (fun x y pair => .socket x y pair) targets

/-- Everything below the roots is wired alike. -/
theorem matches_of_mates {members membersToo : List ComponentId} (listed : left.subtree first = .ok members)
    (listedToo : right.subtree second = .ok membersToo)
    (links : ∀ a b, Mates left right first second a b →
      left.linksAt first members a = right.linksAt second membersToo b)
    (enclosed : left.Enclosed first) (enclosedToo : right.Enclosed second) (phased : left.Phased first)
    (phasedToo : right.Phased second) : (counterparts left right first second).Matches left right where
  components := twins_unique alike
  sockets := mates_unique alike
  computations := counterparts_unique alike
  node i j twins := nodes_of_twins alike twins
  port a b mates := by
    rcases mates.faces with ⟨socket, other, held, heldToo, -, side, internal⟩
    have twins := twins_of_mates alike mates held heldToo
    rcases above_of_twins alike twins with ⟨above, aboveToo⟩
    have order := phased a socket held above
    have orderToo := phasedToo b other heldToo aboveToo
    refine ⟨socket, other, held, heldToo, twins, ?_, ?_⟩
    · rw [Socket.isInterfaceInput, Socket.isInterfaceInput, side, internal]
    · exact outgoing_of_mates alike listed listedToo enclosed enclosedToo mates held heldToo (links a b mates)
        order orderToo
  work a b pair := works_of_counterparts alike pair

end Alike

end Graph

end Wiring
