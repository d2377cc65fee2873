import Mathlib.Data.List.Forall2
import Wiring.Proofs.Build.Advance
import Wiring.Proofs.Determinism

/-!
Contract: parts of graphs that are wired alike.

Owns: pairings, which relate components, sockets and computations of two graphs; `Matches`, by which paired
things are connected to paired things in the same order; `Parallel`, by which they also behave alike in a build;
and the same tasks for paired things.

Does not own: where pairings come from.
-/

namespace Wiring

/-- Components, sockets and computations of two graphs that correspond to each other. -/
structure Pairing where
  component : ComponentId → ComponentId → Prop
  socket : SocketId → SocketId → Prop
  computation : ComputationId → ComputationId → Prop

namespace Pairing

open Build

/-- Connections to paired sockets or computations. -/
inductive Connects (pairing : Pairing) : Connection → Connection → Prop where
  | socket (a b : SocketId) (pair : pairing.socket a b) : Connects pairing (.socket a) (.socket b)
  | computation (a b : ComputationId) (pair : pairing.computation a b) :
      Connects pairing (.computation a) (.computation b)

structure Nodes (pairing : Pairing) (node other : Component) : Prop where
  methods : node.methods = other.methods
  sockets : List.Forall₂ pairing.socket node.sockets other.sockets
  inputs : List.Forall₂ pairing.socket node.inputs other.inputs
  sources : List.Forall₂ pairing.computation node.sources other.sources

structure Ports (pairing : Pairing) (socket other : Socket) : Prop where
  owner : pairing.component socket.owner other.owner
  interface : socket.isInterfaceInput = other.isInterfaceInput
  /-- Bound spaces aside, both are connected to paired things in the same order. -/
  outgoing : List.Forall₂ pairing.Connects (carrying socket.outgoing) (carrying other.outgoing)

structure Works (pairing : Pairing) (computation other : Computation) : Prop where
  owner : pairing.component computation.owner other.owner
  inputs : List.Forall₂ pairing.socket computation.inputs other.inputs
  outputs : List.Forall₂ pairing.socket computation.outputs other.outputs
  method : computation.method = other.method
  settings : computation.settings = other.settings

/-- What is paired is wired alike, and no thing has two partners. -/
structure Matches (pairing : Pairing) (left right : Graph) : Prop where
  components : Relator.BiUnique pairing.component
  sockets : Relator.BiUnique pairing.socket
  computations : Relator.BiUnique pairing.computation
  node : ∀ a b, pairing.component a b →
    ∃ node other, left.component? a = some node ∧ right.component? b = some other ∧ pairing.Nodes node other
  port : ∀ a b, pairing.socket a b →
    ∃ socket other, left.socket? a = some socket ∧ right.socket? b = some other ∧ pairing.Ports socket other
  work : ∀ a b, pairing.computation a b → ∃ computation other, left.computation? a = some computation ∧
    right.computation? b = some other ∧ pairing.Works computation other

/-- The same spaces are bound to paired sockets. -/
def Feeds (pairing : Pairing) (left right : Graph) : Prop :=
  ∀ a b socket other, pairing.socket a b → left.socket? a = some socket → right.socket? b = some other →
    spaceEntries socket.incoming = spaceEntries other.incoming

/-- Paired components have deterministic methods. -/
def Deterministic (pairing : Pairing) (left : Graph) : Prop :=
  ∀ a b node, pairing.component a b → left.component? a = some node →
    ∀ method ∈ node.methods, method.Deterministic

/-- Two graphs in which paired things behave alike. -/
structure Parallel (pairing : Pairing) (left right : Graph) : Prop extends pairing.Matches left right where
  kind : left.backend.kind = right.backend.kind
  feeds : pairing.Feeds left right
  deterministic : pairing.Deterministic left

/-- The same task for paired things. -/
inductive Tasks (pairing : Pairing) : Task → Task → Prop where
  | seed (a b : ComponentId) (pair : pairing.component a b) : Tasks pairing (.seed a) (.seed b)
  | seedSocket (a b : ComponentId) (first second : SocketId) (pair : pairing.socket first second) :
      Tasks pairing (.seedSocket a first) (.seedSocket b second)
  | place (a b : ComponentId) (first second : SocketId) (space : Space) (pair : pairing.socket first second) :
      Tasks pairing (.place a first space) (.place b second space)
  | deliver (a b : SocketId) (op : DataOp) (pair : pairing.socket a b) :
      Tasks pairing (.deliver a op) (.deliver b op)
  | check (a b : ComponentId) (pair : pairing.component a b) : Tasks pairing (.check a) (.check b)
  | forward (a b : SocketId) (op : DataOp) (first second : Connection) (pair : pairing.socket a b)
      (connects : pairing.Connects first second) : Tasks pairing (.forward a op first) (.forward b op second)
  | wake (a b : SocketId) (pair : pairing.socket a b) : Tasks pairing (.wake a) (.wake b)
  | fireSources (a b : ComponentId) (pair : pairing.component a b) :
      Tasks pairing (.fireSources a) (.fireSources b)
  | fire (a b : ComputationId) (pair : pairing.computation a b) : Tasks pairing (.fire a) (.fire b)
  | fireWith (a b : ComputationId) (inputs : List DataOp) (pair : pairing.computation a b) :
      Tasks pairing (.fireWith a inputs) (.fireWith b inputs)

variable {pairing : Pairing} {left right : Graph}

/-! ### Paired lists -/

/-- Functions changed at partners. -/
theorem update_pairs {α β γ δ : Type} [DecidableEq α] [DecidableEq β] {relates : α → β → Prop}
    {agree : γ → δ → Prop} (unique : Relator.BiUnique relates) {first : α → γ} {second : β → δ}
    (before : ∀ x y, relates x y → agree (first x) (second y)) {a : α} {b : β} (pair : relates a b) {value : γ}
    {valueToo : δ} (now : agree value valueToo) (x : α) (y : β) (related : relates x y) :
    agree (Function.update first a value x) (Function.update second b valueToo y) := by
  by_cases same : x = a
  · subst same
    obtain rfl := unique.2 related pair
    rw [Function.update_self, Function.update_self]
    exact now
  · have differ : y ≠ b := by
      rintro rfl
      exact same (unique.1 related pair)
    rw [Function.update_of_ne same, Function.update_of_ne differ]
    exact before x y related

theorem forall₂_map_same {α β : Type} {relates : β → β → Prop} {make makeToo : α → β}
    (each : ∀ item, relates (make item) (makeToo item)) (items : List α) :
    List.Forall₂ relates (items.map make) (items.map makeToo) :=
  List.forall₂_map_left_iff.mpr (List.forall₂_map_right_iff.mpr (List.forall₂_same.mpr fun item _ => each item))

theorem computationEntries_carrying (connections : List Connection) :
    computationEntries (carrying connections) = computationEntries connections := by
  unfold carrying computationEntries
  rw [List.filterMap_filter]
  refine List.filterMap_congr fun connection _ => ?_
  cases connection <;> rfl

/-- Paired connection lists name paired computations. -/
theorem readers_of_outgoing {connections others : List Connection}
    (outgoing : List.Forall₂ pairing.Connects (carrying connections) (carrying others)) :
    List.Forall₂ pairing.computation (computationEntries connections) (computationEntries others) := by
  rw [← computationEntries_carrying connections, ← computationEntries_carrying others]
  refine List.rel_filterMap (fun first second connects => ?_) outgoing
  cases connects with
  | socket => exact .none
  | computation a b pair => exact .some pair

theorem opsAt_pairs (unique : Relator.BiUnique pairing.socket) {arrivals others : List Arrival}
    (all : List.Forall₂ (fun arrival arrivalToo => pairing.socket arrival.socket arrivalToo.socket ∧
      arrival.op = arrivalToo.op) arrivals others) {a b : SocketId} (pair : pairing.socket a b) :
    (arrivals.filter fun arrival => arrival.socket = a).map Arrival.op =
      (others.filter fun arrival => arrival.socket = b).map Arrival.op := by
  induction all with
  | nil => rfl
  | @cons arrival arrivalToo arrivals others head _ inductionHypothesis =>
      rcases head with ⟨sockets, ops⟩
      have here : arrival.socket = a ↔ arrivalToo.socket = b := Relator.rel_eq unique sockets pair
      by_cases same : arrival.socket = a
      · have sameToo := here.mp same
        rw [List.filter_cons_of_pos (by simpa using same), List.filter_cons_of_pos (by simpa using sameToo),
          List.map_cons, List.map_cons, inductionHypothesis, ops]
      · have differ := mt here.mpr same
        rw [List.filter_cons_of_neg (by simpa using same), List.filter_cons_of_neg (by simpa using differ),
          inductionHypothesis]

/-- The same ops go to paired outputs. -/
theorem deliveries {outputs outputsToo : List SocketId} (paired : List.Forall₂ pairing.socket outputs outputsToo)
    (ops : List DataOp) :
    List.Forall₂ pairing.Tasks ((outputs.zip ops).map fun output => Task.deliver output.1 output.2)
      ((outputsToo.zip ops).map fun output => Task.deliver output.1 output.2) := by
  induction paired generalizing ops with
  | nil => exact .nil
  | @cons a b _ _ head _ inductionHypothesis =>
      cases ops with
      | nil => exact .nil
      | cons op rest => exact .cons (.deliver a b op head) (inductionHypothesis rest)

end Pairing

end Wiring
