import Wiring.Proofs.Blueprint.Feasible
import Wiring.Proofs.Graph.Operations.Copies

/-!
Contract: making a component from its plan, step by step.

Owns: `Extends`, by which everything that a graph has stays as it is; `Raising`, the state in which a new
component is shown by the part of its plan that has been carried out; and one step lemma for each part of a
plan, by which the step succeeds and the component is shown by one part more.

Does not own: the recursion over the plan.
-/

namespace Wiring

/-- Nothing but computations is entered at the socket. -/
structure Socket.Bare (socket : Socket) : Prop where
  sources : socketEntries socket.incoming = []
  targets : socketEntries socket.outgoing = []
  fed : spaceEntries socket.incoming = []
  feeding : spaceEntries socket.outgoing = []

namespace Graph

/-! ### Graphs with more in them -/

/-- Everything in the graph stays as it is. -/
structure Extends (base later : Graph) : Prop where
  component : ∀ id node, base.component? id = some node → later.component? id = some node
  socket : ∀ id socket, base.socket? id = some socket → later.socket? id = some socket
  computation : ∀ id computation, base.computation? id = some computation →
    later.computation? id = some computation

/-- Nothing differs but one component, its sockets and what is new, and no socket gets a link or a space. -/
structure Touches (root : ComponentId) (graph later : Graph) : Prop where
  carries : Carries graph later
  component : ∀ id node, id ≠ root → graph.component? id = some node → later.component? id = some node
  socket : ∀ id socket, graph.socket? id = some socket → socket.owner ≠ root → later.socket? id = some socket
  bare : ∀ id socket, later.socket? id = some socket →
    (∀ old, graph.socket? id = some old → old.Bare) → socket.Bare

/-- A plan shows the component, except for the order of its sockets. -/
structure Sketched (graph : Graph) (node : Component) (plan : ComponentPlan) : Prop where
  config : plan.config = node.toConfig
  inputs : List.Forall₂ (fun id socket => graph.planSocket id = .ok socket) node.inputs
    (plan.sockets.filter SocketPlan.isInterfaceInput)
  outputs : List.Forall₂ (fun id socket => graph.planSocket id = .ok socket) node.outputs
    (plan.sockets.filter SocketPlan.isInterfaceOutput)
  internals : List.Forall₂ (fun id socket => graph.planSocket id = .ok socket) node.internals
    (plan.sockets.filter SocketPlan.internal)
  methods : plan.methods = node.methods
  computations : List.Forall₂ (fun id computation => graph.planComputation id = .ok computation)
    node.computations plan.computations
  hook : plan.hook = node.hook
  children : List.Forall₂ graph.Planned (Keyed.values node.children) plan.children

namespace Sketched

variable {graph : Graph} {node : Component} {plan : ComponentPlan}

theorem drawn (sketched : Sketched graph node plan)
    (sorted : plan.sockets.filter SocketPlan.isInterfaceInput ++ plan.sockets.filter SocketPlan.isInterfaceOutput ++
      plan.sockets.filter SocketPlan.internal = plan.sockets) : Drawn graph graph.Planned node plan where
  config := sketched.config
  sockets := by
    rw [← sorted]
    exact List.rel_append (List.rel_append sketched.inputs sketched.outputs) sketched.internals
  methods := sketched.methods
  computations := sketched.computations
  hook := sketched.hook
  children := sketched.children

/-- Every socket of the component is among those of the plan. -/
theorem planned_mem (sketched : Sketched graph node plan) {id : SocketId} (listed : id ∈ node.sockets) :
    ∃ socket ∈ plan.sockets, graph.planSocket id = .ok socket := by
  unfold Component.sockets at listed
  rcases List.mem_append.mp listed with interface | internal
  · rcases List.mem_append.mp interface with input | output
    · rcases forall₂_of_mem_left sketched.inputs input with ⟨socket, member, planned⟩
      exact ⟨socket, List.mem_of_mem_filter member, planned⟩
    · rcases forall₂_of_mem_left sketched.outputs output with ⟨socket, member, planned⟩
      exact ⟨socket, List.mem_of_mem_filter member, planned⟩
  · rcases forall₂_of_mem_left sketched.internals internal with ⟨socket, member, planned⟩
    exact ⟨socket, List.mem_of_mem_filter member, planned⟩

/-- Every socket of the plan has been made. -/
theorem exists_of_mem (sketched : Sketched graph node plan) {socket : SocketPlan}
    (member : socket ∈ plan.sockets) : ∃ id ∈ node.sockets, graph.planSocket id = .ok socket := by
  unfold Component.sockets
  cases internal : socket.internal with
  | true =>
      have kind : socket ∈ plan.sockets.filter SocketPlan.internal := List.mem_filter.mpr ⟨member, internal⟩
      rcases forall₂_of_mem_right sketched.internals kind with ⟨id, listed, planned⟩
      exact ⟨id, List.mem_append_right _ listed, planned⟩
  | false =>
      cases side : socket.side with
      | input =>
          have kind : socket ∈ plan.sockets.filter SocketPlan.isInterfaceInput :=
            List.mem_filter.mpr ⟨member, by simp [SocketPlan.isInterfaceInput, side, internal]⟩
          rcases forall₂_of_mem_right sketched.inputs kind with ⟨id, listed, planned⟩
          exact ⟨id, List.mem_append_left _ (List.mem_append_left _ listed), planned⟩
      | output =>
          have kind : socket ∈ plan.sockets.filter SocketPlan.isInterfaceOutput :=
            List.mem_filter.mpr ⟨member, by simp [SocketPlan.isInterfaceOutput, side, internal]⟩
          rcases forall₂_of_mem_right sketched.outputs kind with ⟨id, listed, planned⟩
          exact ⟨id, List.mem_append_left _ (List.mem_append_right _ listed), planned⟩

/-- What has been carried out stays, whatever else happens to the component and its sockets. -/
theorem carry (sketched : Sketched graph node plan) {later : Graph} (carries : Carries graph later)
    (children : ∀ child ∈ Keyed.values node.children, ∀ plan, graph.Planned child plan → later.Planned child plan) :
    Sketched later node plan where
  config := sketched.config
  inputs := sketched.inputs.imp fun _ _ => carries.planSocket
  outputs := sketched.outputs.imp fun _ _ => carries.planSocket
  internals := sketched.internals.imp fun _ _ => carries.planSocket
  methods := sketched.methods
  computations := sketched.computations.imp fun _ _ => carries.planComputation
  hook := sketched.hook
  children :=
    ((List.forall₂_and_left _ _).mpr ⟨children, sketched.children⟩).imp fun _ _ shown => shown.1 _ shown.2

end Sketched

/-- A new component without parent, shown by the part of its plan that has been carried out. -/
structure Raising (base graph : Graph) (root : ComponentId) (plan : ComponentPlan) : Prop where
  begun : Sound base
  sound : Sound graph
  fresh : base.component? root = none
  extended : Extends base graph
  /-- New sockets have neither links nor spaces. -/
  bare : ∀ id socket, base.socket? id = none → graph.socket? id = some socket → socket.Bare
  node : ∃ node, graph.component? root = some node ∧ node.parent = none ∧ Sketched graph node plan

namespace Raising

variable {base graph later : Graph} {root : ComponentId} {plan : ComponentPlan}

/-- Only the new component and its sockets may be touched. -/
theorem touched (raising : Raising base graph root plan) (touches : Touches root graph later)
    (sound : Sound later) {node : Component} (found : later.component? root = some node)
    (top : node.parent = none) {more : ComponentPlan} (sketched : Sketched later node more) :
    Raising base later root more where
  begun := raising.begun
  sound := sound
  fresh := raising.fresh
  extended := by
    refine ⟨fun id node old => ?_, fun id socket old => ?_, fun id computation old =>
      touches.carries.computation id computation (raising.extended.computation id computation old)⟩
    · have differ : id ≠ root := by
        rintro rfl
        rw [raising.fresh] at old
        contradiction
      exact touches.component id node differ (raising.extended.component id node old)
    · have differ : socket.owner ≠ root := by
        intro same
        rcases raising.begun.sockets.owner id socket old with ⟨owner, ownerFound⟩
        rw [same, raising.fresh] at ownerFound
        contradiction
      exact touches.socket id socket (raising.extended.socket id socket old) differ
  bare id socket new held := touches.bare id socket held fun old oldHeld => raising.bare id old new oldHeld
  node := ⟨node, found, top, sketched⟩

/-- The children of the new component are others. -/
theorem child_ne (sound : Sound graph) {node : Component} (found : graph.component? root = some node)
    (top : node.parent = none) {id child : ComponentId} {other : Component}
    (otherFound : graph.component? id = some other) (member : child ∈ Keyed.values other.children) :
    child ≠ root := by
  rintro rfl
  rcases sound.tree.child_found otherFound member with ⟨same, sameFound, under⟩
  obtain rfl := Option.some.inj (found.symm.trans sameFound)
  rw [top] at under
  contradiction

/-- Plans of other components stay. -/
theorem planned_of_touches (sound : Sound graph) {node : Component} (found : graph.component? root = some node)
    (top : node.parent = none) (touches : Touches root graph later) {id : ComponentId} (differ : id ≠ root)
    {plan : ComponentPlan} (planned : graph.Planned id plan) : later.Planned id plan :=
  touches.carries.planned
    (fun _ _ _ otherFound _ member => child_ne sound found top otherFound member)
    (fun id node different old => ⟨node, touches.component id node different old, rfl⟩) differ planned

theorem sketched_of_touches (sound : Sound graph) {node : Component} (found : graph.component? root = some node)
    (top : node.parent = none) (touches : Touches root graph later) (sketched : Sketched graph node plan) :
    Sketched later node plan :=
  sketched.carry touches.carries fun _ member _ planned =>
    planned_of_touches sound found top touches (child_ne sound found top found member) planned

end Raising

end Graph

end Wiring
