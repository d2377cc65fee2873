import Wiring.Proofs.Blueprint.Places

/-!
Contract: plans that can be carried out.

Owns: `Feasible`, the conditions on one component of a plan under which no step of making it can fail; and
that the plans of a sound graph meet them, with everything below.
-/

namespace Wiring

/-- The configuration with its name made explicit. -/
def ComponentConfig.explicit (config : ComponentConfig) : ComponentConfig :=
  { config with name := some config.resolvedName }

def SocketPlan.isInterfaceInput (plan : SocketPlan) : Bool :=
  plan.side = .input && !plan.internal

def SocketPlan.isInterfaceOutput (plan : SocketPlan) : Bool :=
  plan.side = .output && !plan.internal

namespace ComponentPlan

/-- One component of a plan can be made. -/
structure Feasible (plan : ComponentPlan) : Prop where
  socketNames : (plan.sockets.map SocketPlan.name).Nodup
  /-- Sockets come in the order in which a component lists them. -/
  sorted : plan.sockets.filter SocketPlan.isInterfaceInput ++ plan.sockets.filter SocketPlan.isInterfaceOutput ++
    plan.sockets.filter SocketPlan.internal = plan.sockets
  methodNames : (plan.methods.map Method.name).Nodup
  /-- A computation binds a method of the component to as many of its sockets as the method takes. -/
  computations : ∀ computation ∈ plan.computations,
    ∃ method, (plan.methods.find? fun method => method.name = computation.method) = some method ∧
      computation.inputs.length = method.inputs ∧ computation.outputs.length = method.outputs ∧
      ∀ name ∈ computation.inputs ++ computation.outputs, name ∈ plan.sockets.map SocketPlan.name
  childNames : (plan.children.map fun child => child.config.resolvedName).Nodup
  childScopes : ∀ child ∈ plan.children, isScope child.config.scope = true
  childConfigs : ∀ child ∈ plan.children, child.config.explicit = child.config

end ComponentPlan

namespace Graph

/-- What is related to different things differs. -/
theorem nodup_of_forall₂ {α β : Type} {relates : α → β → Prop} {items : List α} {values : List β}
    (all : List.Forall₂ relates items values) (once : items.Nodup)
    (apart : ∀ left ∈ items, ∀ right ∈ items, ∀ value, relates left value → relates right value → left = right) :
    values.Nodup := by
  induction all with
  | nil => exact List.nodup_nil
  | cons head tail inductionHypothesis =>
      rcases List.nodup_cons.mp once with ⟨notRepeated, once⟩
      refine List.nodup_cons.mpr ⟨fun repeated => ?_, inductionHypothesis once fun left leftMember right rightMember =>
        apart left (List.mem_cons_of_mem _ leftMember) right (List.mem_cons_of_mem _ rightMember)⟩
      rcases forall₂_of_mem_right tail repeated with ⟨other, otherMember, related⟩
      have same := apart _ List.mem_cons_self other (List.mem_cons_of_mem _ otherMember) _ head related
      exact notRepeated (same ▸ otherMember)

/-- A list related to two lists put together consists of two parts. -/
theorem forall₂_append_left {α β : Type} {relates : α → β → Prop} {left right : List α} {values : List β}
    (all : List.Forall₂ relates (left ++ right) values) :
    ∃ front back, values = front ++ back ∧ List.Forall₂ relates left front ∧
      List.Forall₂ relates right back := by
  induction left generalizing values with
  | nil => exact ⟨[], values, rfl, .nil, all⟩
  | cons first rest inductionHypothesis =>
      cases all with
      | cons head tail =>
          rcases inductionHypothesis tail with ⟨front, back, rfl, frontRelated, backRelated⟩
          exact ⟨_ :: front, back, rfl, .cons head frontRelated, backRelated⟩

variable {graph : Graph}

section Feasible

variable {id : ComponentId} {node : Component} {plan : ComponentPlan}

theorem Drawn.socketNames_nodup (sound : Sound graph) (found : graph.component? id = some node)
    (drawn : Drawn graph graph.Planned node plan) : (plan.sockets.map SocketPlan.name).Nodup := by
  have named : List.Forall₂ (fun id name => ∃ socket, graph.socket? id = some socket ∧ socket.name = name)
      node.sockets (plan.sockets.map SocketPlan.name) := by
    refine List.forall₂_map_right_iff.mpr (drawn.sockets.imp fun socket shown planned => ?_)
    rcases planSocket_eq_ok.mp planned with ⟨held, socketHeld, rfl⟩
    exact ⟨held, socketHeld, rfl⟩
  refine nodup_of_forall₂ named (sound.sockets.ports id node found).once ?_
  rintro left leftListed right rightListed name ⟨first, firstHeld, rfl⟩ ⟨second, secondHeld, same⟩
  rcases (sound.sockets.mem_sockets found).mp leftListed with ⟨_, firstToo, firstOwned⟩
  obtain rfl := Option.some.inj (firstHeld.symm.trans firstToo)
  rcases (sound.sockets.mem_sockets found).mp rightListed with ⟨_, secondToo, secondOwned⟩
  obtain rfl := Option.some.inj (secondHeld.symm.trans secondToo)
  exact sound.sockets.named left right first second firstHeld secondHeld (firstOwned.trans secondOwned.symm)
    same.symm

theorem kind_of_planSocket {ids : List SocketId} {kind : Socket → Bool} (exactly : graph.Exactly id ids kind)
    {shown : List SocketPlan} (planned : List.Forall₂ (fun id plan => graph.planSocket id = .ok plan) ids shown)
    {plan : SocketPlan} (member : plan ∈ shown) :
    ∃ socket : Socket, kind socket = true ∧ plan = ⟨socket.name, socket.side, socket.internal⟩ := by
  rcases forall₂_of_mem_right planned member with ⟨listed, isListed, answered⟩
  rcases (exactly listed).mp isListed with ⟨socket, held, -, ofKind⟩
  rcases planSocket_eq_ok.mp answered with ⟨other, otherHeld, rfl⟩
  exact ⟨other, Option.some.inj (held.symm.trans otherHeld) ▸ ofKind, rfl⟩

/-- The three lists of a component hold sockets of one kind each. -/
theorem Drawn.sorted (sound : Sound graph) (found : graph.component? id = some node)
    (drawn : Drawn graph graph.Planned node plan) :
    plan.sockets.filter SocketPlan.isInterfaceInput ++ plan.sockets.filter SocketPlan.isInterfaceOutput ++
      plan.sockets.filter SocketPlan.internal = plan.sockets := by
  have ports := sound.sockets.ports id node found
  have split := drawn.sockets
  unfold Component.sockets at split
  rcases forall₂_append_left split with ⟨interface, internals, same, interfaceShown, internalsShown⟩
  rcases forall₂_append_left interfaceShown with ⟨inputs, outputs, rfl, inputsShown, outputsShown⟩
  have inputKind : ∀ plan ∈ inputs, plan.side = .input ∧ plan.internal = false := by
    intro plan member
    rcases kind_of_planSocket ports.inputs inputsShown member with ⟨socket, kind, rfl⟩
    simpa [Socket.isInterfaceInput] using kind
  have outputKind : ∀ plan ∈ outputs, plan.side = .output ∧ plan.internal = false := by
    intro plan member
    rcases kind_of_planSocket ports.outputs outputsShown member with ⟨socket, kind, rfl⟩
    simpa [Socket.isInterfaceOutput] using kind
  have internalKind : ∀ plan ∈ internals, plan.internal = true := by
    intro plan member
    rcases kind_of_planSocket ports.internals internalsShown member with ⟨socket, kind, rfl⟩
    exact kind
  have fromInputs : inputs.filter SocketPlan.isInterfaceInput = inputs ∧
      inputs.filter SocketPlan.isInterfaceOutput = [] ∧ inputs.filter SocketPlan.internal = [] := by
    simp only [List.filter_eq_self, List.filter_eq_nil_iff]
    refine ⟨fun plan member => ?_, fun plan member => ?_, fun plan member => ?_⟩ <;>
      simp [SocketPlan.isInterfaceInput, SocketPlan.isInterfaceOutput, inputKind plan member]
  have fromOutputs : outputs.filter SocketPlan.isInterfaceInput = [] ∧
      outputs.filter SocketPlan.isInterfaceOutput = outputs ∧ outputs.filter SocketPlan.internal = [] := by
    simp only [List.filter_eq_self, List.filter_eq_nil_iff]
    refine ⟨fun plan member => ?_, fun plan member => ?_, fun plan member => ?_⟩ <;>
      simp [SocketPlan.isInterfaceInput, SocketPlan.isInterfaceOutput, outputKind plan member]
  have fromInternals : internals.filter SocketPlan.isInterfaceInput = [] ∧
      internals.filter SocketPlan.isInterfaceOutput = [] ∧ internals.filter SocketPlan.internal = internals := by
    simp only [List.filter_eq_self, List.filter_eq_nil_iff]
    refine ⟨fun plan member => ?_, fun plan member => ?_, fun plan member => ?_⟩ <;>
      simp [SocketPlan.isInterfaceInput, SocketPlan.isInterfaceOutput, internalKind plan member]
  simp only [same, List.filter_append, fromInputs, fromOutputs, fromInternals, List.append_nil,
    List.nil_append]

theorem name_mem_of_socketNames {ids : List SocketId} {names : List String}
    (named : graph.socketNames ids = .ok names) (drawn : Drawn graph graph.Planned node plan)
    (listed : ∀ id ∈ ids, id ∈ node.sockets) {name : String} (member : name ∈ names) :
    name ∈ plan.sockets.map SocketPlan.name := by
  rcases forall₂_of_mem_right (socketNames_eq_ok.mp named) member with ⟨id, isEnd, socket, held, rfl⟩
  rcases forall₂_of_mem_left drawn.sockets (listed id isEnd) with ⟨shown, shownMember, planned⟩
  rcases planSocket_eq_ok.mp planned with ⟨other, otherHeld, rfl⟩
  obtain rfl := Option.some.inj (held.symm.trans otherHeld)
  exact List.mem_map.mpr ⟨_, shownMember, rfl⟩

theorem Drawn.bound (sound : Sound graph) (found : graph.component? id = some node)
    (drawn : Drawn graph graph.Planned node plan) {computation : ComputationPlan}
    (member : computation ∈ plan.computations) :
    ∃ method, (plan.methods.find? fun method => method.name = computation.method) = some method ∧
      computation.inputs.length = method.inputs ∧ computation.outputs.length = method.outputs ∧
      ∀ name ∈ computation.inputs ++ computation.outputs, name ∈ plan.sockets.map SocketPlan.name := by
  rcases forall₂_of_mem_right drawn.computations member with ⟨work, listed, planned⟩
  rcases planComputation_eq_ok.mp planned with ⟨bound, boundFound, read, written, sameMethod, -⟩
  rcases (sound.computations.works id node found).listed work listed with ⟨_, same, owned⟩
  obtain rfl := Option.some.inj (boundFound.symm.trans same)
  have checked := sound.computations.bound work bound boundFound
  rcases checked.node with ⟨owner, method, ownerFound, -, chosen, inputs, outputs⟩
  rw [owned] at ownerFound
  obtain rfl := Option.some.inj (found.symm.trans ownerFound)
  have isListed {socket : SocketId}
      (held : ∃ held, graph.socket? socket = some held ∧ held.owner = bound.owner) : socket ∈ node.sockets := by
    rw [owned] at held
    exact (sound.sockets.mem_sockets found).mpr held
  refine ⟨method, ?_, ?_, ?_, fun name isEnd => ?_⟩
  · rw [drawn.methods, sameMethod]
    exact chosen
  · exact (socketNames_eq_ok.mp read).length_eq.symm.trans inputs
  · exact (socketNames_eq_ok.mp written).length_eq.symm.trans outputs
  · rcases List.mem_append.mp isEnd with input | output
    · exact name_mem_of_socketNames read drawn (fun socket isInput => isListed (checked.inputs socket isInput)) input
    · exact name_mem_of_socketNames written drawn (fun socket isOutput => isListed (checked.outputs socket isOutput))
        output

/-- The children of a component as its plan shows them. -/
theorem Drawn.child (drawn : Drawn graph graph.Planned node plan) {child : ComponentPlan} (member : child ∈ plan.children) :
    ∃ below childNode, graph.component? below = some childNode ∧ child.config = childNode.toConfig ∧
      graph.Planned below child := by
  rcases forall₂_of_mem_right drawn.children member with ⟨below, listed, planned⟩
  rcases planned.drawn with ⟨childNode, childFound, childDrawn⟩
  exact ⟨below, childNode, childFound, childDrawn.config, planned⟩

theorem Drawn.childNames_nodup (sound : Sound graph) (found : graph.component? id = some node)
    (drawn : Drawn graph graph.Planned node plan) :
    (plan.children.map fun child => child.config.resolvedName).Nodup := by
  have below := (List.forall₂_and_left _ _).mpr ⟨fun _ member => member, drawn.children⟩
  have named : List.Forall₂ (fun child name => ∃ childNode, graph.component? child = some childNode ∧
      childNode.name = name ∧ (name, child) ∈ node.children) (Keyed.values node.children)
      (plan.children.map fun child => child.config.resolvedName) := by
    refine List.forall₂_map_right_iff.mpr (below.imp fun child shown related => ?_)
    rcases related with ⟨member, planned⟩
    rcases planned.drawn with ⟨childNode, childFound, childDrawn⟩
    rcases List.mem_map.mp member with ⟨entry, entryMember, rfl⟩
    rcases sound.tree.child id node found entry entryMember with ⟨_, same, -, name⟩
    obtain rfl := Option.some.inj (childFound.symm.trans same)
    have resolved : shown.config.resolvedName = childNode.name := by
      rw [childDrawn.config]
      rfl
    refine ⟨childNode, childFound, resolved.symm, ?_⟩
    rw [resolved, name]
    exact entryMember
  refine nodup_of_forall₂ named (sound.tree.values_nodup found) ?_
  rintro left - right - name ⟨_, -, -, leftEntry⟩ ⟨_, -, -, rightEntry⟩
  have distinct := sound.tree.distinct id node found
  exact Option.some.inj ((Keyed.get?_of_mem distinct leftEntry).symm.trans (Keyed.get?_of_mem distinct rightEntry))

/-- The plan of a component of a sound graph can be carried out. -/
theorem Drawn.feasible (sound : Sound graph) (found : graph.component? id = some node)
    (drawn : Drawn graph graph.Planned node plan) : plan.Feasible where
  socketNames := drawn.socketNames_nodup sound found
  sorted := drawn.sorted sound found
  methodNames := by
    rw [drawn.methods]
    exact (sound.computations.works id node found).methods
  computations _ member := drawn.bound sound found member
  childNames := drawn.childNames_nodup sound found
  childScopes child member := by
    rcases drawn.child member with ⟨below, childNode, childFound, config, -⟩
    rw [config]
    exact sound.tree.scope below childNode childFound
  childConfigs child member := by
    rcases drawn.child member with ⟨_, childNode, -, config, -⟩
    rw [config]
    rfl

end Feasible

end Graph

end Wiring
