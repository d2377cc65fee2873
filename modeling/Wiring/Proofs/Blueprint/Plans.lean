import Wiring.Proofs.Graph.Sound
import Wiring.Proofs.Graph.Sound.Subtree
import Wiring.Blueprint

/-!
Contract: plans of components.

Owns: `Drawn` and `Planned`, what it means that a plan shows a component, without the fuel of the traversal;
that a sound graph has one plan for each of its components; and `Carries`, under which a later graph has the
same plans.

Does not own: the links and bound spaces of a blueprint.
-/

namespace Wiring

namespace ComponentPlan

def sockets : ComponentPlan → List SocketPlan
  | .node _ sockets _ _ _ _ => sockets

def methods : ComponentPlan → List Method
  | .node _ _ methods _ _ _ => methods

def computations : ComponentPlan → List ComputationPlan
  | .node _ _ _ computations _ _ => computations

def hook : ComponentPlan → Option Hook
  | .node _ _ _ _ hook _ => hook

/-- The same component, configured differently. -/
def withConfig (config : ComponentConfig) : ComponentPlan → ComponentPlan
  | .node _ sockets methods computations hook children =>
      .node config sockets methods computations hook children

@[simp] theorem config_withConfig (config : ComponentConfig) (plan : ComponentPlan) :
    (plan.withConfig config).config = config := by
  cases plan
  rfl

@[simp] theorem sockets_withConfig (config : ComponentConfig) (plan : ComponentPlan) :
    (plan.withConfig config).sockets = plan.sockets := by
  cases plan
  rfl

@[simp] theorem methods_withConfig (config : ComponentConfig) (plan : ComponentPlan) :
    (plan.withConfig config).methods = plan.methods := by
  cases plan
  rfl

@[simp] theorem computations_withConfig (config : ComponentConfig) (plan : ComponentPlan) :
    (plan.withConfig config).computations = plan.computations := by
  cases plan
  rfl

@[simp] theorem hook_withConfig (config : ComponentConfig) (plan : ComponentPlan) :
    (plan.withConfig config).hook = plan.hook := by
  cases plan
  rfl

@[simp] theorem children_withConfig (config : ComponentConfig) (plan : ComponentPlan) :
    (plan.withConfig config).children = plan.children := by
  cases plan
  rfl

theorem withConfig_self (plan : ComponentPlan) : plan.withConfig plan.config = plan := by
  cases plan
  rfl

end ComponentPlan

/-- The part of a component that its plan depends on. -/
def Component.drawn (node : Component) : Component :=
  { node with
    parent := none, added := false, sources := [], registry := [], complete := false, hookDone := false
    deferred := [] }

theorem Component.fields_of_drawn {left right : Component} (same : left.drawn = right.drawn) :
    left.toConfig = right.toConfig ∧ left.sockets = right.sockets ∧ left.methods = right.methods ∧
      left.computations = right.computations ∧ left.hook = right.hook ∧ left.children = right.children := by
  show left.drawn.toConfig = right.drawn.toConfig ∧ left.drawn.sockets = right.drawn.sockets ∧
    left.drawn.methods = right.drawn.methods ∧ left.drawn.computations = right.drawn.computations ∧
    left.drawn.hook = right.drawn.hook ∧ left.drawn.children = right.drawn.children
  rw [same]
  exact ⟨rfl, rfl, rfl, rfl, rfl, rfl⟩

namespace Graph

variable {graph : Graph}

/-! ### Plans of sockets and computations -/

theorem planSocket_eq_ok {id : SocketId} {plan : SocketPlan} :
    graph.planSocket id = .ok plan ↔
      ∃ socket, graph.socket? id = some socket ∧ plan = ⟨socket.name, socket.side, socket.internal⟩ := by
  constructor
  · intro planned
    rcases except_bind_eq_ok.mp planned with ⟨socket, held, same⟩
    exact ⟨socket, heldSocket_eq_ok.mp held, (Except.ok.inj same).symm⟩
  · rintro ⟨socket, held, rfl⟩
    exact except_bind_eq_ok.mpr ⟨socket, heldSocket_eq_ok.mpr held, rfl⟩

theorem socketNames_eq_ok {ids : List SocketId} {names : List String} :
    graph.socketNames ids = .ok names ↔
      List.Forall₂ (fun id name => ∃ socket, graph.socket? id = some socket ∧ socket.name = name) ids names := by
  have read (id : SocketId) (name : String) : Socket.name <$> graph.heldSocket id = .ok name ↔
      ∃ socket, graph.socket? id = some socket ∧ socket.name = name := by
    rw [except_map_eq_ok]
    exact exists_congr fun socket => and_congr_left' heldSocket_eq_ok
  unfold socketNames
  rw [mapM_eq_ok]
  simp only [read]

theorem planComputation_eq_ok {id : ComputationId} {plan : ComputationPlan} :
    graph.planComputation id = .ok plan ↔ ∃ computation, graph.computation? id = some computation ∧
      graph.socketNames computation.inputs = .ok plan.inputs ∧
      graph.socketNames computation.outputs = .ok plan.outputs ∧
      plan.method = computation.method ∧ plan.settings = computation.settings := by
  constructor
  · intro planned
    rcases except_bind_eq_ok.mp planned with ⟨computation, held, planned⟩
    rcases except_bind_eq_ok.mp planned with ⟨inputs, read, planned⟩
    rcases except_bind_eq_ok.mp planned with ⟨outputs, written, same⟩
    obtain rfl := Except.ok.inj same
    exact ⟨computation, heldComputation_eq_ok.mp held, read, written, rfl, rfl⟩
  · rintro ⟨computation, held, read, written, method, settings⟩
    refine except_bind_eq_ok.mpr ⟨computation, heldComputation_eq_ok.mpr held, ?_⟩
    refine except_bind_eq_ok.mpr ⟨plan.inputs, read, except_bind_eq_ok.mpr ⟨plan.outputs, written, ?_⟩⟩
    rw [← method, ← settings]
    rfl

/-! ### Plans of components -/

/-- A plan shows the component, given what it means that plans show its children. -/
structure Drawn (graph : Graph) (below : ComponentId → ComponentPlan → Prop) (node : Component)
    (plan : ComponentPlan) : Prop where
  config : plan.config = node.toConfig
  sockets : List.Forall₂ (fun id socket => graph.planSocket id = .ok socket) node.sockets plan.sockets
  methods : plan.methods = node.methods
  computations : List.Forall₂ (fun id computation => graph.planComputation id = .ok computation)
    node.computations plan.computations
  hook : plan.hook = node.hook
  children : List.Forall₂ below (Keyed.values node.children) plan.children

theorem Drawn.imp {below wider : ComponentId → ComponentPlan → Prop} {node : Component} {plan : ComponentPlan}
    (drawn : Drawn graph below node plan) (weaker : ∀ id plan, below id plan → wider id plan) :
    Drawn graph wider node plan :=
  { drawn with children := drawn.children.imp weaker }

theorem planComponent_eq_ok {fuel : Nat} {id : ComponentId} {plan : ComponentPlan} :
    graph.planComponent (fuel + 1) id = .ok plan ↔ ∃ node, graph.component? id = some node ∧
      Drawn graph (fun child plan => graph.planComponent fuel child = .ok plan) node plan := by
  constructor
  · intro planned
    rcases except_bind_eq_ok.mp planned with ⟨node, held, planned⟩
    rcases except_bind_eq_ok.mp planned with ⟨sockets, socketsPlanned, planned⟩
    rcases except_bind_eq_ok.mp planned with ⟨computations, computationsPlanned, planned⟩
    rcases except_bind_eq_ok.mp planned with ⟨children, childrenPlanned, same⟩
    obtain rfl := Except.ok.inj same
    exact ⟨node, heldComponent_eq_ok.mp held, rfl, mapM_eq_ok.mp socketsPlanned, rfl,
      mapM_eq_ok.mp computationsPlanned, rfl, mapM_eq_ok.mp childrenPlanned⟩
  · rintro ⟨node, found, drawn⟩
    cases plan with
    | node config sockets methods computations hook children =>
        refine except_bind_eq_ok.mpr ⟨node, heldComponent_eq_ok.mpr found, ?_⟩
        refine except_bind_eq_ok.mpr ⟨sockets, mapM_eq_ok.mpr drawn.sockets, ?_⟩
        refine except_bind_eq_ok.mpr ⟨computations, mapM_eq_ok.mpr drawn.computations, ?_⟩
        refine except_bind_eq_ok.mpr ⟨children, mapM_eq_ok.mpr drawn.children, ?_⟩
        have sameConfig : config = node.toConfig := drawn.config
        have sameMethods : methods = node.methods := drawn.methods
        have sameHook : hook = node.hook := drawn.hook
        rw [sameConfig, sameMethods, sameHook]
        rfl

/-- More fuel does not change a plan. -/
theorem planComponent_mono {fuel more : Nat} (enough : fuel ≤ more) {id : ComponentId} {plan : ComponentPlan}
    (planned : graph.planComponent fuel id = .ok plan) : graph.planComponent more id = .ok plan := by
  induction fuel generalizing more id plan with
  | zero => cases planned
  | succ fuel inductionHypothesis =>
      obtain ⟨more, rfl⟩ : ∃ less, more = less + 1 := ⟨more - 1, by omega⟩
      rw [planComponent_eq_ok] at planned ⊢
      rcases planned with ⟨node, found, drawn⟩
      exact ⟨node, found, drawn.imp fun child below => inductionHypothesis (by omega)⟩

/-- The plan shows the component and everything below it. -/
def Planned (graph : Graph) (id : ComponentId) (plan : ComponentPlan) : Prop :=
  ∃ fuel, graph.planComponent fuel id = .ok plan

namespace Planned

theorem drawn {id : ComponentId} {plan : ComponentPlan} (planned : graph.Planned id plan) :
    ∃ node, graph.component? id = some node ∧ Drawn graph graph.Planned node plan := by
  rcases planned with ⟨fuel, planned⟩
  cases fuel with
  | zero => cases planned
  | succ fuel =>
      rcases planComponent_eq_ok.mp planned with ⟨node, found, drawn⟩
      exact ⟨node, found, drawn.imp fun child below childPlanned => ⟨fuel, childPlanned⟩⟩

theorem drawn_of_found {id : ComponentId} {plan : ComponentPlan} (planned : graph.Planned id plan) {node : Component}
    (found : graph.component? id = some node) : Drawn graph graph.Planned node plan := by
  rcases planned.drawn with ⟨other, otherFound, drawn⟩
  rwa [Option.some.inj (found.symm.trans otherFound)]

/-- Some fuel is enough for several components. -/
theorem exists_fuel {ids : List ComponentId} {plans : List ComponentPlan}
    (planned : List.Forall₂ graph.Planned ids plans) :
    ∃ fuel, List.Forall₂ (fun id plan => graph.planComponent fuel id = .ok plan) ids plans := by
  induction planned with
  | nil => exact ⟨0, .nil⟩
  | cons head _ inductionHypothesis =>
      rcases head with ⟨first, firstPlanned⟩
      rcases inductionHypothesis with ⟨others, othersPlanned⟩
      refine ⟨max first others, .cons (planComponent_mono (Nat.le_max_left _ _) firstPlanned) ?_⟩
      exact othersPlanned.imp fun id plan => planComponent_mono (Nat.le_max_right _ _)

theorem of_drawn {id : ComponentId} {node : Component} {plan : ComponentPlan}
    (found : graph.component? id = some node) (drawn : Drawn graph graph.Planned node plan) :
    graph.Planned id plan := by
  rcases exists_fuel drawn.children with ⟨fuel, children⟩
  exact ⟨fuel + 1, planComponent_eq_ok.mpr ⟨node, found, { drawn with children }⟩⟩

theorem unique {id : ComponentId} {left right : ComponentPlan} (first : graph.Planned id left)
    (second : graph.Planned id right) : left = right := by
  rcases first with ⟨fuel, first⟩
  rcases second with ⟨other, second⟩
  have leftMore := planComponent_mono (Nat.le_max_left fuel other) first
  have rightMore := planComponent_mono (Nat.le_max_right fuel other) second
  exact Except.ok.inj (leftMore.symm.trans rightMore)

end Planned

/-! ### Sound graphs have plans -/

namespace Sound

variable (sound : Sound graph)
include sound

theorem exists_planSocket {id : ComponentId} {node : Component} (found : graph.component? id = some node)
    {socket : SocketId} (listed : socket ∈ node.sockets) : ∃ plan, graph.planSocket socket = .ok plan := by
  rcases (sound.sockets.mem_sockets found).mp listed with ⟨held, socketHeld, -⟩
  exact ⟨_, planSocket_eq_ok.mpr ⟨held, socketHeld, rfl⟩⟩

omit sound in
theorem exists_socketNames {ids : List SocketId} (held : ∀ id ∈ ids, ∃ socket, graph.socket? id = some socket) :
    ∃ names, graph.socketNames ids = .ok names := by
  have named : ∀ id ∈ ids, ∃ name, ∃ socket, graph.socket? id = some socket ∧ socket.name = name := by
    intro id member
    rcases held id member with ⟨socket, socketHeld⟩
    exact ⟨socket.name, socket, socketHeld, rfl⟩
  rcases exists_forall₂ named with ⟨names, related⟩
  exact ⟨names, socketNames_eq_ok.mpr related⟩

theorem exists_planComputation {id : ComponentId} {node : Component} (found : graph.component? id = some node)
    {computation : ComputationId} (listed : computation ∈ node.computations) :
    ∃ plan, graph.planComputation computation = .ok plan := by
  rcases (sound.computations.works id node found).listed computation listed with ⟨bound, boundFound, -⟩
  have ends := sound.computations.bound computation bound boundFound
  rcases exists_socketNames fun socket member => (ends.inputs socket member).imp fun _ held => held.1 with
    ⟨inputs, read⟩
  rcases exists_socketNames fun socket member => (ends.outputs socket member).imp fun _ held => held.1 with
    ⟨outputs, written⟩
  exact ⟨⟨bound.method, inputs, outputs, bound.settings⟩,
    planComputation_eq_ok.mpr ⟨bound, boundFound, read, written, rfl, rfl⟩⟩

/-- A component is as far from the end of the fuel as its chain of ancestors is long. -/
theorem exists_planComponent {fuel : Nat} {id : ComponentId} {chain : List ComponentId}
    (ancestry : graph.Ancestry id chain) (enough : graph.components.size + 1 ≤ chain.length + fuel) :
    ∃ plan, graph.planComponent fuel id = .ok plan := by
  induction fuel generalizing id chain with
  | zero =>
      have bounded := ancestry.length_le
      omega
  | succ fuel inductionHypothesis =>
      obtain ⟨rest, rfl⟩ := ancestry.head
      rcases ancestry.exists_of_mem List.mem_cons_self with ⟨node, found⟩
      have below : ∀ child ∈ Keyed.values node.children, ∃ plan, graph.planComponent fuel child = .ok plan := by
        intro child member
        rcases sound.tree.child_found found member with ⟨childNode, childFound, under⟩
        refine inductionHypothesis (.child child id childNode _ childFound under ancestry) ?_
        rw [List.length_cons]
        omega
      rcases exists_forall₂ fun socket => sound.exists_planSocket found with ⟨sockets, socketsPlanned⟩
      rcases exists_forall₂ fun computation => sound.exists_planComputation found with
        ⟨computations, computationsPlanned⟩
      rcases exists_forall₂ below with ⟨children, childrenPlanned⟩
      exact ⟨.node node.toConfig sockets node.methods computations node.hook children,
        planComponent_eq_ok.mpr ⟨node, found, rfl, socketsPlanned, rfl, computationsPlanned, rfl, childrenPlanned⟩⟩

theorem planComponent_size {id : ComponentId} {node : Component} (found : graph.component? id = some node) :
    ∃ plan, graph.planComponent graph.components.size id = .ok plan := by
  rcases sound.tree.rooted id node found with ⟨chain, ancestry⟩
  refine sound.exists_planComponent ancestry ?_
  rcases ancestry.head with ⟨rest, rfl⟩
  rw [List.length_cons]
  omega

end Sound

/-! ### Later graphs -/

/-- Sockets and computations stay, and sockets change at most in what is connected to them. -/
structure Carries (graph later : Graph) : Prop where
  socket : ∀ id socket, graph.socket? id = some socket →
    ∃ new, later.socket? id = some new ∧ new.face = socket.face
  computation : ∀ id computation, graph.computation? id = some computation →
    later.computation? id = some computation

namespace Carries

variable {later : Graph}

theorem trans {middle : Graph} (left : Carries graph middle) (right : Carries middle later) :
    Carries graph later := by
  refine ⟨fun id socket held => ?_, fun id computation found =>
    right.computation id computation (left.computation id computation found)⟩
  rcases left.socket id socket held with ⟨between, betweenHeld, same⟩
  rcases right.socket id between betweenHeld with ⟨new, newHeld, sameLater⟩
  exact ⟨new, newHeld, sameLater.trans same⟩

theorem planSocket (carries : Carries graph later) {id : SocketId} {plan : SocketPlan}
    (planned : graph.planSocket id = .ok plan) : later.planSocket id = .ok plan := by
  rcases planSocket_eq_ok.mp planned with ⟨socket, held, rfl⟩
  rcases carries.socket id socket held with ⟨new, newHeld, same⟩
  refine planSocket_eq_ok.mpr ⟨new, newHeld, ?_⟩
  show (⟨socket.face.name, socket.face.side, socket.face.internal⟩ : SocketPlan) =
    ⟨new.face.name, new.face.side, new.face.internal⟩
  rw [same]

theorem socketNames (carries : Carries graph later) {ids : List SocketId} {names : List String}
    (named : graph.socketNames ids = .ok names) : later.socketNames ids = .ok names := by
  rw [socketNames_eq_ok] at named ⊢
  refine named.imp fun id name known => ?_
  rcases known with ⟨socket, held, rfl⟩
  rcases carries.socket id socket held with ⟨new, newHeld, same⟩
  exact ⟨new, newHeld, Socket.name_of_face same⟩

theorem planComputation (carries : Carries graph later) {id : ComputationId} {plan : ComputationPlan}
    (planned : graph.planComputation id = .ok plan) : later.planComputation id = .ok plan := by
  rcases planComputation_eq_ok.mp planned with ⟨computation, found, read, written, same⟩
  exact planComputation_eq_ok.mpr ⟨computation, carries.computation id computation found,
    carries.socketNames read, carries.socketNames written, same⟩

/-- A plan stays if the components it shows stay, up to their place in the tree. -/
theorem planned (carries : Carries graph later) {on : ComponentId → Prop}
    (closed : ∀ id node, on id → graph.component? id = some node → ∀ child ∈ Keyed.values node.children, on child)
    (component : ∀ id node, on id → graph.component? id = some node →
      ∃ new, later.component? id = some new ∧ new.drawn = node.drawn)
    {id : ComponentId} (within : on id) {plan : ComponentPlan} (planned : graph.Planned id plan) :
    later.Planned id plan := by
  rcases planned with ⟨fuel, planned⟩
  induction fuel generalizing id plan with
  | zero => cases planned
  | succ fuel inductionHypothesis =>
      rcases planComponent_eq_ok.mp planned with ⟨node, found, drawn⟩
      rcases component id node within found with ⟨new, newFound, same⟩
      rcases Component.fields_of_drawn same with ⟨config, sockets, methods, computations, hook, children⟩
      refine Planned.of_drawn newFound ⟨drawn.config.trans config.symm, ?_, drawn.methods.trans methods.symm, ?_,
        drawn.hook.trans hook.symm, ?_⟩
      · rw [sockets]
        exact drawn.sockets.imp fun _ _ => carries.planSocket
      · rw [computations]
        exact drawn.computations.imp fun _ _ => carries.planComputation
      · rw [children]
        have below := (List.forall₂_and_left _ _).mpr ⟨closed id node within found, drawn.children⟩
        exact below.imp fun child plan shown => inductionHypothesis shown.1 shown.2

theorem planned_of_components (carries : Carries graph later)
    (same : ∀ id, later.component? id = graph.component? id) {id : ComponentId} {plan : ComponentPlan}
    (shown : graph.Planned id plan) : later.Planned id plan := by
  have kept : ∀ id node, True → graph.component? id = some node →
      ∃ new, later.component? id = some new ∧ new.drawn = node.drawn :=
    fun id node _ found => ⟨node, (same id).trans found, rfl⟩
  exact carries.planned (fun _ _ _ _ _ _ => trivial) kept trivial shown

end Carries

end Graph

end Wiring
