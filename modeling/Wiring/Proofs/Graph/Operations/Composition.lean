import Wiring.Proofs.Graph.Operations.Computations

/-!
Contract: putting components into components, as changes.

Owns: what the plan of an addition has checked, and that `add` and `addMany` are sequences of changes
whatever their outcome.
-/

namespace Wiring.Graph

/-- What has been checked before a component gets a parent. -/
structure AddPlan (graph : Graph) (parent child : ComponentId) (name : String) where
  parentNode : Component
  childNode : Component
  chain : List ComponentId
  parentFound : graph.component? parent = some parentNode
  childFound : graph.component? child = some childNode
  named : childNode.name = name
  free : childNode.added = false
  fresh : childNode.name ∉ Keyed.keys parentNode.children
  climbed : graph.lineage parent = .ok chain
  outside : child ∉ chain

/-- A selected socket has been found at the child and is exposed on its own side. -/
def Selects (graph : Graph) (child : ComponentId) (entry : String × String) (plan : Exposed) : Prop :=
  ∃ id socket, graph.socketNamed? child entry.1 none = .ok (some id) ∧ graph.socket? id = some socket ∧
    plan = ⟨entry.1, entry.2, socket.side⟩

/-- The plan has passed all checks, and exposes the selected sockets. -/
theorem planAdd_checked {graph : Graph} {parent child : ComponentId} {exposure : Exposure} {name : String}
    {exposed : List Exposed} (planned : graph.planAdd parent child exposure = .ok (name, exposed)) :
    ∃ (plan : AddPlan graph parent child name) (selected : Keyed String),
      graph.selection plan.childNode exposure = .ok selected ∧
      List.Forall₂ (Selects graph child) selected exposed := by
  obtain ⟨childNode, childFound, planned⟩ := except_bind_eq_ok.mp planned
  obtain ⟨parentNode, parentFound, planned⟩ := except_bind_eq_ok.mp planned
  by_cases sibling : Keyed.contains parentNode.children childNode.name = true
  · simp only [if_pos sibling] at planned
    cases planned
  simp only [if_neg sibling] at planned
  by_cases placed : childNode.added = true ∨ parent = child
  · simp only [if_pos placed] at planned
    cases planned
  simp only [if_neg placed] at planned
  obtain ⟨chain, climbed, planned⟩ := except_bind_eq_ok.mp planned
  by_cases below : child ∈ chain
  · simp only [if_pos below] at planned
    cases planned
  simp only [if_neg below] at planned
  obtain ⟨selected, selection, planned⟩ := except_bind_eq_ok.mp planned
  obtain ⟨ends, each, same⟩ := except_bind_eq_ok.mp planned
  obtain rfl : ends = exposed := congrArg Prod.snd (Except.ok.inj same)
  rw [Keyed.contains_iff_mem_keys] at sibling
  rw [not_or, Bool.not_eq_true] at placed
  refine ⟨{
    parentNode, childNode, chain
    parentFound := component_eq_ok.mp parentFound
    childFound := component_eq_ok.mp childFound
    named := congrArg Prod.fst (Except.ok.inj same)
    free := placed.1
    fresh := sibling
    climbed, outside := below }, selected, selection, (mapM_eq_ok.mp each).imp fun entry plan answered => ?_⟩
  rcases except_bind_eq_ok.mp answered with ⟨known, named, answered⟩
  cases known with
  | none => cases answered
  | some id =>
      rcases except_bind_eq_ok.mp answered with ⟨socket, held, answered⟩
      exact ⟨id, socket, named, heldSocket_eq_ok.mp held, (Except.ok.inj answered).symm⟩

theorem keeps_expose (parent child : ComponentId) (plan : Exposed) :
    Keeps Changes (expose parent child plan) := by
  obtain ⟨socket, exposed, side⟩ := plan
  refine Keeps.bind (Keeps.query _) fun known => ?_
  have created := keeps_addSockets parent [exposed] (some side) false
  cases side with
  | input =>
      cases known with
      | some id => exact keeps_connect parent _ _
      | none => exact Keeps.bind created fun _ => keeps_connect parent _ _
  | output =>
      cases known with
      | some id => exact keeps_connect parent _ _
      | none => exact Keeps.bind created fun _ => keeps_connect parent _ _

/-- The two edits that give a component its parent. -/
theorem run_attach {graph : Graph} {parent child : ComponentId} {parentNode childNode : Component}
    (parentFound : graph.component? parent = some parentNode)
    (childFound : graph.component? child = some childNode) (name : String) (next : GraphM Unit) :
    (do
      editComponent child (Component.attach parent)
      editComponent parent (Component.adopt name child)
      next).run graph = next.run (graph.withChild parent child name) := by
  obtain ⟨changed, parentAfter⟩ :
      ∃ changed, (graph.changeComponent child (Component.attach parent)).component? parent = some changed := by
    rw [component?_changeComponent, parentFound]
    split
    · exact ⟨_, rfl⟩
    · exact ⟨parentNode, rfl⟩
  rw [run_bind_ok (run_editComponent childFound _), run_bind_ok (run_editComponent parentAfter _)]
  rfl

theorem keeps_add (parent child : ComponentId) (exposure : Exposure) :
    Keeps Changes (add parent child exposure) := by
  intro graph
  refine Keeps.query_bind_of fun answer planned => ?_
  obtain ⟨name, exposed⟩ := answer
  obtain ⟨plan, -⟩ := planAdd_checked planned
  have attached := run_attach plan.parentFound plan.childFound name (exposed.forM (expose parent child))
  have placed : Change graph (graph.withChild parent child name) := plan.named ▸
    .child parent child plan.parentNode plan.childNode plan.chain plan.parentFound plan.childFound
      plan.free plan.fresh plan.climbed plan.outside
  have changed : Changes graph (after (exposed.forM (expose parent child))
      (graph.withChild parent child name)) :=
    .head placed (Keeps.forM (keeps_expose parent child) exposed _)
  exact (congrArg Prod.snd attached).symm.subst (motive := Changes graph) changed

theorem keeps_addMany (parent : ComponentId) (children : List ComponentId) (exposures : Exposures) :
    Keeps Changes (addMany parent children exposures) := by
  refine Keeps.forM (fun child => ?_) children
  cases exposures with
  | each exposure => exact keeps_add parent child exposure
  | nothing => exact keeps_add parent child .nothing
  | byName chosen => exact Keeps.bind (Keeps.query _) fun node => keeps_add parent child _

end Wiring.Graph
