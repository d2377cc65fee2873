import Wiring.Proofs.Graph.Operations.Copies

/-!
Contract: the edits that operations consist of.

Owns: `Plain`, the changes of components that leave marks and variables alone; `Structural`, the relations between
graphs that such changes keep, together with changes of sockets that keep their owners and with new components,
sockets and computations; and that all operations but those on variables keep them, whatever their outcome.

Does not own: the relations.
-/

namespace Wiring.Graph

/-- The marks of builds and the registry stay as they are, and a hook is at most replaced. -/
structure Plain (change : Component → Component) : Prop where
  complete : ∀ node, (change node).complete = node.complete
  hookDone : ∀ node, (change node).hookDone = node.hookDone
  registry : ∀ node, (change node).registry = node.registry
  hook : ∀ node, node.hook.isSome = true → (change node).hook.isSome = true

theorem owner_setList (entry : LinkEntry) (connections : List Connection) (socket : Socket) :
    (entry.setList connections socket).owner = socket.owner := by
  unfold LinkEntry.setList
  split <;> rfl

structure Structural (related : Graph → Graph → Prop) : Prop where
  changeComponent : ∀ (graph : Graph) id {change}, Plain change → related graph (graph.changeComponent id change)
  changeSocket : ∀ (graph : Graph) id {change : Socket → Socket}, (∀ socket, (change socket).owner = socket.owner) →
    related graph (graph.changeSocket id change)
  pushComponent : ∀ (graph : Graph) config, related graph (graph.pushComponent (.ofConfig config))
  pushSocket : ∀ (graph : Graph) socket, related graph (graph.pushSocket socket)
  pushComputation : ∀ (graph : Graph) computation, related graph (graph.pushComputation computation)

namespace Structural

variable {related : Graph → Graph → Prop} [IsPreorder Graph related] (structural : Structural related)

include structural

theorem editComponent (id : ComponentId) {change : Component → Component} (plain : Plain change) :
    Keeps related (Graph.editComponent id change) :=
  Keeps.bind (Keeps.query _) fun _ _ => structural.changeComponent _ id plain

theorem editSocket (id : SocketId) {change : Socket → Socket}
    (owner : ∀ socket, (change socket).owner = socket.owner) : Keeps related (Graph.editSocket id change) :=
  Keeps.bind (Keeps.query _) fun _ _ => structural.changeSocket _ id owner

/-! ### Operations -/

theorem create (config : ComponentConfig) : Keeps related (Graph.create config) := by
  unfold Graph.create
  split
  · refine Keeps.bind Keeps.get fun _ => ?_
    exact Keeps.bind (fun graph => structural.pushComponent graph _) fun _ => Keeps.pure _
  · exact Keeps.throw _

theorem setHook (id : ComponentId) (hook : Hook) : Keeps related (Graph.setHook id hook) :=
  Keeps.bind (Keeps.query _) fun _ =>
    structural.editComponent id ⟨fun _ => rfl, fun _ => rfl, fun _ => rfl, fun _ _ => rfl⟩

theorem addSockets (owner : ComponentId) (names : List String) (side : Option Side) (internal : Bool) :
    Keeps related (Graph.addSockets owner names side internal) := by
  refine Keeps.bind (Keeps.query _) fun plan => Keeps.mapM (fun socket => ?_) plan
  refine Keeps.bind Keeps.get fun graph => Keeps.bind (fun graph => structural.pushSocket graph _) fun _ => ?_
  have plain : Plain (Component.enlist internal socket.2 graph.nextSocket) := by
    constructor
    all_goals
      intro node
      cases internal
      · cases socket.2 <;> first | rfl | exact id
      · first | rfl | exact id
  exact Keeps.bind (structural.editComponent owner plain) fun _ => Keeps.pure _

theorem ensureInternal (owner : ComponentId) (name : String) : Keeps related (Graph.ensureInternal owner name) := by
  refine Keeps.bind (Keeps.query _) fun known => ?_
  cases known with
  | some id => exact Keeps.pure _
  | none =>
      refine Keeps.bind (structural.addSockets owner [name] _ _) fun ids => ?_
      cases ids with
      | nil => exact Keeps.throw _
      | cons id rest => exact Keeps.pure _

theorem connect (viewer : ComponentId) (source target : Endpoint) :
    Keeps related (Graph.connect viewer source target) := by
  refine Keeps.bind (Keeps.query _) fun entries => Keeps.forM (fun entry => ?_) entries
  exact structural.editSocket entry.socket fun socket => owner_setList entry _ socket

theorem disconnect (viewer : ComponentId) (source target : Endpoint) :
    Keeps related (Graph.disconnect viewer source target) := by
  refine Keeps.bind (Keeps.query _) fun entries => Keeps.bind (Keeps.query _) fun _ => ?_
  refine Keeps.forM (fun entry => Keeps.bind (Keeps.query _) fun socket => ?_) entries
  split
  · exact structural.editSocket entry.socket fun socket => owner_setList entry _ socket
  · exact Keeps.throw _

theorem defineInputs (owner : ComponentId) (names : List String) (space : Option Space) :
    Keeps related (Graph.defineInputs owner names space) := by
  refine Keeps.bind (structural.addSockets owner names _ _) fun ids => ?_
  cases space with
  | none => exact Keeps.pure _
  | some space =>
      exact Keeps.bind (Keeps.forM (fun _ => structural.connect owner _ _) ids) fun _ => Keeps.pure _

theorem register (id : ComponentId) (method : Method) : Keeps related (Graph.register id method) := by
  refine Keeps.bind (Keeps.query _) fun node => ?_
  split
  · exact Keeps.throw _
  · exact structural.editComponent id ⟨fun _ => rfl, fun _ => rfl, fun _ => rfl, fun _ has => has⟩

theorem compute (owner : ComponentId) (inputs outputs : List String) (method : Option String)
    (options : Options) : Keeps related (Graph.compute owner inputs outputs method options) := by
  refine Keeps.bind (Keeps.query _) fun plan => ?_
  refine Keeps.bind (Keeps.mapM (structural.ensureInternal owner) inputs) fun sockets => ?_
  refine Keeps.bind Keeps.get fun graph => ?_
  refine Keeps.bind (Keeps.forM (fun socket => ?_) sockets) fun _ => ?_
  · exact structural.editSocket socket fun _ => rfl
  refine Keeps.bind (Keeps.forM (fun socket => ?_) plan.2.2) fun _ => ?_
  · exact structural.editSocket socket fun _ => rfl
  refine Keeps.bind (fun graph => structural.pushComputation graph _) fun _ => ?_
  refine Keeps.bind (structural.editComponent owner ?_) fun _ => Keeps.pure _
  exact ⟨fun _ => rfl, fun _ => rfl, fun _ => rfl, fun _ has => has⟩

theorem expose (parent child : ComponentId) (plan : Exposed) : Keeps related (Graph.expose parent child plan) := by
  obtain ⟨socket, exposed, side⟩ := plan
  refine Keeps.bind (Keeps.query _) fun known => ?_
  have created := structural.addSockets parent [exposed] (some side) false
  cases side with
  | input =>
      cases known with
      | some id => exact structural.connect parent _ _
      | none => exact Keeps.bind created fun _ => structural.connect parent _ _
  | output =>
      cases known with
      | some id => exact structural.connect parent _ _
      | none => exact Keeps.bind created fun _ => structural.connect parent _ _

theorem add (parent child : ComponentId) (exposure : Exposure) : Keeps related (Graph.add parent child exposure) := by
  refine Keeps.bind (Keeps.query _) fun plan => ?_
  refine Keeps.bind (structural.editComponent child ?_) fun _ => ?_
  · exact ⟨fun _ => rfl, fun _ => rfl, fun _ => rfl, fun _ has => has⟩
  refine Keeps.bind (structural.editComponent parent ?_) fun _ => ?_
  · exact ⟨fun _ => rfl, fun _ => rfl, fun _ => rfl, fun _ has => has⟩
  exact Keeps.forM (structural.expose parent child) plan.2

theorem addMany (parent : ComponentId) (children : List ComponentId) (exposures : Exposures) :
    Keeps related (Graph.addMany parent children exposures) := by
  refine Keeps.forM (fun child => ?_) children
  cases exposures with
  | each exposure => exact structural.add parent child exposure
  | nothing => exact structural.add parent child .nothing
  | byName chosen => exact Keeps.bind (Keeps.query _) fun _ => structural.add parent child _

mutual

theorem instantiatePlan (config : ComponentConfig) :
    ∀ plan, Keeps related (Graph.instantiatePlan config plan)
  | .node _ sockets methods computations hook children => by
      rw [Graph.instantiatePlan]
      refine Keeps.bind (structural.create config) fun id => ?_
      refine Keeps.bind (Keeps.forM (fun socket => ?_) sockets) fun _ => ?_
      · exact Keeps.bind (structural.addSockets id _ _ _) fun _ => Keeps.pure _
      refine Keeps.bind (Keeps.forM (structural.register id) methods) fun _ => ?_
      refine Keeps.bind (Keeps.forM (fun computation => ?_) computations) fun _ => ?_
      · exact Keeps.bind (structural.compute id _ _ _ _) fun _ => Keeps.pure _
      have below : Keeps related (do
          Graph.instantiateChildren id children
          return id) :=
        Keeps.bind (instantiateChildren id children) fun _ => Keeps.pure _
      cases hook with
      | some hook => exact Keeps.bind (structural.setHook id hook) fun _ => below
      | none => exact below

theorem instantiateChildren (parent : ComponentId) :
    ∀ children, Keeps related (Graph.instantiateChildren parent children)
  | [] => by
      rw [Graph.instantiateChildren]
      exact Keeps.pure _
  | child :: rest => by
      rw [Graph.instantiateChildren]
      refine Keeps.bind (instantiatePlan child.config child) fun id => ?_
      exact Keeps.bind (structural.add parent id .nothing) fun _ => instantiateChildren parent rest

end

theorem instantiate (blueprint : Blueprint) (name scope : Option String) :
    Keeps related (Graph.instantiate blueprint name scope) := by
  rw [instantiate_eq]
  refine Keeps.bind (structural.instantiatePlan _ blueprint.root) fun root => ?_
  refine Keeps.bind (Keeps.forM (fun link => ?_) blueprint.links) fun _ => ?_
  · exact Keeps.bind (Keeps.query _) fun _ => Keeps.bind (Keeps.query _) fun _ => structural.connect root _ _
  refine Keeps.bind (Keeps.forM (fun binding => ?_) blueprint.bindings) fun _ => Keeps.pure _
  refine Keeps.bind (Keeps.query _) fun socket => ?_
  split
  · exact structural.connect root _ _
  · exact structural.connect root _ _

theorem copy (id : ComponentId) (name scope : Option String) : Keeps related (Graph.copy id name scope) :=
  Keeps.bind (Keeps.query _) fun blueprint => structural.instantiate blueprint name _

end Structural

end Wiring.Graph
