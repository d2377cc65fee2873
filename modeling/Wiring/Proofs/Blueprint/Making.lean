import Wiring.Proofs.Blueprint.Raising

/-!
Contract: plans of sound graphs can be carried out.

Owns: one lemma for each step of making a component, by which the step succeeds and the component is shown by
one part more of the plan; and `instantiatePlan_ok`, by which a whole plan of a sound graph, with everything
below, is carried out in any other sound graph and shows what was made.
-/

namespace Wiring.Graph

variable {base graph : Graph} {root : ComponentId} {config : ComponentConfig} {sockets : List SocketPlan}
  {methods : List Method} {computations : List ComputationPlan} {hook : Option Hook}
  {children : List ComponentPlan}

/-! ### The component itself -/

theorem run_create {config : ComponentConfig} (scope : isScope config.scope = true) (graph : Graph) :
    (create config).run graph = (.ok graph.nextComponent, graph.pushComponent (.ofConfig config)) := by
  unfold create
  rw [if_pos scope]
  rfl

theorem extends_pushComponent (graph : Graph) (node : Component) : Extends graph (graph.pushComponent node) where
  component _ _ found := component?_pushComponent_eq_some.mpr (.inr found)
  socket _ _ held := held
  computation _ _ found := found

theorem raise_create (sound : Sound base) {config : ComponentConfig} (scope : isScope config.scope = true) :
    Raising base (base.pushComponent (.ofConfig config)) base.nextComponent
      (.node config.explicit [] [] [] none []) where
  begun := sound
  sound := sound.change (.create config scope)
  fresh := component?_nextComponent base
  extended := extends_pushComponent base _
  bare id socket new held := by
    rw [socket?_pushComponent, new] at held
    contradiction
  node := by
    refine ⟨.ofConfig config, ?_, rfl, rfl, .nil, .nil, .nil, rfl, .nil, rfl, .nil⟩
    rw [component?_pushComponent, if_pos rfl]

/-! ### Sockets -/

/-- The next of several things with different names has a name that those before it do not have. -/
theorem name_notMem {α : Type} {key : α → String} {front rest : List α} {item : α}
    (names : ((front ++ [item] ++ rest).map key).Nodup) : key item ∉ front.map key := by
  rw [List.map_append, List.map_append, List.nodup_append] at names
  have apart := (List.nodup_append.mp names.1).2.2
  intro repeated
  exact apart _ repeated _ (by simp) rfl

theorem touches_withSocket (graph : Graph) (root : ComponentId) (internal : Bool) (name : String) (side : Side) :
    Touches root graph (graph.withSocket root internal name side) where
  carries :=
    ⟨fun id socket held => ⟨socket, socket?_withSocket_of_some held root internal name side, rfl⟩,
      fun _ _ found => found⟩
  component id node differ found := by
    rw [component?_withSocket, if_neg (Ne.symm differ), found]
  socket id socket held _ := socket?_withSocket_of_some held root internal name side
  bare id socket held old := by
    rcases socket?_withSocket_eq_some.mp held with ⟨-, rfl⟩ | known
    · exact ⟨rfl, rfl, rfl, rfl⟩
    · exact old socket known

theorem Sketched.enlist {node : Component} {id : SocketId} {socket : SocketPlan}
    (sketched : Sketched graph node (.node config sockets methods computations hook children))
    (planned : graph.planSocket id = .ok socket) :
    Sketched graph (node.enlist socket.internal socket.side id)
      (.node config (sockets ++ [socket]) methods computations hook children) := by
  rcases socket with ⟨name, side, internal⟩
  have more (kind : SocketPlan → Bool) (known : kind ⟨name, side, internal⟩ = true) {ids : List SocketId}
      (shown : List.Forall₂ (fun id socket => graph.planSocket id = .ok socket) ids (sockets.filter kind)) :
      List.Forall₂ (fun id socket => graph.planSocket id = .ok socket) (ids ++ [id])
        ((sockets ++ [(⟨name, side, internal⟩ : SocketPlan)]).filter kind) := by
    rw [List.filter_append, List.filter_cons_of_pos known]
    exact List.rel_append shown (.cons planned .nil)
  have same (kind : SocketPlan → Bool) (known : kind ⟨name, side, internal⟩ = false) {ids : List SocketId}
      (shown : List.Forall₂ (fun id socket => graph.planSocket id = .ok socket) ids (sockets.filter kind)) :
      List.Forall₂ (fun id socket => graph.planSocket id = .ok socket) ids
        ((sockets ++ [(⟨name, side, internal⟩ : SocketPlan)]).filter kind) := by
    rw [List.filter_append, List.filter_cons_of_neg (by simp [known]), List.filter_nil, List.append_nil]
    exact shown
  cases internal with
  | true =>
      have kinds : SocketPlan.isInterfaceInput ⟨name, side, true⟩ = false ∧
          SocketPlan.isInterfaceOutput ⟨name, side, true⟩ = false := by
        simp [SocketPlan.isInterfaceInput, SocketPlan.isInterfaceOutput]
      exact { sketched with
        inputs := same _ kinds.1 sketched.inputs
        outputs := same _ kinds.2 sketched.outputs
        internals := more _ rfl sketched.internals }
  | false =>
      cases side with
      | input =>
          exact { sketched with
            inputs := more _ rfl sketched.inputs
            outputs := same _ rfl sketched.outputs
            internals := same _ rfl sketched.internals }
      | output =>
          exact { sketched with
            inputs := same _ rfl sketched.inputs
            outputs := more _ rfl sketched.outputs
            internals := same _ rfl sketched.internals }

/-- A socket whose name is new can be added. -/
theorem raise_socket (raising : Raising base graph root (.node config sockets methods computations hook children))
    {socket : SocketPlan} (fresh : socket.name ∉ sockets.map SocketPlan.name) :
    ∃ later, (do
        let _ ← addSockets root [socket.name] (some socket.side) socket.internal : GraphM Unit).run graph =
        (.ok ⟨⟩, later) ∧
      Raising base later root (.node config (sockets ++ [socket]) methods computations hook children) := by
  rcases raising.node with ⟨node, found, top, sketched⟩
  have held : ∀ id ∈ node.sockets, ∃ socket, graph.socket? id = some socket := by
    intro id listed
    rcases (raising.sound.sockets.mem_sockets found).mp listed with ⟨socket, held, -⟩
    exact ⟨socket, held⟩
  rcases Sound.exists_socketNames held with ⟨taken, named⟩
  have notTaken : socket.name ∉ taken := by
    intro repeated
    rcases forall₂_of_mem_right (socketNames_eq_ok.mp named) repeated with ⟨id, listed, other, otherHeld, same⟩
    rcases sketched.planned_mem listed with ⟨plan, member, planned⟩
    rcases planSocket_eq_ok.mp planned with ⟨_, again, rfl⟩
    obtain rfl := Option.some.inj (otherHeld.symm.trans again)
    exact fresh (List.mem_map.mpr ⟨_, member, same⟩)
  have ran := run_addSockets_one found named notTaken socket.side socket.internal
  have sound := raising.sound.changes (keeps_addSockets root [socket.name] (some socket.side) socket.internal graph)
  rw [after_of_run ran] at sound
  have touches := touches_withSocket graph root socket.internal socket.name socket.side
  have foundAfter : (graph.withSocket root socket.internal socket.name socket.side).component? root =
      some (node.enlist socket.internal socket.side graph.nextSocket) := by
    rw [component?_withSocket, if_pos rfl, found]
    rfl
  have planned : (graph.withSocket root socket.internal socket.name socket.side).planSocket graph.nextSocket =
      .ok socket :=
    planSocket_eq_ok.mpr ⟨_, by rw [socket?_withSocket, if_pos rfl], rfl⟩
  have topAfter : (node.enlist socket.internal socket.side graph.nextSocket).parent = none := by
    rw [← top]
    unfold Component.enlist
    cases socket.internal <;> cases socket.side <;> rfl
  have carried := Raising.sketched_of_touches raising.sound found top touches sketched
  refine ⟨_, (run_bind_ok ran _).trans (run_pure _ _), ?_⟩
  exact raising.touched touches sound foundAfter topAfter (carried.enlist planned)

theorem raise_sockets (more : List SocketPlan)
    (raising : Raising base graph root (.node config sockets methods computations hook children))
    (names : ((sockets ++ more).map SocketPlan.name).Nodup) :
    ∃ later, (more.forM fun socket => do
        let _ ← addSockets root [socket.name] (some socket.side) socket.internal).run graph = (.ok ⟨⟩, later) ∧
      Raising base later root (.node config (sockets ++ more) methods computations hook children) := by
  induction more generalizing graph sockets with
  | nil => exact ⟨graph, rfl, by rwa [List.append_nil]⟩
  | cons socket rest inductionHypothesis =>
      rw [← List.singleton_append, ← List.append_assoc] at names ⊢
      rcases raise_socket raising (name_notMem names) with ⟨between, first, raised⟩
      rcases inductionHypothesis raised names with ⟨later, others, raisedAll⟩
      exact ⟨later, (run_bind_ok first _).trans others, raisedAll⟩

/-! ### Methods and the hook -/

theorem touches_changeComponent (graph : Graph) (root : ComponentId) (change : Component → Component) :
    Touches root graph (graph.changeComponent root change) where
  carries := ⟨fun _ socket held => ⟨socket, held, rfl⟩, fun _ _ found => found⟩
  component id node differ found := by
    rw [component?_changeComponent, if_neg (Ne.symm differ), found]
  socket _ _ held _ := held
  bare _ socket held old := old socket held

/-- A change of the component alone. -/
theorem raise_change {plan more : ComponentPlan} (raising : Raising base graph root plan)
    {change : Component → Component} (sound : Sound (graph.changeComponent root change))
    (parent : ∀ node, (change node).parent = node.parent)
    (shows : ∀ later node, Sketched later node plan → Sketched later (change node) more) :
    Raising base (graph.changeComponent root change) root more := by
  rcases raising.node with ⟨node, found, top, sketched⟩
  have touches := touches_changeComponent graph root change
  have carried := Raising.sketched_of_touches raising.sound found top touches sketched
  have foundAfter : (graph.changeComponent root change).component? root = some (change node) := by
    rw [component?_changeComponent, if_pos rfl, found]
    rfl
  exact raising.touched touches sound foundAfter ((parent node).trans top) (shows _ node carried)

theorem raise_method (raising : Raising base graph root (.node config sockets methods computations hook children))
    {method : Method} (fresh : method.name ∉ methods.map Method.name) :
    ∃ later, (register root method).run graph = (.ok ⟨⟩, later) ∧
      Raising base later root (.node config sockets (methods ++ [method]) computations hook children) := by
  rcases raising.node with ⟨node, found, top, sketched⟩
  have registered : methods = node.methods := sketched.methods
  have unknown : node.method? method.name = none := by
    refine List.find?_eq_none.mpr fun other member same => fresh ?_
    rw [registered]
    exact List.mem_map.mpr ⟨other, member, of_decide_eq_true same⟩
  have ran : (register root method).run graph =
      (.ok ⟨⟩, graph.changeComponent root (Component.addMethod method)) := by
    unfold register
    rw [run_query_bind (component_eq_ok.mpr found), unknown]
    exact run_editComponent found _
  have sound := raising.sound.change (.method root method node found unknown)
  refine ⟨_, ran, raise_change raising sound (fun _ => rfl) fun later other shown => ?_⟩
  exact { shown with methods := congrArg (· ++ [method]) shown.methods }

theorem raise_methods (more : List Method)
    (raising : Raising base graph root (.node config sockets methods computations hook children))
    (names : ((methods ++ more).map Method.name).Nodup) :
    ∃ later, (more.forM (register root)).run graph = (.ok ⟨⟩, later) ∧
      Raising base later root (.node config sockets (methods ++ more) computations hook children) := by
  induction more generalizing graph methods with
  | nil => exact ⟨graph, rfl, by rwa [List.append_nil]⟩
  | cons method rest inductionHypothesis =>
      rw [← List.singleton_append, ← List.append_assoc] at names ⊢
      rcases raise_method raising (name_notMem names) with ⟨between, first, raised⟩
      rcases inductionHypothesis raised names with ⟨later, others, raisedAll⟩
      exact ⟨later, (run_bind_ok first _).trans others, raisedAll⟩

theorem raise_hook (raising : Raising base graph root (.node config sockets methods computations none children))
    (hook : Hook) :
    ∃ later, (setHook root hook).run graph = (.ok ⟨⟩, later) ∧
      Raising base later root (.node config sockets methods computations (some hook) children) := by
  rcases raising.node with ⟨node, found, -⟩
  have ran : (setHook root hook).run graph =
      (.ok ⟨⟩, graph.changeComponent root (Component.withHook hook)) := by
    unfold setHook
    rw [run_query_bind (component_eq_ok.mpr found)]
    exact run_editComponent found _
  have sound := raising.sound.change (.hook root hook)
  exact ⟨_, ran, raise_change raising sound (fun _ => rfl) fun _ _ shown => { shown with hook := rfl }⟩

/-! ### Computations -/

theorem touches_withComputation (graph : Graph) (computation : Computation)
    (owned : ∀ id ∈ computation.inputs ++ computation.outputs, ∀ socket, graph.socket? id = some socket →
      socket.owner = computation.owner) :
    Touches computation.owner graph (graph.withComputation computation) where
  carries := by
    refine ⟨fun id socket held => ?_, fun _ _ found => computation?_withComputation_eq_some.mpr (.inr found)⟩
    rw [socket?_withComputation, held]
    exact ⟨_, rfl, rfl⟩
  component id node differ found := by
    rw [component?_withComputation, if_neg (Ne.symm differ), found]
  socket id socket held differ := by
    have notEnd : id ∉ computation.inputs ++ computation.outputs :=
      fun member => differ (owned id member socket held)
    rw [List.mem_append, not_or] at notEnd
    rw [socket?_withComputation, held, List.count_eq_zero_of_not_mem notEnd.1,
      List.count_eq_zero_of_not_mem notEnd.2]
    simp
  bare id socket held old := by
    rw [socket?_withComputation] at held
    rcases Option.map_eq_some_iff.mp held with ⟨known, knownHeld, rfl⟩
    rcases old known knownHeld with ⟨sources, targets, fed, feeding⟩
    constructor
    · rw [socketEntries_append, sources, socketEntries_replicate, List.nil_append]
    · rw [socketEntries_append, targets, socketEntries_replicate, List.nil_append]
    · rw [spaceEntries_append, fed, spaceEntries_replicate, List.nil_append]
    · rw [spaceEntries_append, feeding, spaceEntries_replicate, List.nil_append]

theorem run_ensureInternal_one {owner : ComponentId} {name : String} {id : SocketId}
    (known : graph.socketNamed? owner name none = .ok (some id)) :
    (ensureInternal owner name).run graph = (.ok id, graph) := by
  unfold ensureInternal
  rw [run_query_bind known]
  rfl

/-- Sockets that are there need not be made. -/
theorem run_ensureInternal_known {owner : ComponentId} {names : List String} {ids : List SocketId}
    (known : List.Forall₂ (fun name id => graph.socketNamed? owner name none = .ok (some id)) names ids) :
    (names.mapM (ensureInternal owner)).run graph = (.ok ids, graph) := by
  induction known with
  | nil => rfl
  | cons head _ inductionHypothesis =>
      rw [List.mapM_cons, run_bind_ok (run_ensureInternal_one head), run_bind_ok inductionHypothesis]
      rfl

/-- The sockets of the new component are found by the names that the plan has for them. -/
theorem Raising.sockets_found {plan : ComponentPlan} (raising : Raising base graph root plan) {names : List String}
    (known : ∀ name ∈ names, name ∈ plan.sockets.map SocketPlan.name) :
    ∃ ids, List.Forall₂ (fun name id => graph.socketNamed? root name none = .ok (some id)) names ids ∧
      graph.socketNames ids = .ok names ∧
      ∀ id ∈ ids, Lists graph root id ∧ ∀ socket, graph.socket? id = some socket → socket.owner = root := by
  rcases raising.node with ⟨node, found, -, sketched⟩
  have each : ∀ name ∈ names, ∃ id, graph.socketNamed? root name none = .ok (some id) ∧ id ∈ node.sockets ∧
      ∃ socket, graph.socket? id = some socket ∧ socket.owner = root ∧ socket.name = name := by
    intro name member
    rcases List.mem_map.mp (known name member) with ⟨plan, planMember, rfl⟩
    rcases sketched.exists_of_mem planMember with ⟨id, listed, planned⟩
    rcases planSocket_eq_ok.mp planned with ⟨socket, held, rfl⟩
    rcases (raising.sound.sockets.mem_sockets found).mp listed with ⟨_, same, rfl⟩
    obtain rfl := Option.some.inj (held.symm.trans same)
    exact ⟨id, raising.sound.sockets.socketNamed held, listed, socket, held, rfl, rfl⟩
  rcases exists_forall₂ each with ⟨ids, all⟩
  refine ⟨ids, all.imp fun _ _ related => related.1, ?_, ?_⟩
  · refine socketNames_eq_ok.mpr (all.imp fun name id related => ?_).flip
    rcases related with ⟨-, -, socket, held, -, named⟩
    exact ⟨socket, held, named⟩
  · intro id member
    rcases forall₂_of_mem_right all member with ⟨name, -, -, listed, socket, held, owned, -⟩
    refine ⟨⟨node, found, listed, socket, held⟩, fun other otherHeld => ?_⟩
    rw [← Option.some.inj (held.symm.trans otherHeld), owned]

theorem planCompute_known {owner : ComponentId} {node : Component} (found : graph.component? owner = some node)
    {name : String} {method : Method} (chosen : node.method? name = some method) {inputs outputs : List String}
    {ids : List SocketId} (inputCount : inputs.length = method.inputs) (outputCount : outputs.length = method.outputs)
    (known : List.Forall₂ (fun name id => graph.socketNamed? owner name none = .ok (some id)) outputs ids)
    (settings : Settings) :
    graph.planCompute owner inputs outputs (some name) (.ofSettings settings) = .ok (name, settings, ids) := by
  refine except_bind_eq_ok.mpr ⟨node, component_eq_ok.mpr found, ?_⟩
  refine except_bind_eq_ok.mpr ⟨method, by simp [chooseMethod, chosen], ?_⟩
  rw [if_neg (by simp [inputCount, outputCount])]
  refine except_bind_eq_ok.mpr ⟨ids, mapM_eq_ok.mpr (known.imp fun output id named => ?_), ?_⟩
  · exact except_bind_eq_ok.mpr ⟨some id, named, rfl⟩
  · rw [name_of_method? chosen, Options.resolve_ofSettings]
    rfl

/-- A computation of a registered method on sockets that are there can be added. -/
theorem raise_computation
    (raising : Raising base graph root (.node config sockets methods computations hook children))
    {computation : ComputationPlan} {method : Method}
    (chosen : (methods.find? fun method => method.name = computation.method) = some method)
    (inputCount : computation.inputs.length = method.inputs)
    (outputCount : computation.outputs.length = method.outputs)
    (known : ∀ name ∈ computation.inputs ++ computation.outputs, name ∈ sockets.map SocketPlan.name) :
    ∃ later, (do
        let _ ← compute root computation.inputs computation.outputs (some computation.method)
          (.ofSettings computation.settings) : GraphM Unit).run graph = (.ok ⟨⟩, later) ∧
      Raising base later root (.node config sockets methods (computations ++ [computation]) hook children) := by
  rcases raising.node with ⟨node, found, top, sketched⟩
  rcases raising.sockets_found fun name member => known name (List.mem_append_left _ member) with
    ⟨inputs, inputsFound, inputsNamed, inputsListed⟩
  rcases raising.sockets_found fun name member => known name (List.mem_append_right _ member) with
    ⟨outputs, outputsFound, outputsNamed, outputsListed⟩
  have registered : methods = node.methods := sketched.methods
  have chosenHere : node.method? computation.method = some method := by
    rw [Component.method?, ← registered]
    exact chosen
  let bound : Computation := ⟨computation.method, root, inputs, outputs, computation.settings⟩
  have ran : (compute root computation.inputs computation.outputs (some computation.method)
      (.ofSettings computation.settings)).run graph =
        (.ok graph.nextComputation, graph.withComputation bound) := by
    rw [compute_eq, run_query_bind (planCompute_known found chosenHere inputCount outputCount outputsFound _),
      run_bind_ok (run_ensureInternal_known inputsFound), isEmpty_of_length_eq inputsFound.length_eq.symm]
    exact run_bindComputation bound (fun id member => (inputsListed id member).1)
      (fun id member => (outputsListed id member).1) found
  have sound := raising.sound.changes (keeps_compute root computation.inputs computation.outputs
    (some computation.method) (.ofSettings computation.settings) graph)
  rw [after_of_run ran] at sound
  have touches : Touches root graph (graph.withComputation bound) := by
    refine touches_withComputation graph bound fun id member => ?_
    rcases List.mem_append.mp member with input | output
    · exact (inputsListed id input).2
    · exact (outputsListed id output).2
  have foundAfter : (graph.withComputation bound).component? root =
      some (node.enrol graph.nextComputation inputs.isEmpty) := by
    rw [component?_withComputation, if_pos rfl, found]
    rfl
  have carried := Raising.sketched_of_touches raising.sound found top touches sketched
  have planned : (graph.withComputation bound).planComputation graph.nextComputation = .ok computation :=
    planComputation_eq_ok.mpr ⟨bound, by rw [computation?_withComputation, if_pos rfl],
      touches.carries.socketNames inputsNamed, touches.carries.socketNames outputsNamed, rfl, rfl⟩
  have more : Sketched (graph.withComputation bound) (node.enrol graph.nextComputation inputs.isEmpty)
      (.node config sockets methods (computations ++ [computation]) hook children) :=
    { carried with computations := List.rel_append carried.computations (.cons planned .nil) }
  exact ⟨_, (run_bind_ok ran _).trans (run_pure _ _), raising.touched touches sound foundAfter top more⟩

theorem raise_computations (more : List ComputationPlan)
    (raising : Raising base graph root (.node config sockets methods computations hook children))
    (bound : ∀ computation ∈ more,
      ∃ method, (methods.find? fun method => method.name = computation.method) = some method ∧
        computation.inputs.length = method.inputs ∧ computation.outputs.length = method.outputs ∧
        ∀ name ∈ computation.inputs ++ computation.outputs, name ∈ sockets.map SocketPlan.name) :
    ∃ later, (more.forM fun computation => do
        let _ ← compute root computation.inputs computation.outputs (some computation.method)
          (.ofSettings computation.settings)).run graph = (.ok ⟨⟩, later) ∧
      Raising base later root (.node config sockets methods (computations ++ more) hook children) := by
  induction more generalizing graph computations with
  | nil => exact ⟨graph, rfl, by rwa [List.append_nil]⟩
  | cons computation rest inductionHypothesis =>
      rcases bound computation List.mem_cons_self with ⟨method, chosen, inputCount, outputCount, known⟩
      rcases raise_computation raising chosen inputCount outputCount known with ⟨between, first, raised⟩
      rcases inductionHypothesis raised fun other member => bound other (List.mem_cons_of_mem _ member) with
        ⟨later, others, raisedAll⟩
      rw [List.append_assoc, List.singleton_append] at raisedAll
      exact ⟨later, (run_bind_ok first _).trans others, raisedAll⟩

/-! ### Children -/

/-- A finished component without parent, shown by its plan. -/
structure Raised (base later : Graph) (root : ComponentId) (plan : ComponentPlan) : Prop where
  sound : Sound later
  fresh : base.component? root = none
  extended : Extends base later
  bare : ∀ id socket, base.socket? id = none → later.socket? id = some socket → socket.Bare
  top : ∃ node, later.component? root = some node ∧ node.parent = none
  planned : later.Planned root plan

theorem Raising.raised {plan : ComponentPlan} (raising : Raising base graph root plan) (feasible : plan.Feasible) :
    Raised base graph root plan := by
  rcases raising.node with ⟨node, found, top, sketched⟩
  exact ⟨raising.sound, raising.fresh, raising.extended, raising.bare, ⟨node, found, top⟩,
    .of_drawn found (sketched.drawn feasible.sorted)⟩

/-- A component without parent can be put below another one that has no child of its name. -/
theorem run_add {parent child : ComponentId} {parentNode childNode : Component}
    (sound : TreeSound graph) (parentFound : graph.component? parent = some parentNode)
    (childFound : graph.component? child = some childNode) (parentTop : parentNode.parent = none)
    (childTop : childNode.parent = none) (apart : parent ≠ child)
    (fresh : childNode.name ∉ Keyed.keys parentNode.children) :
    (add parent child .nothing).run graph = (.ok ⟨⟩, graph.withChild parent child childNode.name) := by
  have free : childNode.added = false := by
    rw [sound.added child childNode childFound, childTop]
    rfl
  have planned : graph.planAdd parent child .nothing = .ok (childNode.name, []) := by
    refine except_bind_eq_ok.mpr ⟨childNode, component_eq_ok.mpr childFound, ?_⟩
    refine except_bind_eq_ok.mpr ⟨parentNode, component_eq_ok.mpr parentFound, ?_⟩
    rw [if_neg (by rwa [Keyed.contains_iff_mem_keys]), if_neg (by simp [free, apart])]
    refine except_bind_eq_ok.mpr ⟨[parent], (Ancestry.root parent parentNode parentFound parentTop).lineage, ?_⟩
    rw [if_neg (by simp [Ne.symm apart])]
    rfl
  unfold add
  rw [run_query_bind planned]
  exact run_attach parentFound childFound childNode.name _

/-- The children of the new component are named as the plan says. -/
theorem Sketched.key_mem {node : Component} {plan : ComponentPlan} (sketched : Sketched graph node plan)
    (sound : TreeSound graph) (found : graph.component? root = some node) {name : String}
    (known : name ∈ Keyed.keys node.children) :
    name ∈ plan.children.map fun child => child.config.resolvedName := by
  rcases List.mem_map.mp known with ⟨entry, entryMember, rfl⟩
  rcases forall₂_of_mem_left sketched.children (List.mem_map.mpr ⟨entry, entryMember, rfl⟩) with
    ⟨child, childMember, planned⟩
  rcases planned.drawn with ⟨childNode, childFound, drawn⟩
  rcases sound.child root node found entry entryMember with ⟨_, same, -, named⟩
  obtain rfl := Option.some.inj (childFound.symm.trans same)
  refine List.mem_map.mpr ⟨child, childMember, ?_⟩
  rw [drawn.config, ← named]
  rfl

theorem touches_withChild {child : ComponentId} {later : Graph} (extended : Extends graph later)
    (bare : ∀ id socket, graph.socket? id = none → later.socket? id = some socket → socket.Bare)
    (fresh : graph.component? child = none) (name : String) :
    Touches root graph (later.withChild root child name) where
  carries := ⟨fun id socket held => ⟨socket, extended.socket id socket held, rfl⟩, extended.computation⟩
  component id node differ found := by
    have other : child ≠ id := by
      rintro rfl
      rw [fresh] at found
      contradiction
    rw [component?_withChild, extended.component id node found, if_neg (Ne.symm differ), if_neg other]
    rfl
  socket id socket held _ := extended.socket id socket held
  bare id socket held old := by
    rw [socket?_withChild] at held
    cases known : graph.socket? id with
    | none => exact bare id socket known held
    | some same =>
        obtain rfl := Option.some.inj ((extended.socket id same known).symm.trans held)
        exact old same known

/-- A finished component can be put below the new one. -/
theorem raise_child {child : ComponentId} {plan : ComponentPlan} {later : Graph}
    (raising : Raising base graph root (.node config sockets methods computations hook children))
    (raised : Raised graph later child plan)
    (fresh : plan.config.resolvedName ∉ children.map fun child => child.config.resolvedName) :
    ∃ final, (add root child .nothing).run later = (.ok ⟨⟩, final) ∧
      Raising base final root (.node config sockets methods computations hook (children ++ [plan])) := by
  rcases raising.node with ⟨node, found, top, sketched⟩
  rcases raised.planned.drawn with ⟨childNode, childFound, drawn⟩
  have childTop : childNode.parent = none := by
    rcases raised.top with ⟨same, sameFound, top⟩
    rwa [Option.some.inj (childFound.symm.trans sameFound)]
  have named : plan.config.resolvedName = childNode.name := by
    rw [drawn.config]
    rfl
  have foundLater := raised.extended.component root node found
  have apart : root ≠ child := by
    rintro rfl
    rw [raised.fresh] at found
    contradiction
  have newName : childNode.name ∉ Keyed.keys node.children := by
    rw [← named]
    exact fun known => fresh (sketched.key_mem raising.sound.tree found known)
  have ran := run_add raised.sound.tree foundLater childFound top childTop apart newName
  have sound := raised.sound.changes (keeps_add root child .nothing later)
  rw [after_of_run ran] at sound
  have touches : Touches root graph (later.withChild root child childNode.name) :=
    touches_withChild raised.extended raised.bare raised.fresh childNode.name
  have foundAfter : (later.withChild root child childNode.name).component? root =
      some (node.adopt childNode.name child) := by
    rw [component?_withChild, foundLater, if_pos rfl, if_neg (Ne.symm apart)]
    rfl
  have kept : ∀ id node, id ≠ root → later.component? id = some node →
      ∃ new, (later.withChild root child childNode.name).component? id = some new ∧ new.drawn = node.drawn := by
    intro id other differ otherFound
    rw [component?_withChild, otherFound, if_neg (Ne.symm differ)]
    refine ⟨_, rfl, ?_⟩
    split <;> rfl
  have carries : Carries later (later.withChild root child childNode.name) :=
    ⟨fun id socket held => ⟨socket, held, rfl⟩, fun _ _ held => held⟩
  have childPlanned := carries.planned
    (fun _ _ _ otherFound _ member => Raising.child_ne raised.sound foundLater top otherFound member) kept
    (Ne.symm apart) raised.planned
  have carried := Raising.sketched_of_touches raising.sound found top touches sketched
  have more : Sketched (later.withChild root child childNode.name) (node.adopt childNode.name child)
      (.node config sockets methods computations hook (children ++ [plan])) := by
    refine { carried with children := ?_ }
    show List.Forall₂ _ (Keyed.values (Keyed.insert childNode.name child node.children)) (children ++ [plan])
    rw [Keyed.insert_of_notMem newName, Keyed.values, List.map_append]
    exact List.rel_append carried.children (.cons childPlanned .nil)
  exact ⟨_, ran, raising.touched touches sound foundAfter top more⟩

/-! ### Whole plans -/

mutual

/-- A plan of a sound graph is carried out in any sound graph, for any configuration with a proper scope, and
shows the component that was made. -/
theorem instantiatePlan_ok {source : Graph} (sound : Sound source) : ∀ plan, (∃ id, source.Planned id plan) →
    ∀ config : ComponentConfig, isScope config.scope = true → ∀ base, Sound base →
      ∃ root later, (instantiatePlan config plan).run base = (.ok root, later) ∧
        Raised base later root (plan.withConfig config.explicit)
  | .node given sockets methods computations hook children, known, config, scope, base, begun => by
      rcases known with ⟨id, planned⟩
      rcases planned.drawn with ⟨node, found, drawn⟩
      have feasible := drawn.feasible sound found
      have below : ∀ child ∈ children, ∃ id, source.Planned id child := by
        intro child member
        rcases drawn.child member with ⟨below, -, -, -, childPlanned⟩
        exact ⟨below, childPlanned⟩
      have created := raise_create begun scope
      rcases raise_sockets sockets created feasible.socketNames with ⟨second, madeSockets, raised⟩
      rcases raise_methods methods raised feasible.methodNames with ⟨third, madeMethods, raised⟩
      rcases raise_computations computations raised feasible.computations with ⟨fourth, madeComputations, raised⟩
      have hooked : ∃ fifth, (match hook with
            | some hook => setHook base.nextComponent hook
            | none => pure ⟨⟩ : GraphM Unit).run fourth = (.ok ⟨⟩, fifth) ∧
          Raising base fifth base.nextComponent (.node config.explicit sockets methods computations hook []) := by
        cases hook with
        | none => exact ⟨fourth, rfl, raised⟩
        | some hook => exact raise_hook raised hook
      rcases hooked with ⟨fifth, madeHook, raised⟩
      rcases instantiateChildren_ok sound children below feasible.childScopes feasible.childConfigs [] raised
        feasible.childNames with ⟨final, madeChildren, raised⟩
      refine ⟨base.nextComponent, final, ?_, raised.raised ?_⟩
      · rw [instantiatePlan, run_bind_ok (run_create scope base), run_bind_ok madeSockets, run_bind_ok madeMethods,
          run_bind_ok madeComputations]
        have finished : (do
            instantiateChildren base.nextComponent children
            return base.nextComponent : GraphM ComponentId).run fifth = (.ok base.nextComponent, final) :=
          (run_bind_ok madeChildren _).trans (run_pure _ _)
        cases hook with
        | none =>
            obtain rfl : fourth = fifth := congrArg Prod.snd madeHook
            exact finished
        | some hook => exact (run_bind_ok madeHook _).trans finished
      · exact { feasible with }

theorem instantiateChildren_ok {source : Graph} (sound : Sound source) : ∀ plans : List ComponentPlan,
    (∀ plan ∈ plans, ∃ id, source.Planned id plan) →
    (∀ plan ∈ plans, isScope plan.config.scope = true) → (∀ plan ∈ plans, plan.config.explicit = plan.config) →
    ∀ {base graph root config sockets methods computations hook} (made : List ComponentPlan),
      Raising base graph root (.node config sockets methods computations hook made) →
      ((made ++ plans).map fun child => child.config.resolvedName).Nodup →
      ∃ later, (instantiateChildren root plans).run graph = (.ok ⟨⟩, later) ∧
        Raising base later root (.node config sockets methods computations hook (made ++ plans))
  | [], _, _, _, base, graph, root, config, sockets, methods, computations, hook, made, raising, _ => by
      rw [instantiateChildren, List.append_nil]
      exact ⟨graph, rfl, raising⟩
  | plan :: rest, known, scopes, explicit, base, graph, root, config, sockets, methods, computations, hook, made,
      raising, names => by
      rcases instantiatePlan_ok sound plan (known plan List.mem_cons_self) plan.config
        (scopes plan List.mem_cons_self) graph raising.sound with ⟨child, between, madeChild, raisedChild⟩
      rw [explicit plan List.mem_cons_self, ComponentPlan.withConfig_self] at raisedChild
      rw [← List.singleton_append, ← List.append_assoc] at names
      rcases raise_child raising raisedChild (name_notMem names) with ⟨third, added, raised⟩
      rcases instantiateChildren_ok sound rest (fun plan member => known plan (List.mem_cons_of_mem _ member))
        (fun plan member => scopes plan (List.mem_cons_of_mem _ member))
        (fun plan member => explicit plan (List.mem_cons_of_mem _ member)) (made ++ [plan]) raised names with
        ⟨later, others, raisedAll⟩
      rw [List.append_assoc, List.singleton_append] at raisedAll
      refine ⟨later, ?_, raisedAll⟩
      rw [instantiateChildren, run_bind_ok madeChild, run_bind_ok added]
      exact others

end

end Wiring.Graph
