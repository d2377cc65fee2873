import Wiring.Proofs.Graph.Change

/-!
Contract: creating components and sockets, as changes.

Owns: that `create`, `setHook`, `addSockets` and `ensureInternal` are sequences of changes whatever their
outcome; what a successful lookup by name has found; and what `ensureInternal` answers.
-/

namespace Wiring.Graph

theorem keeps_create (config : ComponentConfig) : Keeps Changes (create config) := by
  intro graph
  unfold create
  by_cases scope : isScope config.scope = true
  · rw [if_pos scope]
    exact .single (.create config scope)
  · rw [if_neg scope]
    exact .refl

theorem keeps_editHook (id : ComponentId) (hook : Hook) :
    Keeps Changes (editComponent id fun node => { node with hook := some hook }) := by
  intro graph
  cases found : graph.component? id with
  | none =>
      unfold editComponent
      refine Keeps.query_bind_of fun node answered => ?_
      rw [heldComponent_eq_ok, found] at answered
      contradiction
  | some node =>
      rw [after_of_run (run_editComponent found _)]
      exact .single (.hook id hook)

theorem keeps_setHook (id : ComponentId) (hook : Hook) : Keeps Changes (setHook id hook) :=
  Keeps.bind (Keeps.query _) fun _ => keeps_editHook id hook

/-! ### New sockets -/

/-- The plan of new sockets keeps the names, which are new and differ from each other. -/
theorem planSockets_ok {owner : String} {side : Option Side} {taken names : List String}
    {plan : List (String × Side)} (planned : planSockets owner side taken names = .ok plan) :
    plan.map Prod.fst = names ∧ names.Nodup ∧ ∀ name ∈ names, name ∉ taken := by
  induction names generalizing taken plan with
  | nil =>
      obtain rfl : [] = plan := Except.ok.inj planned
      exact ⟨rfl, List.nodup_nil, by simp⟩
  | cons name rest inductionHypothesis =>
      obtain ⟨chosen, -, checked⟩ := except_bind_eq_ok.mp planned
      by_cases known : name ∈ taken
      · simp only [if_pos known] at checked
        exact absurd checked (by simp [throw, throwThe, MonadExceptOf.throw, bind, Except.bind])
      · simp only [if_neg known] at checked
        obtain ⟨others, restPlanned, rfl⟩ := except_map_eq_ok.mp checked
        obtain ⟨namesKept, distinct, fresh⟩ := inductionHypothesis restPlanned
        refine ⟨by rw [List.map_cons, namesKept], List.nodup_cons.mpr ⟨?_, distinct⟩, ?_⟩
        · intro repeated
          exact fresh name repeated (by simp)
        · intro other member
          rcases List.mem_cons.mp member with rfl | later
          · exact known
          · intro isTaken
            exact fresh other later (by simp [isTaken])

theorem socketNames_ok {graph : Graph} {ids : List SocketId} {names : List String}
    (named : graph.socketNames ids = .ok names) {id : SocketId} (member : id ∈ ids) :
    ∃ socket, graph.socket? id = some socket ∧ socket.name ∈ names := by
  have each := mapM_eq_ok.mp named
  obtain ⟨name, nameMember, answered⟩ := forall₂_of_mem_left each member
  obtain ⟨socket, held, rfl⟩ := except_map_eq_ok.mp answered
  exact ⟨socket, heldSocket_eq_ok.mp held, nameMember⟩

theorem run_addSocket {graph : Graph} {owner : ComponentId} {node : Component}
    (found : graph.component? owner = some node) (internal : Bool) (plan : String × Side) :
    (addSocket owner internal plan).run graph =
      (.ok graph.nextSocket, graph.withSocket owner internal plan.1 plan.2) := by
  have pushed : (graph.pushSocket { name := plan.1, side := plan.2, internal, owner }).component? owner =
      some node := found
  unfold addSocket
  rw [run_bind_ok (run_get graph), run_bind_ok (run_modify _ graph)]
  exact run_bind_ok (run_editComponent pushed (Component.enlist internal plan.2 graph.nextSocket)) _

theorem mem_sockets_enlist {internal : Bool} {side : Side} {id other : SocketId} {node : Component} :
    other ∈ (node.enlist internal side id).sockets ↔ other ∈ node.sockets ∨ other = id := by
  unfold Component.enlist Component.sockets
  cases internal <;> cases side <;> simp <;> tauto

/-- Sockets with new names can be added one after the other. -/
theorem addSocket_all {owner : ComponentId} {internal : Bool} (plan : List (String × Side)) {graph : Graph}
    {node : Component} (found : graph.component? owner = some node)
    (distinct : (plan.map Prod.fst).Nodup)
    (fresh : ∀ id ∈ node.sockets, ∀ socket, graph.socket? id = some socket →
      socket.name ∉ plan.map Prod.fst) :
    Changes graph (after (plan.mapM (addSocket owner internal)) graph) := by
  induction plan generalizing graph node with
  | nil => exact .refl
  | cons first rest inductionHypothesis =>
      obtain ⟨notRepeated, distinct⟩ := List.nodup_cons.mp distinct
      rw [List.mapM_cons]
      have added := run_addSocket found internal first
      refine Keeps.bind_of ?_ fun id answered => ?_
      · rw [after_of_run added]
        refine .single (.socket owner internal first.1 first.2 node found fun id member socket held => ?_)
        intro same
        exact fresh id member socket held (by simp [same])
      · rw [after_of_run added]
        refine Keeps.bind_of ?_ fun ids _ => .refl
        have foundAfter : (graph.withSocket owner internal first.1 first.2).component? owner =
            some (node.enlist internal first.2 graph.nextSocket) := by
          rw [component?_withSocket, if_pos rfl, found]
          rfl
        refine inductionHypothesis foundAfter distinct fun id member socket held => ?_
        rcases socket?_withSocket_eq_some.mp held with ⟨-, rfl⟩ | known
        · exact notRepeated
        · have isOld : id ≠ graph.nextSocket := ne_nextSocket known
          have listed := (mem_sockets_enlist.mp member).resolve_right isOld
          intro repeated
          exact fresh id listed socket known (by simp only [List.map_cons, List.mem_cons, repeated, or_true])

/-- A call that adds sockets either fails on its checks or adds all of them. -/
theorem keeps_addSockets (owner : ComponentId) (names : List String) (side : Option Side)
    (internal : Bool) : Keeps Changes (addSockets owner names side internal) := by
  intro graph
  unfold addSockets
  refine Keeps.query_bind_of fun plan answered => ?_
  obtain ⟨node, found, checked⟩ := except_bind_eq_ok.mp answered
  obtain ⟨taken, named, planned⟩ := except_bind_eq_ok.mp checked
  obtain ⟨namesKept, distinct, fresh⟩ := planSockets_ok planned
  refine addSocket_all plan (component_eq_ok.mp found) (namesKept ▸ distinct) fun id member socket held => ?_
  obtain ⟨known, knownHeld, isTaken⟩ := socketNames_ok named member
  obtain rfl : known = socket := Option.some.inj (knownHeld.symm.trans held)
  intro repeated
  exact fresh _ (namesKept ▸ repeated) isTaken

/-- Adding one socket under a new name. -/
theorem run_addSockets_one {graph : Graph} {owner : ComponentId} {node : Component} {taken : List String}
    {name : String} (found : graph.component? owner = some node)
    (named : graph.socketNames node.sockets = .ok taken) (fresh : name ∉ taken) (side : Side)
    (internal : Bool) :
    (addSockets owner [name] (some side) internal).run graph =
      (.ok [graph.nextSocket], graph.withSocket owner internal name side) := by
  have planned : planSockets node.name (some side) taken [name] = .ok [(name, side)] := by
    simp [planSockets, sideOf, fresh, bind, Except.bind]
  have checked : (do
      let component ← graph.component owner
      let taken ← graph.socketNames component.sockets
      planSockets component.name (some side) taken [name]) = .ok [(name, side)] :=
    except_bind_eq_ok.mpr ⟨node, component_eq_ok.mpr found,
      except_bind_eq_ok.mpr ⟨taken, named, planned⟩⟩
  unfold addSockets
  rw [run_query_bind checked, List.mapM_cons, run_bind_ok (run_addSocket found internal (name, side))]
  rfl

/-- A call for one socket of a given side either fails on its checks or adds it. -/
theorem addSockets_one_ok {graph final : Graph} {owner : ComponentId} {name : String} {side : Side}
    {internal : Bool} {ids : List SocketId}
    (ran : (addSockets owner [name] (some side) internal).run graph = (.ok ids, final)) :
    ids = [graph.nextSocket] ∧ final = graph.withSocket owner internal name side := by
  obtain ⟨plan, middle, queried, -⟩ := of_run_bind_ok ran
  obtain ⟨node, found, checked⟩ := except_bind_eq_ok.mp (congrArg Prod.fst queried)
  obtain ⟨taken, named, planned⟩ := except_bind_eq_ok.mp checked
  have fresh := (planSockets_ok planned).2.2 name (by simp)
  have exact_ := run_addSockets_one (component_eq_ok.mp found) named fresh side internal
  have same := ran.symm.trans exact_
  exact ⟨Except.ok.inj (congrArg Prod.fst same), congrArg Prod.snd same⟩

/-! ### Finding sockets -/

theorem findNamed_ok {graph : Graph} {name : String} {ids : List SocketId} {answer : Option SocketId}
    (found : graph.findNamed name ids = .ok answer) {id : SocketId} (answered : answer = some id) :
    id ∈ ids ∧ ∃ socket, graph.socket? id = some socket ∧ socket.name = name := by
  induction ids with
  | nil =>
      obtain rfl : none = answer := Except.ok.inj found
      contradiction
  | cons first rest inductionHypothesis =>
      obtain ⟨socket, held, checked⟩ := except_bind_eq_ok.mp found
      by_cases same : socket.name = name
      · rw [if_pos same] at checked
        obtain rfl : some first = answer := Except.ok.inj checked
        obtain rfl : first = id := Option.some.inj answered
        exact ⟨by simp, socket, heldSocket_eq_ok.mp held, same⟩
      · rw [if_neg same] at checked
        obtain ⟨member, rest⟩ := inductionHypothesis checked
        exact ⟨List.mem_cons_of_mem first member, rest⟩

theorem mem_searched {node : Component} {side : Option Side} {id : SocketId}
    (member : id ∈ searched node side) : id ∈ node.sockets := by
  unfold searched at member
  unfold Component.sockets
  rcases side with _ | _ | _ <;> simp only [List.mem_append] at member ⊢ <;> tauto

/-- A socket found by name is listed by the component. -/
theorem socketNamed_ok {graph : Graph} {owner : ComponentId} {name : String} {side : Option Side}
    {id : SocketId} (found : graph.socketNamed? owner name side = .ok (some id)) :
    ∃ node, graph.component? owner = some node ∧ id ∈ node.sockets ∧
      ∃ socket, graph.socket? id = some socket ∧ socket.name = name := by
  obtain ⟨node, nodeFound, searchedIn⟩ := except_bind_eq_ok.mp found
  obtain ⟨member, named⟩ := findNamed_ok searchedIn rfl
  exact ⟨node, component_eq_ok.mp nodeFound, mem_searched member, named⟩

/-- The component lists the socket, which exists. -/
def Lists (graph : Graph) (owner : ComponentId) (id : SocketId) : Prop :=
  ∃ node, graph.component? owner = some node ∧ id ∈ node.sockets ∧ ∃ socket, graph.socket? id = some socket

/-- Sockets stay, a component lists at least as many of them as before, and it has the same methods. -/
structure Grown (owner : ComponentId) (before later : Graph) : Prop where
  component : ∀ node, before.component? owner = some node → ∃ grown, later.component? owner = some grown ∧
    (∀ id ∈ node.sockets, id ∈ grown.sockets) ∧ grown.methods = node.methods
  socket : ∀ id socket, before.socket? id = some socket → later.socket? id = some socket

theorem Grown.refl (owner : ComponentId) (graph : Graph) : Grown owner graph graph :=
  ⟨fun node found => ⟨node, found, fun _ member => member, rfl⟩, fun _ _ held => held⟩

theorem Grown.trans {owner : ComponentId} {first second third : Graph} (left : Grown owner first second)
    (right : Grown owner second third) : Grown owner first third := by
  refine ⟨fun node found => ?_, fun id socket held => right.socket id socket (left.socket id socket held)⟩
  obtain ⟨between, betweenFound, listed, same⟩ := left.component node found
  obtain ⟨later, laterFound, listedLater, sameLater⟩ := right.component between betweenFound
  exact ⟨later, laterFound, fun id member => listedLater id (listed id member), sameLater.trans same⟩

theorem Lists.grown {owner : ComponentId} {before later : Graph} {id : SocketId}
    (lists : Lists before owner id) (grown : Grown owner before later) : Lists later owner id := by
  obtain ⟨node, found, member, socket, held⟩ := lists
  obtain ⟨other, otherFound, listed, -⟩ := grown.component node found
  exact ⟨other, otherFound, listed id member, socket, grown.socket id socket held⟩

theorem methods_enlist (internal : Bool) (side : Side) (id : SocketId) (node : Component) :
    (node.enlist internal side id).methods = node.methods := by
  unfold Component.enlist
  cases internal <;> cases side <;> rfl

theorem grown_withSocket (graph : Graph) (owner : ComponentId) (internal : Bool) (name : String)
    (side : Side) : Grown owner graph (graph.withSocket owner internal name side) := by
  refine ⟨fun node found => ?_, fun id socket held => socket?_withSocket_of_some held owner internal name side⟩
  refine ⟨node.enlist internal side graph.nextSocket, ?_, ?_, methods_enlist internal side _ node⟩
  · rw [component?_withSocket, if_pos rfl, found]
    rfl
  · intro id member
    exact mem_sockets_enlist.mpr (.inl member)

theorem lists_withSocket {graph : Graph} {owner : ComponentId} {node : Component}
    (found : graph.component? owner = some node) (internal : Bool) (name : String) (side : Side) :
    Lists (graph.withSocket owner internal name side) owner graph.nextSocket := by
  refine ⟨node.enlist internal side graph.nextSocket, ?_, mem_sockets_enlist.mpr (.inr rfl), ?_⟩
  · rw [component?_withSocket, if_pos rfl, found]
    rfl
  · exact ⟨_, by rw [socket?_withSocket, if_pos rfl]⟩

/-- The socket that a component is asked for is listed afterwards. -/
theorem ensureInternal_ok {graph final : Graph} {owner : ComponentId} {name : String} {id : SocketId}
    (ran : (ensureInternal owner name).run graph = (.ok id, final)) :
    Lists final owner id ∧ Grown owner graph final := by
  obtain ⟨known, middle, queried, ran⟩ := of_run_bind_ok ran
  obtain rfl : graph = middle := congrArg Prod.snd queried
  have answered : graph.socketNamed? owner name none = .ok known := congrArg Prod.fst queried
  cases known with
  | some known =>
      obtain ⟨rfl, rfl⟩ := of_run_pure ran
      obtain ⟨node, found, listed, socket, held, -⟩ := socketNamed_ok answered
      exact ⟨⟨node, found, listed, socket, held⟩, .refl owner graph⟩
  | none =>
      obtain ⟨node, found, -⟩ := except_bind_eq_ok.mp answered
      obtain ⟨ids, middle, added, ran⟩ := of_run_bind_ok ran
      obtain ⟨rfl, rfl⟩ := addSockets_one_ok added
      obtain ⟨rfl, rfl⟩ := of_run_pure ran
      exact ⟨lists_withSocket (component_eq_ok.mp found) true name .input,
        grown_withSocket graph owner true name .input⟩

theorem keeps_ensureInternal (owner : ComponentId) (name : String) :
    Keeps Changes (ensureInternal owner name) := by
  refine Keeps.bind (Keeps.query _) fun known => ?_
  cases known with
  | some id => exact Keeps.pure id
  | none =>
      refine Keeps.bind (keeps_addSockets owner [name] (some .input) true) fun ids => ?_
      cases ids with
      | nil => exact Keeps.throw _
      | cons id rest => exact Keeps.pure id

end Wiring.Graph
