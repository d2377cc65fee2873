import Wiring.Proofs.Blueprint.Making
import Wiring.Proofs.Graph.Ports
import Wiring.Proofs.Tensor
import Wiring.Transposition

/-!
Contract: the transposition component as it is created, and what it does to an array.

Owns: `Stands`, by which a component has the method of the transposition, bound from its in-socket to its out-socket
under its settings; that what `create` makes stands in the graph; and that `apply` exchanges the first two axes of every
array that has them, so that twice is nothing.

Does not own: what a firing of the computation answers; arrays by index.
-/

namespace Wiring.Transposition

open Wiring.Graph

/-- The component has the method, and the computation binds it to the two sockets under the settings. -/
structure Stands (graph : Graph) (id : ComponentId) (computation : ComputationId) (input output : SocketId) :
    Prop where
  registered : ∃ node, graph.component? id = some node ∧ node.method? method.name = some method
  bound : graph.computation? computation =
    some { method := method.name, owner := id, inputs := [input], outputs := [output], settings }
  input : graph.Names id "input" input
  output : graph.Names id "output" output

section

variable (scope : Option String) (graph : Graph)

/-- The component before it gets its sockets. -/
def blank : Component :=
  .ofConfig { scope := scope.getD "transpose", settings }

/-- The graph with a component that has its sockets. -/
def withPorts : Graph :=
  ((graph.pushComponent (blank scope)).withSocket graph.nextComponent false "input" .input).withSocket
    graph.nextComponent false "output" .output

/-- The graph with a component that has its sockets and its method. -/
def equipped : Graph :=
  (withPorts scope graph).changeComponent graph.nextComponent
    fun component => { component with methods := component.methods ++ [method] }

/-- The second socket. -/
def outputOf : SocketId :=
  ⟨graph.sockets.size + 1⟩

/-- The component with its sockets. -/
def node : Component :=
  { blank scope with
    inputs := [graph.nextSocket]
    outputs := [outputOf graph] }

theorem nextSocket_withInput (node : Component) (owner : ComponentId) (internal : Bool) (name : String) (side : Side) :
    ((graph.pushComponent node).withSocket owner internal name side).nextSocket = outputOf graph := by
  simp [nextSocket, withSocket, pushComponent, pushSocket, changeComponent, outputOf]

theorem component?_withPorts : (withPorts scope graph).component? graph.nextComponent = some (node scope graph) := by
  rw [withPorts, component?_withSocket, if_pos rfl, component?_withSocket, if_pos rfl, component?_pushComponent,
    if_pos rfl, nextSocket_withInput]
  rfl

theorem component?_equipped : (equipped scope graph).component? graph.nextComponent =
    some { node scope graph with methods := [method] } := by
  rw [equipped, component?_changeComponent, if_pos rfl, component?_withPorts]
  rfl

theorem input_equipped : (equipped scope graph).Names graph.nextComponent "input" graph.nextSocket := by
  refine ⟨{ name := "input", side := .input, internal := false, owner := graph.nextComponent }, ?_, rfl, rfl⟩
  rw [equipped, socket?_changeComponent, withPorts]
  refine socket?_withSocket_of_some ?_ _ _ _ _
  rw [socket?_withSocket]
  exact if_pos rfl

theorem output_equipped : (equipped scope graph).Names graph.nextComponent "output" (outputOf graph) := by
  refine ⟨{ name := "output", side := .output, internal := false, owner := graph.nextComponent }, ?_, rfl, rfl⟩
  rw [equipped, socket?_changeComponent, withPorts, socket?_withSocket, nextSocket_withInput, if_pos rfl]

end

variable {scope : Option String} {graph : Graph}

theorem run_addSockets_both :
    (addSockets graph.nextComponent ["input", "output"] none false).run (graph.pushComponent (blank scope)) =
      (.ok [graph.nextSocket, outputOf graph], withPorts scope graph) := by
  have found : (graph.pushComponent (blank scope)).component? graph.nextComponent = some (blank scope) := by
    rw [component?_pushComponent, if_pos rfl]
  have inputFound : ((graph.pushComponent (blank scope)).withSocket graph.nextComponent false "input"
      .input).component? graph.nextComponent = some ((blank scope).enlist false .input graph.nextSocket) := by
    rw [component?_withSocket, if_pos rfl, found]
    rfl
  have sides : Side.infer? "input" = some .input ∧ Side.infer? "output" = some .output := by decide +kernel
  have planned : (do
      let component ← (graph.pushComponent (blank scope)).component graph.nextComponent
      let taken ← (graph.pushComponent (blank scope)).socketNames component.sockets
      planSockets component.name none taken ["input", "output"]) =
        .ok [("input", Side.input), ("output", Side.output)] := by
    refine except_bind_eq_ok.mpr ⟨_, component_eq_ok.mpr found, ?_⟩
    show planSockets (blank scope).name none [] ["input", "output"] = _
    simp [planSockets, sideOf, sides, bind, Except.bind]
  unfold addSockets
  rw [run_query_bind planned, List.mapM_cons, run_bind_ok (run_addSocket found false ("input", .input)),
    List.mapM_cons, List.mapM_nil, bind_assoc, run_bind_ok (run_addSocket inputFound false ("output", .output)),
    nextSocket_withInput]
  rfl

theorem outputNamed_equipped :
    (equipped scope graph).socketNamed? graph.nextComponent "output" none = .ok (some (outputOf graph)) := by
  rcases output_equipped scope graph with ⟨socket, held, -, named⟩
  refine except_bind_eq_ok.mpr ⟨_, component_eq_ok.mpr (component?_equipped scope graph), ?_⟩
  show (equipped scope graph).findNamed "output" [outputOf graph, graph.nextSocket] = _
  rw [findNamed]
  refine except_bind_eq_ok.mpr ⟨socket, heldSocket_eq_ok.mpr held, ?_⟩
  rw [if_pos named]
  rfl

theorem inputNamed_equipped :
    (equipped scope graph).socketNamed? graph.nextComponent "input" none = .ok (some graph.nextSocket) := by
  rcases output_equipped scope graph with ⟨socket, held, -, named⟩
  rcases input_equipped scope graph with ⟨other, otherHeld, -, otherNamed⟩
  refine except_bind_eq_ok.mpr ⟨_, component_eq_ok.mpr (component?_equipped scope graph), ?_⟩
  show (equipped scope graph).findNamed "input" [outputOf graph, graph.nextSocket] = _
  rw [findNamed]
  refine except_bind_eq_ok.mpr ⟨socket, heldSocket_eq_ok.mpr held, ?_⟩
  rw [if_neg (by rw [named]; decide), findNamed]
  refine except_bind_eq_ok.mpr ⟨other, heldSocket_eq_ok.mpr otherHeld, ?_⟩
  rw [if_pos otherNamed]
  rfl

theorem planCompute_equipped :
    (equipped scope graph).planCompute graph.nextComponent ["input"] ["output"] none {} =
      .ok (method.name, settings, [outputOf graph]) := by
  refine except_bind_eq_ok.mpr ⟨_, component_eq_ok.mpr (component?_equipped scope graph), ?_⟩
  refine except_bind_eq_ok.mpr ⟨method, rfl, ?_⟩
  rw [if_neg (by decide)]
  refine except_bind_eq_ok.mpr ⟨[outputOf graph], mapM_eq_ok.mpr (.cons ?_ .nil), rfl⟩
  exact except_bind_eq_ok.mpr ⟨_, outputNamed_equipped, rfl⟩

/-- The method bound to the two sockets. -/
def binding (graph : Graph) : Computation where
  method := method.name
  owner := graph.nextComponent
  inputs := [graph.nextSocket]
  outputs := [outputOf graph]
  settings := settings

theorem run_compute_equipped :
    (compute graph.nextComponent ["input"] ["output"] none {}).run (equipped scope graph) =
      (.ok (equipped scope graph).nextComputation, (equipped scope graph).withComputation (binding graph)) := by
  have found := component?_equipped scope graph
  have lists {name : String} {id : SocketId} (named : (equipped scope graph).Names graph.nextComponent name id)
      (listed : id ∈ (node scope graph).sockets) : Lists (equipped scope graph) graph.nextComponent id := by
    rcases named with ⟨socket, held, -⟩
    exact ⟨_, found, listed, socket, held⟩
  have inputs : ∀ id ∈ (binding graph).inputs, Lists (equipped scope graph) (binding graph).owner id :=
    List.forall_mem_singleton.mpr (lists (input_equipped scope graph) List.mem_cons_self)
  have outputs : ∀ id ∈ (binding graph).outputs, Lists (equipped scope graph) (binding graph).owner id :=
    List.forall_mem_singleton.mpr
      (lists (output_equipped scope graph) (List.mem_cons_of_mem _ List.mem_cons_self))
  have ensured := run_ensureInternal_known (List.Forall₂.cons (@inputNamed_equipped scope graph) .nil)
  rw [compute_eq]
  refine (run_query_bind planCompute_equipped _).trans ?_
  refine (run_bind_ok ensured _).trans ?_
  exact run_bindComputation (binding graph) inputs outputs found

theorem run_create (allowed : isScope (scope.getD "transpose") = true) :
    (create scope).run graph =
      (.ok graph.nextComponent, (equipped scope graph).withComputation (binding graph)) := by
  have created : (Graph.create { scope := scope.getD "transpose", settings }).run graph =
      (.ok graph.nextComponent, graph.pushComponent (blank scope)) := by
    unfold Graph.create
    rw [if_pos allowed]
    rfl
  have registered : (Graph.register graph.nextComponent method).run (withPorts scope graph) =
      (.ok ⟨⟩, equipped scope graph) := by
    have found := component?_withPorts scope graph
    unfold Graph.register
    rw [run_query_bind (component_eq_ok.mpr found)]
    exact run_editComponent found _
  unfold create
  rw [run_bind_ok created, run_bind_ok run_addSockets_both, run_bind_ok registered, run_bind_ok run_compute_equipped]
  rfl

theorem stands_equipped :
    Stands ((equipped scope graph).withComputation (binding graph)) graph.nextComponent
      (equipped scope graph).nextComputation graph.nextSocket (outputOf graph) := by
  have kept {name : String} {id : SocketId} (named : (equipped scope graph).Names graph.nextComponent name id) :
      ((equipped scope graph).withComputation (binding graph)).Names graph.nextComponent name id := by
    rcases named with ⟨socket, held, owned, same⟩
    refine ⟨_, (socket?_withComputation _ _ _).trans (congrArg _ held), ?_, ?_⟩
    · exact owned
    · exact same
  constructor
  · have found := component?_withComputation (equipped scope graph) (binding graph) graph.nextComponent
    rw [component?_equipped] at found
    exact ⟨_, found.trans (if_pos rfl), rfl⟩
  · rw [computation?_withComputation, if_pos rfl]
    rfl
  · exact kept (input_equipped scope graph)
  · exact kept (output_equipped scope graph)

/-- What is created stands in the graph. -/
theorem create_stands {id : ComponentId} {final : Graph} (ran : (create scope).run graph = (.ok id, final)) :
    ∃ computation input output, Stands final id computation input output := by
  have allowed : isScope (scope.getD "transpose") = true := by
    obtain ⟨_, _, created, -⟩ := of_run_bind_ok ran
    by_contra refused
    unfold Graph.create at created
    rw [if_neg refused] at created
    cases congrArg Prod.fst created
  have same := ran.symm.trans (run_create allowed)
  obtain rfl : id = graph.nextComponent := Except.ok.inj (congrArg Prod.fst same)
  obtain rfl : final = _ := congrArg Prod.snd same
  exact ⟨_, _, _, stands_equipped⟩

/-! ### Arrays -/

theorem apply_eq_error_iff (values : Tensor Float32) (error : Error) :
    apply values = .error error ↔ values.rank < 2 ∧ error = .cannotTranspose values.shape := by
  rw [← Tensor.swapLeading?_eq_none_iff, apply]
  cases values.swapLeading? with
  | some swapped => simp
  | none => simp [eq_comm]

theorem apply_of_exchanges {values turned : Tensor Float32} (exchanges : values.Exchanges turned) :
    apply values = .ok turned := by
  rcases exchanges.shape with ⟨_, _, _, shape, -⟩
  rcases Tensor.exchanges_swapLeading? shape with ⟨swapped, found, exchangesToo⟩
  rw [apply, found, exchangesToo.unique exchanges]

/-- An array with two axes or more, of any lengths, comes back with the first two exchanged, in its shape and in the
index of every element; from that the array itself comes back. Only an array with fewer axes is refused. -/
theorem apply_exchanges (values : Tensor Float32) :
    (2 ≤ values.rank →
      ∃ turned, apply values = .ok turned ∧ values.Exchanges turned ∧ apply turned = .ok values) ∧
    ∀ error, apply values = .error error ↔ values.rank < 2 ∧ error = .cannotTranspose values.shape := by
  refine ⟨fun enough => ?_, apply_eq_error_iff values⟩
  obtain ⟨first, second, rest, shape⟩ : ∃ first second rest, values.shape = first :: second :: rest := by
    unfold Tensor.rank at enough
    rcases shape : values.shape with _ | ⟨first, _ | ⟨second, rest⟩⟩
    · exact absurd enough (by simp [shape])
    · exact absurd enough (by simp [shape])
    · exact ⟨first, second, rest, rfl⟩
  rcases Tensor.exchanges_swapLeading? shape with ⟨turned, -, exchanges⟩
  exact ⟨turned, apply_of_exchanges exchanges, exchanges, apply_of_exchanges exchanges.symm⟩

/-- Two batches of three steps, with two values each. -/
def batches : Tensor Float32 :=
  ⟨[2, 3, 2], #[1, 2, 3, 4, 5, 6, 7, 8, 9, 10, 11, 12], rfl⟩

/-- The batches become three steps of two values each, and these the batches; without values there is as much to
exchange, and without a second axis nothing. -/
theorem apply_exchanges_batches :
    2 ≤ batches.rank ∧ (∃ turned, apply batches = .ok turned ∧ turned.shape = [3, 2, 2] ∧
      turned.data = #[1, 2, 7, 8, 3, 4, 9, 10, 5, 6, 11, 12] ∧ batches.Exchanges turned ∧
      apply turned = .ok batches) ∧
    (∃ turned, apply ⟨[0, 3], #[], rfl⟩ = .ok turned ∧ turned.shape = [3, 0]) ∧
    ∃ error, apply ⟨[1], #[1], rfl⟩ = .error error := by
  refine ⟨by decide, ?_, ?_, ?_⟩
  · rcases (apply_exchanges batches).1 (by decide) with ⟨turned, answered, exchanges, back⟩
    have found : turned = ⟨[3, 2, 2], #[1, 2, 7, 8, 3, 4, 9, 10, 5, 6, 11, 12], rfl⟩ :=
      Except.ok.inj (answered.symm.trans rfl)
    exact ⟨turned, answered, found ▸ rfl, found ▸ rfl, exchanges, back⟩
  · rcases (apply_exchanges ⟨[0, 3], #[], rfl⟩).1 (by decide) with ⟨turned, answered, -⟩
    exact ⟨turned, answered, congrArg Tensor.shape (Except.ok.inj (answered.symm.trans rfl))⟩
  · exact ⟨_, ((apply_exchanges ⟨[1], #[1], rfl⟩).2 _).mpr ⟨by decide, rfl⟩⟩

end Wiring.Transposition
