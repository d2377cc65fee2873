import Wiring.Proofs.Graph.Operations.Links

/-!
Contract: methods and computations, as changes.

Owns: what the plan of a computation has checked; the run of the part that follows the plan; and that
`register` and `compute` are sequences of changes whatever their outcome.
-/

namespace Wiring.Graph

/-! ### Methods -/

theorem keeps_register (id : ComponentId) (method : Method) : Keeps Changes (register id method) := by
  intro graph
  refine Keeps.query_bind_of fun node answered => ?_
  have found := component_eq_ok.mp answered
  cases known : node.method? method.name with
  | some other => exact .refl
  | none =>
      have edited := after_of_run (run_editComponent found (Component.addMethod method))
      exact edited ▸ .single (.method id method node found known)

theorem name_of_method? {node : Component} {name : String} {method : Method}
    (found : node.method? name = some method) : method.name = name := by
  have named := List.find?_some found
  simpa using named

theorem chooseMethod_ok {node : Component} {name : Option String} {method : Method}
    (chosen : chooseMethod node name = .ok method) : node.method? method.name = some method := by
  cases name with
  | some name =>
      simp only [chooseMethod] at chosen
      cases known : node.method? name with
      | none => simp [known] at chosen
      | some other =>
          simp only [known, Except.ok.injEq] at chosen
          subst chosen
          rw [name_of_method? known, known]
  | none =>
      simp only [chooseMethod] at chosen
      unfold Component.method?
      split at chosen
      · next only same =>
          obtain rfl : only = method := Except.ok.inj chosen
          simp [same]
      · cases chosen

/-! ### Computations -/

/-- What has been checked before a computation is made. -/
structure ComputePlan (graph : Graph) (owner : ComponentId) (inputs outputs : List String)
    (name : String) (sockets : List SocketId) where
  node : Component
  method : Method
  found : graph.component? owner = some node
  chosen : node.method? name = some method
  inputCount : inputs.length = method.inputs
  outputCount : outputs.length = method.outputs
  resolved : List.Forall₂ (fun name id => graph.socketNamed? owner name none = .ok (some id)) outputs sockets

theorem planCompute_ok {graph : Graph} {owner : ComponentId} {inputs outputs : List String}
    {method : Option String} {options : Options} {name : String} {settings : Settings}
    {sockets : List SocketId}
    (planned : graph.planCompute owner inputs outputs method options = .ok (name, settings, sockets)) :
    Nonempty (ComputePlan graph owner inputs outputs name sockets) := by
  obtain ⟨node, found, planned⟩ := except_bind_eq_ok.mp planned
  obtain ⟨chosen, choice, planned⟩ := except_bind_eq_ok.mp planned
  by_cases mismatch : inputs.length ≠ chosen.inputs ∨ outputs.length ≠ chosen.outputs
  · simp only [if_pos mismatch] at planned
    cases planned
  · simp only [if_neg mismatch] at planned
    obtain ⟨ids, resolved, same⟩ := except_bind_eq_ok.mp planned
    obtain ⟨rfl, -, rfl⟩ : chosen.name = name ∧ _ ∧ ids = sockets := by
      simpa [pure, Except.pure] using same
    rw [not_or, not_not, not_not] at mismatch
    refine ⟨⟨node, chosen, component_eq_ok.mp found, chooseMethod_ok choice, mismatch.1, mismatch.2, ?_⟩⟩
    refine (mapM_eq_ok.mp resolved).imp fun output id answered => ?_
    obtain ⟨known, named, answered⟩ := except_bind_eq_ok.mp answered
    cases known with
    | none => cases answered
    | some known => rw [named, Except.ok.inj answered]

/-- The inputs of a computation, each found or created, are listed afterwards. -/
theorem ensureInternal_all {owner : ComponentId} (names : List String) {graph final : Graph}
    {ids : List SocketId} (ran : (names.mapM (ensureInternal owner)).run graph = (.ok ids, final)) :
    (∀ id ∈ ids, Lists final owner id) ∧ Grown owner graph final ∧ ids.length = names.length := by
  induction names generalizing graph ids with
  | nil =>
      obtain ⟨rfl, rfl⟩ := of_run_pure ran
      exact ⟨by simp, .refl owner graph, rfl⟩
  | cons name rest inductionHypothesis =>
      rw [List.mapM_cons] at ran
      obtain ⟨id, middle, first, ran⟩ := of_run_bind_ok ran
      obtain ⟨others, last, second, ran⟩ := of_run_bind_ok ran
      obtain ⟨rfl, rfl⟩ := of_run_pure ran
      obtain ⟨listed, grown⟩ := ensureInternal_ok first
      obtain ⟨othersListed, grownMore, length⟩ := inductionHypothesis second
      refine ⟨fun other member => ?_, grown.trans grownMore, by simp [length]⟩
      rcases List.mem_cons.mp member with rfl | member
      · exact listed.grown grownMore
      · exact othersListed other member

/-- Sockets that exist can be edited one after the other. -/
theorem run_editSockets (graph : Graph) (change : Socket → Socket) (ids : List SocketId)
    (held : ∀ id ∈ ids, ∃ socket, graph.socket? id = some socket) :
    (ids.forM fun id => editSocket id change).run graph =
      (.ok ⟨⟩, ids.foldl (fun graph id => graph.changeSocket id change) graph) := by
  induction ids generalizing graph with
  | nil => rfl
  | cons first rest inductionHypothesis =>
      obtain ⟨socket, found⟩ := held first (by simp)
      rw [forM_cons, run_bind_ok (run_editSocket found change)]
      refine inductionHypothesis _ fun id member => ?_
      obtain ⟨other, otherFound⟩ := held id (by simp [member])
      rw [socket?_changeSocket, otherFound]
      split
      · exact ⟨_, rfl⟩
      · exact ⟨other, rfl⟩

/-- The part of `compute` that is left when the sockets are there. -/
def bindComputation (computation : Computation) (source : Bool) : GraphM ComputationId := do
  let graph ← get
  let id : ComputationId := ⟨graph.computations.size⟩
  computation.inputs.forM fun socket => editSocket socket (Socket.addReader id)
  computation.outputs.forM fun socket => editSocket socket (Socket.addWriter id)
  modify fun graph => { graph with computations := graph.computations.push computation }
  editComponent computation.owner (Component.enrol id source)
  return id

theorem run_bindComputation {graph : Graph} (computation : Computation)
    (inputs : ∀ id ∈ computation.inputs, Lists graph computation.owner id)
    (outputs : ∀ id ∈ computation.outputs, Lists graph computation.owner id) {node : Component}
    (found : graph.component? computation.owner = some node) :
    (bindComputation computation computation.inputs.isEmpty).run graph =
      (.ok graph.nextComputation, graph.withComputation computation) := by
  have read := run_editSockets graph (Socket.addReader graph.nextComputation) computation.inputs fun id member =>
    let ⟨_, _, _, held⟩ := inputs id member
    held
  have written := run_editSockets (graph.withReaders graph.nextComputation computation.inputs)
    (Socket.addWriter graph.nextComputation) computation.outputs fun id member => by
      obtain ⟨_, _, _, socket, held⟩ := outputs id member
      rw [socket?_withReaders, held]
      exact ⟨_, rfl⟩
  have still : (((graph.withReaders graph.nextComputation computation.inputs).withWriters
      graph.nextComputation computation.outputs).pushComputation computation).component?
        computation.owner = some node := by
    simpa [component?, pushComputation] using found
  unfold bindComputation
  rw [run_bind_ok (run_get graph)]
  refine (run_bind_ok read _).trans ?_
  refine (run_bind_ok written _).trans ?_
  refine (run_bind_ok (run_modify _ _) _).trans ?_
  exact run_bind_ok (run_editComponent still _) _

/-- What `compute` does once its plan is made. -/
theorem compute_eq (owner : ComponentId) (inputs outputs : List String) (method : Option String)
    (options : Options) :
    compute owner inputs outputs method options = (do
      let plan ← query (·.planCompute owner inputs outputs method options)
      let sockets ← inputs.mapM (ensureInternal owner)
      bindComputation { method := plan.1, owner, inputs := sockets, outputs := plan.2.2, settings := plan.2.1 }
        inputs.isEmpty) := rfl

theorem isEmpty_of_length_eq {names : List String} {ids : List SocketId}
    (length : ids.length = names.length) : names.isEmpty = ids.isEmpty := by
  cases names <;> cases ids <;> simp_all

theorem keeps_compute (owner : ComponentId) (inputs outputs : List String) (method : Option String)
    (options : Options) : Keeps Changes (compute owner inputs outputs method options) := by
  intro graph
  rw [compute_eq]
  refine Keeps.query_bind_of fun plan planned => ?_
  obtain ⟨name, settings, outputSockets⟩ := plan
  obtain ⟨plan⟩ := planCompute_ok planned
  refine Keeps.bind_of (Keeps.mapM (keeps_ensureInternal owner) inputs graph) fun sockets answered => ?_
  obtain ⟨listed, grown, length⟩ := ensureInternal_all inputs
    (by rw [run_eq, answered] : _ = (_, after (inputs.mapM (ensureInternal owner)) graph))
  obtain ⟨node, found, old, methods⟩ := grown.component plan.node plan.found
  have written : ∀ id ∈ outputSockets, Lists graph owner id := by
    intro id member
    obtain ⟨output, -, resolved⟩ := forall₂_of_mem_right plan.resolved member
    obtain ⟨other, otherFound, otherListed, socket, held, -⟩ := socketNamed_ok resolved
    exact ⟨other, otherFound, otherListed, socket, held⟩
  have mem_of_lists {id : SocketId} (lists : Lists (after (inputs.mapM (ensureInternal owner)) graph) owner id) :
      id ∈ node.sockets := by
    obtain ⟨other, otherFound, member, -⟩ := lists
    obtain rfl : node = other := Option.some.inj (found.symm.trans otherFound)
    exact member
  rw [isEmpty_of_length_eq length]
  rw [after_of_run (run_bindComputation ⟨name, owner, sockets, outputSockets, settings⟩ listed
    (fun id member => (written id member).grown grown) found)]
  refine .single (.computation _ node plan.method found ?_ ?_ ?_ ?_)
  · rw [Component.method?, methods]
    exact plan.chosen
  · exact ⟨length.trans plan.inputCount, plan.resolved.length_eq.symm.trans plan.outputCount⟩
  · exact fun id member => mem_of_lists (listed id member)
  · exact fun id member => mem_of_lists ((written id member).grown grown)

end Wiring.Graph
