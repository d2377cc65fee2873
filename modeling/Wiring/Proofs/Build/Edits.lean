import Wiring.Proofs.Build.Runs
import Wiring.Proofs.Graph.Overlay

/-!
Contract: what a task edits in the graph, whatever its outcome.

Owns: `OnlyAt`, by which at most one component differs; and `Edited`, with one case for each edit that a task can
make: a socket takes a space, a component becomes complete and runs its hook, or a socket begins to wait.

Does not own: which tasks there are.
-/

namespace Wiring.Build

open Wiring.Graph

variable {hooks : HookRunner} {graph later : Graph} {state : BuildState}

/-! ### One component -/

/-- At most one component differs, and no socket. -/
structure OnlyAt (id : ComponentId) (before later : Graph) : Prop where
  component : ∀ other, other ≠ id → later.component? other = before.component? other
  socket : ∀ socket, later.socket? socket = before.socket? socket

instance (id : ComponentId) : IsPreorder Graph (OnlyAt id) where
  refl _ := ⟨fun _ _ => rfl, fun _ => rfl⟩
  trans _ _ _ first second :=
    ⟨fun other apart => (second.component other apart).trans (first.component other apart),
      fun socket => (second.socket socket).trans (first.socket socket)⟩

theorem OnlyAt.changeComponent (graph : Graph) (id : ComponentId) (change : Component → Component) :
    OnlyAt id graph (graph.changeComponent id change) where
  component other apart := by rw [component?_changeComponent, if_neg (Ne.symm apart)]
  socket _ := rfl

/-- Hooks leave other components and all sockets alone. -/
theorem OnlyAt.of_registers {id : ComponentId} (registers : Registers id graph later) : OnlyAt id graph later := by
  obtain ⟨store, change, rfl⟩ := registers
  have only := OnlyAt.changeComponent { graph with backend := { graph.backend with store } } id (withRegistry change)
  exact ⟨only.component, only.socket⟩

/-! ### The edits -/

/-- The edit of the graph that a task can make, whatever its outcome. -/
inductive Edited (graph : Graph) : Task → Graph → Prop where
  | still (task : Task) : Edited graph task graph
  | takesSpace (socket : SocketId) (op : DataOp) (target : Socket) (held : graph.socket? socket = some target)
      (unresolved : target.space = none) :
      Edited graph (.deliver socket op) (graph.changeSocket socket (Socket.takeSpace op.space))
  | ready (id : ComponentId) (node : Component) (spaces : List (String × Space)) (later : Graph)
      (found : graph.component? id = some node) (incomplete : node.complete = false)
      (known : inputSpaces? graph node.inputs = .ok (some spaces)) (only : OnlyAt id graph later) :
      Edited graph (.check id) later
  | defers (socket : SocketId) (op : DataOp) (id : ComputationId) (computation : Computation) (node : Component)
      (known : graph.computation? id = some computation) (found : graph.component? computation.owner = some node)
      (incomplete : node.complete = false) :
      Edited graph (.forward socket op (.computation id))
        (graph.changeComponent computation.owner (Component.defer socket))

theorem Edited.of_eq (same : later = graph) (task : Task) : Edited graph task later :=
  same ▸ .still task

theorem deliver_edits (state : BuildState) (socket : SocketId) (op : DataOp) :
    Edited state.graph (.deliver socket op) (after (deliver socket op) state).graph := by
  have opened := run_bind_ok (run_get state) fun state => do
    if (opsAt state.arrivals socket).any fun known => known.id = op.id then return []
    let target ← ask (·.heldSocket socket)
    set { state with arrivals := state.arrivals.push ⟨socket, op⟩ }
    if target.space.isSome then return []
    ofGraph (Graph.editSocket socket (Socket.takeSpace op.space))
    if target.isInterfaceInput then return [Task.check target.owner] else return []
  have opened : (deliver socket op).run state = _ := opened
  by_cases isKnown : ((opsAt state.arrivals socket).any fun known => known.id = op.id) = true
  · rw [if_pos isKnown] at opened
    rw [after_of_run opened]
    exact .still _
  rw [if_neg isKnown] at opened
  cases held : state.graph.heldSocket socket with
  | error error =>
      rw [after_of_run (opened.trans (run_ask_error held _))]
      exact .still _
  | ok target =>
      have opened := opened.trans ((run_ask_ok held _).trans (run_bind_ok (run_set state _) _))
      by_cases resolved : target.space.isSome = true
      · rw [if_pos resolved] at opened
        rw [after_of_run opened]
        exact .still _
      rw [if_neg resolved] at opened
      have found := heldSocket_eq_ok.mp held
      have foundThen : (BuildState.graph { state with arrivals := state.arrivals.push ⟨socket, op⟩ }).socket? socket =
          some target := found
      have opened := opened.trans (run_editSocket_bind foundThen (Socket.takeSpace op.space) _)
      have unresolved := Option.not_isSome_iff_eq_none.mp resolved
      by_cases isInput : target.isInterfaceInput = true
      · rw [if_pos isInput] at opened
        rw [after_of_run opened]
        exact .takesSpace socket op target found unresolved
      · rw [if_neg isInput] at opened
        rw [after_of_run opened]
        exact .takesSpace socket op target found unresolved

theorem keeps_editComponent_onlyAt (id : ComponentId) (change : Component → Component) :
    Keeps (OnlyAt id) (Graph.editComponent id change) := by
  intro graph
  exact Keeps.query_bind_of fun _ _ => OnlyAt.changeComponent graph id change

theorem keeps_completing (registers : hooks.Registers graph) {id : ComponentId} {old node : Component}
    (found : graph.component? id = some old) (same : node.hook = old.hook) (spaces : List (String × Space)) :
    Keeps (Order.Preimage BuildState.graph (OnlyAt id)) (completing hooks id node spaces) := by
  refine Keeps.bind (keeps_ofGraph (keeps_editComponent_onlyAt id _)) fun _ => ?_
  refine Keeps.bind (keeps_of_graph_eq fun _ => rfl) fun _ => Keeps.bind ?_ fun _ => ?_
  · unfold runHook
    cases chosen : node.hook with
    | none => exact Keeps.pure _
    | some hook =>
        dsimp only
        split
        · exact Keeps.pure _
        · refine keeps_ofSession (Keeps.bind (keeps_record _) fun _ => ?_)
          refine Keeps.bind (fun given => ?_) fun _ => keeps_record _
          exact OnlyAt.of_registers (registers id old hook found (same ▸ chosen) _ given).1
  · refine Keeps.bind (keeps_ask _) fun waiting => ?_
    exact Keeps.bind (keeps_ofGraph (keeps_editComponent_onlyAt id _)) fun _ => Keeps.pure _

theorem check_edits (registers : hooks.Registers graph) (wired : state.graph.wiring = graph.wiring)
    (id : ComponentId) : Edited state.graph (.check id) (after (check hooks id) state).graph := by
  rcases run_check state id with ⟨answer, ran, -⟩ | ⟨node, spaces, found, incomplete, known, ran⟩
  · rw [after_of_run (ran hooks)]
    exact .still _
  · rcases component?_of_wiring wired found with ⟨old, oldFound, same⟩
    have hook := (Component.fields_of_wiring same).2.2.2.2.2.2
    have only := keeps_completing registers oldFound hook spaces state
    have ends : after (check hooks id) state = after (completing hooks id node spaces) state :=
      congrArg Prod.snd (ran hooks)
    rw [ends]
    exact .ready id node spaces _ found incomplete known only

theorem forward_edits (state : BuildState) (socket : SocketId) (op : DataOp) (connection : Connection) :
    Edited state.graph (.forward socket op connection) (after (forward socket op connection) state).graph := by
  cases connection with
  | socket target => exact .still _
  | space space => exact .still _
  | computation id =>
      have opened : (forward socket op (.computation id)).run state = (do
        let computation ← ask (·.heldComputation id)
        let owner ← ask (·.heldComponent computation.owner)
        if owner.complete then return [.fire id]
        if socket ∈ owner.deferred then return []
        ofGraph (Graph.editComponent computation.owner (Component.defer socket))
        return [] : BuildM (List Task)).run state := rfl
      cases held : state.graph.heldComputation id with
      | error error =>
          rw [after_of_run (opened.trans (run_ask_error held _))]
          exact .still _
      | ok computation =>
          have opened := opened.trans (run_ask_ok held _)
          cases ownerHeld : state.graph.heldComponent computation.owner with
          | error error =>
              rw [after_of_run (opened.trans (run_ask_error ownerHeld _))]
              exact .still _
          | ok owner =>
              have opened := opened.trans (run_ask_ok ownerHeld _)
              by_cases complete : owner.complete = true
              · rw [if_pos complete] at opened
                rw [after_of_run opened]
                exact .still _
              rw [if_neg complete] at opened
              by_cases waits : socket ∈ owner.deferred
              · rw [if_pos waits] at opened
                rw [after_of_run opened]
                exact .still _
              rw [if_neg waits] at opened
              have found := heldComponent_eq_ok.mp ownerHeld
              rw [after_of_run (opened.trans (run_editComponent_bind found (Component.defer socket) _))]
              exact .defers socket op id computation owner (heldComputation_eq_ok.mp held) found
                (Bool.not_eq_true _ ▸ complete)

/-- Every task makes such an edit. -/
theorem perform_edits (registers : hooks.Registers graph) (wired : state.graph.wiring = graph.wiring) (task : Task) :
    Edited state.graph task (after (perform hooks task) state).graph := by
  have still {step : BuildM (List Task)} (keeps : Keeps (Order.Preimage BuildState.graph Eq) step) :
      Edited state.graph task (after step state).graph := .of_eq (keeps state).symm task
  cases task with
  | deliver socket op => exact deliver_edits state socket op
  | check id => exact check_edits registers wired id
  | forward socket op connection => exact forward_edits state socket op connection
  | seed id => exact still (Keeps.bind (keeps_ask _) fun _ => Keeps.pure _)
  | seedSocket id socket => exact still (Keeps.bind (keeps_ask _) fun _ => Keeps.pure _)
  | place id socket space => exact .still _
  | wake socket => exact still (Keeps.bind (keeps_ask _) fun _ => Keeps.pure _)
  | fireSources id => exact still (Keeps.bind (keeps_ask _) fun _ => Keeps.pure _)
  | fire id => exact still (Keeps.bind (keeps_ask _) fun _ => Keeps.bind Keeps.get fun _ => Keeps.pure _)
  | fireWith id inputs => exact still (keeps_fireWith id inputs)

end Wiring.Build
