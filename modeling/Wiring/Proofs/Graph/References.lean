import Wiring.Proofs.Blueprint.Content
import Wiring.Proofs.Graph.Atomic
import Wiring.Proofs.Graph.Sound.Forest

/-!
Contract: the references that a graph stores point to something, so no question about it meets a flaw.

Owns: the references of components, sockets and computations, and that in a sound graph each of them is inside its
arena; `Error.isFlaw`, the errors that only a flaw of the graph can cause; `Unflawed`, how it passes through the
constructions of an answer; and that the questions behind the operations on a sound graph are unflawed, whatever
they are asked.

Does not own: edits.
-/

namespace Wiring

/-! ### References -/

/-- What is stored in place of a component, a socket or a computation. -/
inductive Reference where
  | component (id : ComponentId)
  | socket (id : SocketId)
  | computation (id : ComputationId)
deriving DecidableEq

namespace Reference

/-- The reference is inside its arena. -/
def Inside (graph : Graph) : Reference → Prop
  | .component id => id.index < graph.components.size
  | .socket id => id.index < graph.sockets.size
  | .computation id => id.index < graph.computations.size

end Reference

def Component.references (node : Component) : List Reference :=
  (node.parent.toList ++ Keyed.values node.children).map .component ++
    (node.sockets ++ node.deferred).map .socket ++ (node.computations ++ node.sources).map .computation

def Connection.references : Connection → List Reference
  | .socket id => [.socket id]
  | .space _ => []
  | .computation id => [.computation id]

def Socket.references (socket : Socket) : List Reference :=
  .component socket.owner :: (socket.incoming ++ socket.outgoing).flatMap Connection.references

def Computation.references (computation : Computation) : List Reference :=
  .component computation.owner :: (computation.inputs ++ computation.outputs).map .socket

namespace Graph

/-- Every reference that the graph stores. -/
def references (graph : Graph) : List Reference :=
  graph.components.toList.flatMap Component.references ++ graph.sockets.toList.flatMap Socket.references ++
    graph.computations.toList.flatMap Computation.references

variable {graph : Graph}

theorem inside_component {id : ComponentId} (found : ∃ node, graph.component? id = some node) :
    Reference.Inside graph (.component id) := by
  rcases found with ⟨node, found⟩
  exact Ancestry.component?_lt found

theorem inside_socket {id : SocketId} (held : ∃ socket, graph.socket? id = some socket) :
    Reference.Inside graph (.socket id) := by
  rcases held with ⟨socket, held⟩
  exact (Array.getElem?_eq_some_iff.mp held).1

theorem inside_computation {id : ComputationId} (found : ∃ computation, graph.computation? id = some computation) :
    Reference.Inside graph (.computation id) := by
  rcases found with ⟨computation, found⟩
  exact (Array.getElem?_eq_some_iff.mp found).1

namespace Sound

variable (sound : Sound graph)
include sound

theorem inside_of_component {id : ComponentId} {node : Component} (found : graph.component? id = some node) :
    ∀ reference ∈ node.references, reference.Inside graph := by
  have works := sound.computations.works id node found
  intro reference member
  simp only [Component.references, List.mem_append, List.mem_map] at member
  rcases member with (⟨other, isOther, rfl⟩ | ⟨socket, isSocket, rfl⟩) | ⟨computation, isComputation, rfl⟩
  · refine inside_component ?_
    rcases isOther with above | below
    · rcases sound.tree.parent id node other found (Option.mem_toList.mp above) with ⟨higher, higherFound, -⟩
      exact ⟨higher, higherFound⟩
    · rcases sound.tree.child_found found below with ⟨lower, lowerFound, -⟩
      exact ⟨lower, lowerFound⟩
  · refine inside_socket ?_
    rcases isSocket with listed | waits
    · exact sound.sockets.held_of_mem found listed
    · rcases sound.waiting id socket (deferredOf_eq found ▸ waits) with ⟨held, isHeld, -⟩
      exact ⟨held, isHeld⟩
  · refine inside_computation ?_
    have listed : computation ∈ node.computations := by
      rcases isComputation with listed | source
      · exact listed
      · exact List.mem_of_mem_filter (works.sources ▸ source)
    rcases works.listed computation listed with ⟨bound, isBound, -⟩
    exact ⟨bound, isBound⟩

theorem inside_of_socket {id : SocketId} {socket : Socket} (held : graph.socket? id = some socket) :
    ∀ reference ∈ socket.references, reference.Inside graph := by
  rcases sound.sockets.owner id socket held with ⟨node, nodeFound⟩
  intro reference member
  rcases List.mem_cons.mp member with rfl | entered
  · exact inside_component ⟨node, nodeFound⟩
  rcases List.mem_flatMap.mp entered with ⟨connection, isEntry, named⟩
  cases connection with
  | space space => cases named
  | socket other =>
      rw [List.mem_singleton.mp named]
      refine inside_socket ?_
      rcases List.mem_append.mp isEntry with incoming | outgoing
      · rcases sound.links.sources id socket held other (mem_socketEntries.mpr incoming) with ⟨source, isSource, -⟩
        exact ⟨source, isSource⟩
      · rcases sound.links.targets id socket held other (mem_socketEntries.mpr outgoing) with ⟨target, isTarget, -⟩
        exact ⟨target, isTarget⟩
  | computation computation =>
      rw [List.mem_singleton.mp named]
      refine inside_computation ?_
      have listed : computation ∈ node.computations := by
        rcases List.mem_append.mp isEntry with writes | reads
        · have writer : computation ∈ socket.tasks.writers := mem_computationEntries.mpr writes
          exact (mem_occurrences (sound.computations.writers id socket node held nodeFound ▸ writer)).1
        · have reader : computation ∈ socket.tasks.readers := mem_computationEntries.mpr reads
          exact (mem_occurrences (sound.computations.readers id socket node held nodeFound ▸ reader)).1
      rcases (sound.computations.works socket.owner node nodeFound).listed computation listed with ⟨bound, isBound, -⟩
      exact ⟨bound, isBound⟩

theorem inside_of_computation {id : ComputationId} {computation : Computation}
    (found : graph.computation? id = some computation) :
    ∀ reference ∈ computation.references, reference.Inside graph := by
  have bound := sound.computations.bound id computation found
  rcases bound.node with ⟨node, -, nodeFound, -⟩
  intro reference member
  rcases List.mem_cons.mp member with rfl | ends
  · exact inside_component ⟨node, nodeFound⟩
  rcases List.mem_map.mp ends with ⟨socket, isEnd, rfl⟩
  refine inside_socket ?_
  rcases List.mem_append.mp isEnd with input | output
  · rcases bound.inputs socket input with ⟨held, isHeld, -⟩
    exact ⟨held, isHeld⟩
  · rcases bound.outputs socket output with ⟨held, isHeld, -⟩
    exact ⟨held, isHeld⟩

/-- Every reference that is stored is inside its arena. -/
theorem inside : ∀ reference ∈ graph.references, reference.Inside graph := by
  intro reference member
  rcases List.mem_append.mp member with others | ofComputation
  · rcases List.mem_append.mp others with ofComponent | ofSocket
    · rcases List.mem_flatMap.mp ofComponent with ⟨node, stored, named⟩
      rcases List.getElem?_of_mem stored with ⟨position, found⟩
      have found : graph.component? ⟨position⟩ = some node := Array.getElem?_toList.symm.trans found
      exact sound.inside_of_component found reference named
    · rcases List.mem_flatMap.mp ofSocket with ⟨socket, stored, named⟩
      rcases List.getElem?_of_mem stored with ⟨position, held⟩
      have held : graph.socket? ⟨position⟩ = some socket := Array.getElem?_toList.symm.trans held
      exact sound.inside_of_socket held reference named
  · rcases List.mem_flatMap.mp ofComputation with ⟨computation, stored, named⟩
    rcases List.getElem?_of_mem stored with ⟨position, found⟩
    have found : graph.computation? ⟨position⟩ = some computation := Array.getElem?_toList.symm.trans found
    exact sound.inside_of_computation found reference named

end Sound

end Graph

/-! ### Answers without flaws -/

/-- A reference that points nowhere, or a bound method that is not registered: only a flaw of the graph can be the
cause. -/
def Error.isFlaw : Error → Bool
  | .dangling _ | .methodMissing .. => true
  | _ => false

/-- If there is an error, it is no flaw. -/
def Unflawed {α : Type} (answer : Except Error α) : Prop :=
  ∀ error, answer = .error error → error.isFlaw = false

namespace Unflawed

variable {α β : Type} {answer : Except Error α}

theorem ok (value : α) : Unflawed (.ok value : Except Error α) :=
  fun _ failed => nomatch failed

theorem error {error : Error} (harmless : error.isFlaw = false) : Unflawed (.error error : Except Error α) := by
  intro other failed
  rwa [← Except.error.inj failed]

theorem of_ok {value : α} (answered : answer = .ok value) : Unflawed answer :=
  answered ▸ ok value

theorem bind {next : α → Except Error β} (first : Unflawed answer)
    (second : ∀ value, answer = .ok value → Unflawed (next value)) : Unflawed (answer >>= next) := by
  intro error failed
  rcases except_bind_eq_error.mp failed with early | ⟨value, answered, late⟩
  · exact first error early
  · exact second value answered error late

theorem map {wrap : α → β} (unflawed : Unflawed answer) : Unflawed (wrap <$> answer) := by
  cases answer with
  | error error => exact fun other failed => unflawed other (congrArg Except.error (Except.error.inj failed))
  | ok value => exact ok _

theorem mapM {ask : α → Except Error β} {items : List α} (each : ∀ item ∈ items, Unflawed (ask item)) :
    Unflawed (items.mapM ask) := by
  induction items with
  | nil => exact ok _
  | cons first rest inductionHypothesis =>
      rw [List.mapM_cons]
      refine (each first List.mem_cons_self).bind fun value _ => ?_
      exact (inductionHypothesis fun item member => each item (List.mem_cons_of_mem first member)).bind
        fun values _ => ok _

end Unflawed

/-! ### Questions -/

namespace Graph

variable {graph : Graph}

theorem unflawed_component (graph : Graph) (id : ComponentId) : Unflawed (graph.component id) := by
  unfold component
  split
  · exact .ok _
  · exact .error rfl

theorem isFlaw_ofSpecFault (fault : Space.SpecFault) : (Error.ofSpecFault fault).isFlaw = false := by
  cases fault <;> rfl

theorem unflawed_sideOf (name : String) (side : Option Side) : Unflawed (sideOf name side) := by
  unfold sideOf
  split
  · exact .ok _
  · split
    · exact .ok _
    · exact .error rfl

theorem unflawed_planSockets (owner : String) (side : Option Side) (taken names : List String) :
    Unflawed (planSockets owner side taken names) := by
  induction names generalizing taken with
  | nil => exact .ok _
  | cons name rest inductionHypothesis =>
      refine (unflawed_sideOf name side).bind fun chosen _ => ?_
      dsimp only
      split
      · exact .error rfl
      · exact (inductionHypothesis _).map

theorem unflawed_onlySocket (node : Component) (side : Option Side) : Unflawed (onlySocket node side) := by
  cases side with
  | none => exact .error rfl
  | some side =>
      simp only [onlySocket]
      split
      · exact .ok _
      · exact .error rfl

theorem unflawed_socketNames {ids : List SocketId} (held : ∀ id ∈ ids, ∃ socket, graph.socket? id = some socket) :
    Unflawed (graph.socketNames ids) := by
  refine .mapM fun id member => .map ?_
  rcases held id member with ⟨socket, held⟩
  exact .of_ok (heldSocket_eq_ok.mpr held)

namespace SocketsSound

variable (sound : SocketsSound graph)
include sound

theorem unflawed_socketNamed (owner : ComponentId) (name : String) (side : Option Side) :
    Unflawed (graph.socketNamed? owner name side) := by
  refine (unflawed_component graph owner).bind fun node found => ?_
  have held : ∀ id ∈ searched node side, ∃ socket, graph.socket? id = some socket :=
    fun id member => sound.held_of_mem (component_eq_ok.mp found) (mem_searched member)
  rcases findNamed_answers name held with ⟨answer, searchedIn, -⟩
  exact .of_ok searchedIn

theorem unflawed_resolve (viewer : ComponentId) (ref : SocketRef) (side : Option Side) :
    Unflawed (graph.resolve viewer ref side) := by
  have named (owner : ComponentId) (name : String) {next : Option SocketId → Except Error SocketId}
      (known : ∀ id, next (some id) = .ok id) (unknown : Unflawed (next none)) :
      Unflawed (graph.socketNamed? owner name side >>= next) := by
    refine (sound.unflawed_socketNamed owner name side).bind fun answer _ => ?_
    cases answer with
    | some id => exact .of_ok (known id)
    | none => exact unknown
  have missing (owner : ComponentId) (name : String) : Unflawed (do
      let owner ← graph.component owner
      throw (.socketNotFound owner.name name side) : Except Error SocketId) :=
    (unflawed_component graph owner).bind fun node _ => .error rfl
  refine (unflawed_component graph viewer).bind fun node _ => ?_
  cases ref with
  | only => exact unflawed_onlySocket node side
  | id id =>
      dsimp only
      split
      · exact .ok _
      · exact .error rfl
  | named name => exact named viewer name (fun _ => rfl) (missing viewer name)
  | foreign owner name => exact named owner name (fun _ => rfl) (missing owner name)

/-- What a reference resolves to is there. -/
theorem held_of_resolve {viewer : ComponentId} {ref : SocketRef} {side : Option Side} {id : SocketId}
    (resolved : graph.resolve viewer ref side = .ok id) : ∃ socket, graph.socket? id = some socket := by
  have named {owner : ComponentId} {name : String} {next : Option SocketId → Except Error SocketId}
      (known : ∀ id, next (some id) = .ok id) (unknown : next none ≠ .ok id)
      (answered : (graph.socketNamed? owner name side >>= next) = .ok id) : ∃ socket, graph.socket? id = some socket := by
    rcases except_bind_eq_ok.mp answered with ⟨answer, found, answered⟩
    cases answer with
    | none => exact absurd answered unknown
    | some other =>
        obtain rfl := Except.ok.inj ((known other).symm.trans answered)
        rcases socketNamed_ok found with ⟨-, -, -, socket, held, -⟩
        exact ⟨socket, held⟩
  have missing {owner : ComponentId} {name : String} : (do
      let owner ← graph.component owner
      throw (.socketNotFound owner.name name side)) ≠ Except.ok id := by
    intro answered
    rcases except_bind_eq_ok.mp answered with ⟨node, -, answered⟩
    cases answered
  rcases except_bind_eq_ok.mp resolved with ⟨node, found, resolved⟩
  have found := component_eq_ok.mp found
  cases ref with
  | only =>
      cases side with
      | none => cases resolved
      | some side =>
          refine sound.held_of_mem found ?_
          unfold Component.sockets
          cases side with
          | input =>
              simp only [onlySocket] at resolved
              split at resolved
              · next only =>
                  obtain rfl := Except.ok.inj resolved
                  simp [only]
              · cases resolved
          | output =>
              simp only [onlySocket] at resolved
              split at resolved
              · next only =>
                  obtain rfl := Except.ok.inj resolved
                  simp [only]
              · cases resolved
  | id other =>
      dsimp only at resolved
      split at resolved
      · next socket held =>
          obtain rfl := Except.ok.inj resolved
          exact ⟨socket, held⟩
      · cases resolved
  | named name => exact named (fun _ => rfl) missing resolved
  | foreign owner name => exact named (fun _ => rfl) missing resolved

theorem unflawed_terminal (viewer : ComponentId) (side : Side) (ending : Endpoint) :
    Unflawed (graph.terminal viewer side ending) := by
  cases ending with
  | space space => exact .ok _
  | spec spec =>
      simp only [terminal]
      cases Space.ofSpec spec with
      | ok space => exact .ok _
      | error fault => exact .error (isFlaw_ofSpecFault fault)
  | component id => exact (sound.unflawed_resolve id .only (some side)).map
  | socket ref => exact (sound.unflawed_resolve viewer ref none).map

theorem held_of_terminal {viewer : ComponentId} {side : Side} {ending : Endpoint} {id : SocketId}
    (answered : graph.terminal viewer side ending = .ok (.socket id)) : ∃ socket, graph.socket? id = some socket := by
  cases ending with
  | space space => cases answered
  | spec spec =>
      simp only [terminal] at answered
      cases known : Space.ofSpec spec with
      | ok space =>
          rw [known] at answered
          cases answered
      | error fault =>
          rw [known] at answered
          cases answered
  | component owner =>
      rcases except_map_eq_ok.mp answered with ⟨other, resolved, same⟩
      cases same
      exact sound.held_of_resolve resolved
  | socket ref =>
      rcases except_map_eq_ok.mp answered with ⟨other, resolved, same⟩
      cases same
      exact sound.held_of_resolve resolved

theorem unflawed_planLink (viewer : ComponentId) (source target : Endpoint) :
    Unflawed (graph.planLink viewer source target) := by
  refine (sound.unflawed_terminal viewer .output source).bind fun first atSource => ?_
  refine (sound.unflawed_terminal viewer .input target).bind fun second atTarget => ?_
  cases first with
  | space space =>
      cases second with
      | space other => exact .error rfl
      | socket id =>
          rcases sound.held_of_terminal atTarget with ⟨socket, held⟩
          refine (Unflawed.of_ok (heldSocket_eq_ok.mpr held)).bind fun other _ => ?_
          split
          · exact .ok _
          · exact .error rfl
  | socket id =>
      rcases sound.held_of_terminal atSource with ⟨socket, held⟩
      cases second with
      | space other =>
          refine (Unflawed.of_ok (heldSocket_eq_ok.mpr held)).bind fun other _ => ?_
          split
          · exact .ok _
          · exact .error rfl
      | socket second =>
          rcases sound.held_of_terminal atTarget with ⟨other, otherHeld⟩
          refine (Unflawed.of_ok (heldSocket_eq_ok.mpr held)).bind fun left leftHeld => ?_
          refine (Unflawed.of_ok (heldSocket_eq_ok.mpr otherHeld)).bind fun right _ => ?_
          dsimp only
          split
          · rcases sound.owner id left (heldSocket_eq_ok.mp leftHeld) with ⟨node, found⟩
            exact (Unflawed.of_ok (heldComponent_eq_ok.mpr found)).bind fun _ _ => .error rfl
          · exact .ok _

theorem unflawed_selection {child : ComponentId} {node : Component} (found : graph.component? child = some node)
    (exposure : Exposure) : Unflawed (graph.selection node exposure) := by
  have names {ids : List SocketId} (listed : ∀ id ∈ ids, id ∈ node.sockets) : Unflawed (graph.socketNames ids) :=
    unflawed_socketNames fun id member => sound.held_of_mem found (listed id member)
  unfold Component.sockets at names
  cases exposure with
  | nothing | socket name | sockets entries => exact .ok _
  | inputs | outputs | all =>
      refine (names fun id member => ?_).bind fun _ _ => .ok _
      simp only [List.mem_append] at member ⊢
      tauto

theorem unflawed_planCompute (owner : ComponentId) (inputs outputs : List String) (method : Option String)
    (options : Options) : Unflawed (graph.planCompute owner inputs outputs method options) := by
  refine (unflawed_component graph owner).bind fun node _ => ?_
  have choice : Unflawed (chooseMethod node method) := by
    unfold chooseMethod
    split
    · split
      · exact .ok _
      · exact .error rfl
    · split
      · exact .ok _
      · exact .error rfl
  refine choice.bind fun chosen _ => ?_
  dsimp only
  split
  · exact .error rfl
  · refine Unflawed.bind (.mapM fun name _ => ?_) fun _ _ => .ok _
    refine (sound.unflawed_socketNamed owner name none).bind fun known _ => ?_
    cases known with
    | some id => exact .ok _
    | none => exact .error rfl

end SocketsSound

/-- What has been planned is looked up again where it is. -/
theorem unflawed_checkLinked {entries : List LinkEntry} (linking : Linking graph entries) :
    Unflawed (graph.checkLinked entries) := by
  cases linking with
  | bound id incoming space socket found side => exact .ok _
  | linked source target first second sourceFound targetFound apart =>
      refine (Unflawed.of_ok (heldSocket_eq_ok.mpr sourceFound)).bind fun _ _ => ?_
      refine (Unflawed.of_ok (heldSocket_eq_ok.mpr targetFound)).bind fun _ _ => ?_
      dsimp only
      split
      · exact .error rfl
      · exact .ok _

namespace Sound

variable (sound : Sound graph)
include sound

theorem unflawed_planAdd (parent child : ComponentId) (exposure : Exposure) :
    Unflawed (graph.planAdd parent child exposure) := by
  refine (unflawed_component graph child).bind fun childNode childFound => ?_
  refine (unflawed_component graph parent).bind fun parentNode parentFound => ?_
  dsimp only
  split
  · exact .error rfl
  split
  · exact .error rfl
  rcases sound.tree.rooted parent parentNode (component_eq_ok.mp parentFound) with ⟨chain, ancestry⟩
  refine (Unflawed.of_ok ancestry.lineage).bind fun ancestors _ => ?_
  split
  · exact .error rfl
  refine (sound.sockets.unflawed_selection (component_eq_ok.mp childFound) exposure).bind fun selected _ => ?_
  refine Unflawed.bind (.mapM fun entry _ => ?_) fun _ _ => .ok _
  refine (sound.sockets.unflawed_socketNamed child entry.1 none).bind fun known named => ?_
  cases known with
  | none => exact .error rfl
  | some id =>
      rcases socketNamed_ok named with ⟨-, -, -, socket, held, -⟩
      exact (Unflawed.of_ok (heldSocket_eq_ok.mpr held)).bind fun _ _ => .ok _

theorem unflawed_fullScope (id : ComponentId) : Unflawed (graph.fullScope id) := by
  cases found : graph.component id with
  | error error =>
      unfold fullScope
      rw [found]
      exact (found ▸ unflawed_component graph id : Unflawed (Except.error error : Except Error Component)).bind
        fun _ answered => nomatch answered
  | ok node =>
      rcases sound.tree.rooted id node (component_eq_ok.mp found) with ⟨chain, ancestry⟩
      rcases ancestry.fullScope with ⟨nodes, -, told⟩
      exact .of_ok told

theorem unflawed_subtree (id : ComponentId) : Unflawed (graph.subtree id) := by
  cases found : graph.component id with
  | error error =>
      exact (unflawed_component graph id).bind fun node answered => nomatch found.symm.trans answered
  | ok node =>
      rcases subtree_succeeds sound.tree (component_eq_ok.mp found) with ⟨members, listed⟩
      exact .of_ok listed

theorem unflawed_blueprint (id : ComponentId) : Unflawed (graph.blueprint id) := by
  cases found : graph.component id with
  | error error =>
      exact (unflawed_component graph id).bind fun node answered => nomatch found.symm.trans answered
  | ok node =>
      rcases blueprint_ok sound (component_eq_ok.mp found) with ⟨plan, members, -, -, answered⟩
      exact .of_ok answered

/-- Names lead from a component that is there to components that are there. -/
theorem unflawed_follow (whole : List String) {names : List String} {id : ComponentId} {node : Component}
    (found : graph.component? id = some node) : Unflawed (graph.follow whole id names) := by
  induction names generalizing id node with
  | nil => exact .ok _
  | cons name rest inductionHypothesis =>
      refine (Unflawed.of_ok (heldComponent_eq_ok.mpr found)).bind fun other held => ?_
      obtain rfl := Option.some.inj (found.symm.trans (heldComponent_eq_ok.mp held))
      cases known : Keyed.get? node.children name with
      | none => exact .error rfl
      | some child =>
          rcases sound.tree.child id node found _ (Keyed.mem_of_get? known) with ⟨below, belowFound, -⟩
          exact inductionHypothesis belowFound

theorem unflawed_socketAt {root : ComponentId} {node : Component} (found : graph.component? root = some node)
    (place : SocketPath) : Unflawed (graph.socketAt root place) :=
  (sound.unflawed_follow place.path found).bind fun owner _ =>
    sound.sockets.unflawed_resolve owner (.named place.name) none

theorem unflawed_spaceOfSource (owner : ComponentId) (source : SpaceSource) :
    Unflawed (graph.spaceOfSource owner source) := by
  cases source with
  | space space => exact .ok _
  | socket name =>
      refine (sound.sockets.unflawed_resolve owner (.named name) (some .input)).bind fun id resolved => ?_
      rcases sound.sockets.held_of_resolve resolved with ⟨socket, held⟩
      refine (Unflawed.of_ok (heldSocket_eq_ok.mpr held)).bind fun other _ => ?_
      split
      · exact .ok _
      · exact .error rfl

end Sound

end Graph

end Wiring
