import Wiring.Proofs.Blueprint.Making
import Wiring.Proofs.Blueprint.Twins

/-!
Contract: links and bound spaces, restored by their places.

Owns: that a link between places with different paths and a space that fits its socket are restored; the
graphs that result from restoring several of them, with their lookups; and that places stay as they are
meanwhile.
-/

namespace Wiring.Graph

variable {graph : Graph} {root : ComponentId}

/-! ### Several links and spaces -/

def linkAll (graph : Graph) (links : List (SocketId × SocketId)) : Graph :=
  links.foldl (fun graph link => graph.withLink link.1 link.2) graph

def bindAll (graph : Graph) (entries : List LinkEntry) : Graph :=
  entries.foldl withEntry graph

theorem socket?_linkAll (graph : Graph) (links : List (SocketId × SocketId)) (id : SocketId) :
    (graph.linkAll links).socket? id = (graph.socket? id).map fun socket =>
      { socket with
        outgoing := socket.outgoing ++ (links.filter fun link => link.1 = id).map fun link => .socket link.2
        incoming := socket.incoming ++ (links.filter fun link => link.2 = id).map fun link => .socket link.1 } := by
  induction links generalizing graph with
  | nil => simp [linkAll]
  | cons first rest inductionHypothesis =>
      rw [show graph.linkAll (first :: rest) = (graph.withLink first.1 first.2).linkAll rest from rfl,
        inductionHypothesis, socket?_withLink, Option.map_map]
      refine congrArg (Option.map · (graph.socket? id)) (funext fun socket => ?_)
      by_cases source : first.1 = id <;> by_cases target : first.2 = id <;> simp [source, target]

theorem socket?_bindAll (graph : Graph) (entries : List LinkEntry) (id : SocketId) :
    (graph.bindAll entries).socket? id = (graph.socket? id).map fun socket =>
      { socket with
        outgoing := socket.outgoing ++
          (entries.filter fun entry => entry.socket = id ∧ entry.incoming = false).map LinkEntry.connection
        incoming := socket.incoming ++
          (entries.filter fun entry => entry.socket = id ∧ entry.incoming = true).map LinkEntry.connection } := by
  induction entries generalizing graph with
  | nil => simp [bindAll]
  | cons first rest inductionHypothesis =>
      rw [show graph.bindAll (first :: rest) = (graph.withEntry first).bindAll rest from rfl,
        inductionHypothesis, socket?_withEntry]
      by_cases same : first.socket = id
      · rw [if_pos same, Option.map_map]
        refine congrArg (Option.map · (graph.socket? id)) (funext fun socket => ?_)
        cases incoming : first.incoming <;> simp [same, incoming, LinkEntry.setList, LinkEntry.listOf]
      · rw [if_neg same]
        simp [same]

@[simp] theorem component?_linkAll (graph : Graph) (links : List (SocketId × SocketId)) (id : ComponentId) :
    (graph.linkAll links).component? id = graph.component? id := by
  induction links generalizing graph with
  | nil => rfl
  | cons first rest inductionHypothesis => exact inductionHypothesis _

@[simp] theorem component?_bindAll (graph : Graph) (entries : List LinkEntry) (id : ComponentId) :
    (graph.bindAll entries).component? id = graph.component? id := by
  induction entries generalizing graph with
  | nil => rfl
  | cons first rest inductionHypothesis => exact inductionHypothesis _

@[simp] theorem computation?_linkAll (graph : Graph) (links : List (SocketId × SocketId)) (id : ComputationId) :
    (graph.linkAll links).computation? id = graph.computation? id := by
  induction links generalizing graph with
  | nil => rfl
  | cons first rest inductionHypothesis => exact inductionHypothesis _

@[simp] theorem computation?_bindAll (graph : Graph) (entries : List LinkEntry) (id : ComputationId) :
    (graph.bindAll entries).computation? id = graph.computation? id := by
  induction entries generalizing graph with
  | nil => rfl
  | cons first rest inductionHypothesis => exact inductionHypothesis _

theorem carries_linkAll (graph : Graph) (links : List (SocketId × SocketId)) :
    Carries graph (graph.linkAll links) where
  socket id socket held := by
    rw [socket?_linkAll, held]
    exact ⟨_, rfl, rfl⟩
  computation id computation found := by
    rw [computation?_linkAll, found]

theorem carries_bindAll (graph : Graph) (entries : List LinkEntry) : Carries graph (graph.bindAll entries) where
  socket id socket held := by
    rw [socket?_bindAll, held]
    exact ⟨_, rfl, rfl⟩
  computation id computation found := by
    rw [computation?_bindAll, found]

/-! ### Restoring -/

/-- Where components stay as they are, so do places. -/
theorem Stands.of_components {later : Graph} (carries : Carries graph later)
    (same : ∀ id, later.component? id = graph.component? id) {id : SocketId} {place : SocketPath}
    (stands : graph.Stands root id place) : later.Stands root id place := by
  refine stands.mono carries fun other node found => ⟨node, ?_, fun _ member => member⟩
  rw [same, found]

theorem terminal_id {viewer : ComponentId} {node : Component} (found : graph.component? viewer = some node)
    {id : SocketId} {socket : Socket} (held : graph.socket? id = some socket) (side : Side) :
    graph.terminal viewer side (.socket (.id id)) = .ok (.socket id) :=
  except_map_eq_ok.mpr ⟨id, resolve_id found held _, rfl⟩

theorem run_restoreLink (sound : Sound graph) {node : Component} (found : graph.component? root = some node)
    {source target : SocketId} {link : SocketPath × SocketPath} (first : graph.Stands root source link.1)
    (second : graph.Stands root target link.2) (apart : link.1.path ≠ link.2.path) :
    (restoreLink root link).run graph = (.ok ⟨⟩, graph.withLink source target) := by
  have sourceAt := first.socketAt sound
  have targetAt := second.socketAt sound
  rcases first with ⟨left, leftHeld, leftDescends, -⟩
  rcases second with ⟨right, rightHeld, rightDescends, -⟩
  have differ : left.owner ≠ right.owner := by
    intro same
    rw [same] at leftDescends
    exact apart (leftDescends.path_unique sound.tree rightDescends)
  have planned : graph.planLink root (.socket (.id source)) (.socket (.id target)) =
      .ok [⟨source, false, .socket target⟩, ⟨target, true, .socket source⟩] := by
    refine except_bind_eq_ok.mpr ⟨_, terminal_id found leftHeld .output, ?_⟩
    refine except_bind_eq_ok.mpr ⟨_, terminal_id found rightHeld .input, ?_⟩
    refine except_bind_eq_ok.mpr ⟨left, heldSocket_eq_ok.mpr leftHeld, ?_⟩
    refine except_bind_eq_ok.mpr ⟨right, heldSocket_eq_ok.mpr rightHeld, ?_⟩
    rw [if_neg differ]
    rfl
  unfold restoreLink connect
  rw [run_query_bind sourceAt, run_query_bind targetAt, run_query_bind planned]
  exact run_append_link leftHeld rightHeld

theorem run_restoreBinding (sound : Sound graph) {node : Component} (found : graph.component? root = some node)
    {id : SocketId} {binding : SpaceBinding} (stands : graph.Stands root id binding.socket) {socket : Socket}
    (held : graph.socket? id = some socket) (side : socket.side = if binding.incoming then .input else .output) :
    (restoreBinding root binding).run graph =
      (.ok ⟨⟩, graph.withEntry ⟨id, binding.incoming, .space binding.space⟩) := by
  have socketAt := stands.socketAt sound
  rcases binding with ⟨place, space, incoming⟩
  unfold restoreBinding
  rw [run_query_bind socketAt]
  cases incoming with
  | true =>
      rw [if_pos rfl]
      exact run_connect_input (resolve_id found held none) held side space
  | false =>
      have fits : socket.side = .output := side
      have planned : graph.planLink root (.socket (.id id)) (.space space) = .ok [⟨id, false, .space space⟩] := by
        refine except_bind_eq_ok.mpr ⟨_, terminal_id found held .output, ?_⟩
        refine except_bind_eq_ok.mpr ⟨.space space, rfl, ?_⟩
        refine except_bind_eq_ok.mpr ⟨socket, heldSocket_eq_ok.mpr held, ?_⟩
        rw [if_pos fits]
        rfl
      unfold connect
      rw [if_neg (by simp), run_query_bind planned]
      exact run_append_bound held

/-- The sockets that a link of a blueprint joins. -/
def Joins (graph : Graph) (root : ComponentId) (link : SocketPath × SocketPath) (ids : SocketId × SocketId) : Prop :=
  graph.Stands root ids.1 link.1 ∧ graph.Stands root ids.2 link.2 ∧ link.1.path ≠ link.2.path

/-- The entry that a bound space of a blueprint makes. -/
def Enters (graph : Graph) (root : ComponentId) (binding : SpaceBinding) (entry : LinkEntry) : Prop :=
  graph.Stands root entry.socket binding.socket ∧ entry.incoming = binding.incoming ∧
    entry.connection = .space binding.space ∧
    ∃ socket, graph.socket? entry.socket = some socket ∧
      socket.side = if binding.incoming then .input else .output

/-- What a link joins stays the same where components stay as they are. -/
theorem Joins.carry {later : Graph} (carries : Carries graph later)
    (same : ∀ id, later.component? id = graph.component? id) {link : SocketPath × SocketPath}
    {ids : SocketId × SocketId} (joins : graph.Joins root link ids) : later.Joins root link ids :=
  ⟨joins.1.of_components carries same, joins.2.1.of_components carries same, joins.2.2⟩

theorem Enters.carry {later : Graph} (carries : Carries graph later)
    (same : ∀ id, later.component? id = graph.component? id) {binding : SpaceBinding} {entry : LinkEntry}
    (enters : graph.Enters root binding entry) : later.Enters root binding entry := by
  rcases enters with ⟨stands, incoming, connection, socket, held, side⟩
  rcases carries.socket entry.socket socket held with ⟨new, newHeld, face⟩
  refine ⟨stands.of_components carries same, incoming, connection, new, newHeld, ?_⟩
  rw [← side]
  show new.face.side = socket.face.side
  rw [face]

/-- All links can be restored. -/
theorem run_restoreLinks (sound : Sound graph) {node : Component} (found : graph.component? root = some node)
    {links : List (SocketPath × SocketPath)} {ids : List (SocketId × SocketId)}
    (joined : List.Forall₂ (graph.Joins root) links ids) :
    (links.forM (restoreLink root)).run graph = (.ok ⟨⟩, graph.linkAll ids) ∧ Sound (graph.linkAll ids) := by
  induction links generalizing graph ids with
  | nil =>
      cases joined
      exact ⟨rfl, sound⟩
  | cons link rest inductionHypothesis =>
      cases joined with
      | @cons _ pair _ _ head tail =>
          have later := tail.imp fun _ _ joins => joins.carry (carries_linkAll graph [pair]) fun _ => rfl
          rcases head with ⟨first, second, apart⟩
          have ran := run_restoreLink sound found first second apart
          have soundAfter := sound.changes (keeps_restoreLink root link graph)
          rw [after_of_run ran] at soundAfter
          rcases inductionHypothesis soundAfter found later with ⟨others, soundLater⟩
          exact ⟨(run_bind_ok ran _).trans others, soundLater⟩

/-- All bound spaces can be restored. -/
theorem run_restoreBindings (sound : Sound graph) {node : Component} (found : graph.component? root = some node)
    {bindings : List SpaceBinding} {entries : List LinkEntry}
    (entered : List.Forall₂ (graph.Enters root) bindings entries) :
    (bindings.forM (restoreBinding root)).run graph = (.ok ⟨⟩, graph.bindAll entries) ∧
      Sound (graph.bindAll entries) := by
  induction bindings generalizing graph entries with
  | nil =>
      cases entered
      exact ⟨rfl, sound⟩
  | cons binding rest inductionHypothesis =>
      cases entered with
      | @cons _ entry _ _ head tail =>
          have later := tail.imp fun _ _ enters => enters.carry (carries_bindAll graph [entry]) fun _ => rfl
          rcases head with ⟨stands, incoming, connection, socket, held, side⟩
          have ran := run_restoreBinding sound found stands held side
          rw [← incoming, ← connection] at ran
          have soundAfter := sound.changes (keeps_restoreBinding root binding graph)
          rw [after_of_run ran] at soundAfter
          rcases inductionHypothesis soundAfter found later with ⟨others, soundLater⟩
          exact ⟨(run_bind_ok ran _).trans others, soundLater⟩

end Wiring.Graph
