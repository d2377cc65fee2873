import Mathlib.Logic.Function.Iterate
import Wiring.Proofs.Graph.Lookup
import Wiring.Graph.Computations
import Wiring.Graph.Composition

/-!
Contract: the changes that a graph can undergo.

Owns: one function on graphs for each change that the operations make as a whole, with its lookups; the
wiring of a graph, which is what builds and variables leave alone; `Change`, which collects the changes
together with the checks that precede them; and `SameVariables`, by which no variable is touched.

Does not own: that the operations are sequences of changes, nor what the changes preserve.
-/

namespace Wiring

/-! ### The parts of a graph that builds and variables leave alone -/

def Component.wiring (node : Component) : Component :=
  { node with registry := [], complete := false, hookDone := false, deferred := [] }

def Socket.wiring (socket : Socket) : Socket :=
  { socket with space := none }

def Graph.wiring (graph : Graph) : Graph :=
  { graph with
    backend := { graph.backend with store := {} }
    components := graph.components.map Component.wiring
    sockets := graph.sockets.map Socket.wiring }

/-! ### What changes do to single components and sockets -/

/-- Lists a socket where its kind belongs. -/
def Component.enlist (internal : Bool) (side : Side) (id : SocketId) (node : Component) : Component :=
  if internal then { node with internals := node.internals ++ [id] }
  else match side with
    | .input => { node with inputs := node.inputs ++ [id] }
    | .output => { node with outputs := node.outputs ++ [id] }

/-- Lists a computation, also as a source if it has no inputs. -/
def Component.enrol (id : ComputationId) (source : Bool) (node : Component) : Component :=
  { node with
    computations := node.computations ++ [id]
    sources := if source then node.sources ++ [id] else node.sources }

def Component.addMethod (method : Method) (node : Component) : Component :=
  { node with methods := node.methods ++ [method] }

def Component.withHook (hook : Hook) (node : Component) : Component :=
  { node with hook := some hook }

def Component.adopt (name : String) (child : ComponentId) (node : Component) : Component :=
  { node with children := Keyed.insert name child node.children }

def Component.attach (parent : ComponentId) (node : Component) : Component :=
  { node with added := true, parent := some parent }

def Socket.addReader (id : ComputationId) (socket : Socket) : Socket :=
  { socket with outgoing := socket.outgoing ++ [.computation id] }

def Socket.addWriter (id : ComputationId) (socket : Socket) : Socket :=
  { socket with incoming := socket.incoming ++ [.computation id] }

theorem Socket.iterate_addReader (id : ComputationId) (count : Nat) (socket : Socket) :
    (Socket.addReader id)^[count] socket =
      { socket with outgoing := socket.outgoing ++ List.replicate count (.computation id) } := by
  induction count generalizing socket with
  | zero => simp
  | succ count inductionHypothesis =>
      rw [Function.iterate_succ_apply, inductionHypothesis]
      simp [addReader, List.replicate_succ]

theorem Socket.iterate_addWriter (id : ComputationId) (count : Nat) (socket : Socket) :
    (Socket.addWriter id)^[count] socket =
      { socket with incoming := socket.incoming ++ List.replicate count (.computation id) } := by
  induction count generalizing socket with
  | zero => simp
  | succ count inductionHypothesis =>
      rw [Function.iterate_succ_apply, inductionHypothesis]
      simp [addWriter, List.replicate_succ]

namespace Graph

/-! ### Changes of a graph -/

/-- A new socket, listed by its owner. -/
def withSocket (graph : Graph) (owner : ComponentId) (internal : Bool) (name : String) (side : Side) : Graph :=
  (graph.pushSocket { name, side, internal, owner }).changeComponent owner
    (Component.enlist internal side graph.nextSocket)

/-- An entry appended to the list it belongs to. -/
def withEntry (graph : Graph) (entry : LinkEntry) : Graph :=
  graph.changeSocket entry.socket fun socket =>
    entry.setList (entry.listOf socket ++ [entry.connection]) socket

/-- The first entry equal to the given one removed from its list. -/
def withoutEntry (graph : Graph) (entry : LinkEntry) : Graph :=
  graph.changeSocket entry.socket fun socket =>
    entry.setList (eraseFirst entry.connection (entry.listOf socket)) socket

def withLink (graph : Graph) (source target : SocketId) : Graph :=
  (graph.withEntry ⟨source, false, .socket target⟩).withEntry ⟨target, true, .socket source⟩

def withoutLink (graph : Graph) (source target : SocketId) : Graph :=
  (graph.withoutEntry ⟨source, false, .socket target⟩).withoutEntry ⟨target, true, .socket source⟩

/-- A computation announced to the sockets that it reads. -/
def withReaders (graph : Graph) (id : ComputationId) (inputs : List SocketId) : Graph :=
  inputs.foldl (fun graph socket => graph.changeSocket socket (Socket.addReader id)) graph

def withWriters (graph : Graph) (id : ComputationId) (outputs : List SocketId) : Graph :=
  outputs.foldl (fun graph socket => graph.changeSocket socket (Socket.addWriter id)) graph

/-- A new computation, announced to its sockets and listed by its owner. -/
def withComputation (graph : Graph) (computation : Computation) : Graph :=
  (((graph.withReaders graph.nextComputation computation.inputs).withWriters graph.nextComputation
    computation.outputs).pushComputation computation).changeComponent computation.owner
    (Component.enrol graph.nextComputation computation.inputs.isEmpty)

def withChild (graph : Graph) (parent child : ComponentId) (name : String) : Graph :=
  (graph.changeComponent child (Component.attach parent)).changeComponent parent
    (Component.adopt name child)

/-- The computation is entered as a reader of the socket. -/
def Feeds (graph : Graph) (socket : SocketId) (computation : ComputationId) : Prop :=
  ∃ held, graph.socket? socket = some held ∧ .computation computation ∈ held.outgoing

/-- Some computation of the component is entered as a reader of the socket. -/
def MayWait (graph : Graph) (owner : ComponentId) (socket : SocketId) : Prop :=
  ∃ id computation, graph.Feeds socket id ∧ graph.computation? id = some computation ∧
    computation.owner = owner

/-- One change, with everything that is checked before it is made. -/
inductive Change (graph : Graph) : Graph → Prop where
  | create (config : ComponentConfig) (scope : isScope config.scope = true) :
      Change graph (graph.pushComponent (.ofConfig config))
  | socket (owner : ComponentId) (internal : Bool) (name : String) (side : Side) (node : Component)
      (found : graph.component? owner = some node)
      (fresh : ∀ id ∈ node.sockets, ∀ socket, graph.socket? id = some socket → socket.name ≠ name) :
      Change graph (graph.withSocket owner internal name side)
  | link (source target : SocketId) (first second : Socket)
      (sourceFound : graph.socket? source = some first) (targetFound : graph.socket? target = some second)
      (apart : first.owner ≠ second.owner) :
      Change graph (graph.withLink source target)
  | unlink (source target : SocketId) (first second : Socket)
      (sourceFound : graph.socket? source = some first) (targetFound : graph.socket? target = some second)
      (apart : first.owner ≠ second.owner)
      (outgoing : .socket target ∈ first.outgoing) (incoming : .socket source ∈ second.incoming) :
      Change graph (graph.withoutLink source target)
  | bind (id : SocketId) (incoming : Bool) (space : Space) (socket : Socket)
      (found : graph.socket? id = some socket)
      (side : socket.side = if incoming then .input else .output) :
      Change graph (graph.withEntry ⟨id, incoming, .space space⟩)
  | unbind (id : SocketId) (incoming : Bool) (space : Space) :
      Change graph (graph.withoutEntry ⟨id, incoming, .space space⟩)
  | method (id : ComponentId) (method : Method) (node : Component)
      (found : graph.component? id = some node) (fresh : node.method? method.name = none) :
      Change graph (graph.changeComponent id (Component.addMethod method))
  | computation (computation : Computation) (node : Component) (method : Method)
      (found : graph.component? computation.owner = some node)
      (chosen : node.method? computation.method = some method)
      (arity : computation.inputs.length = method.inputs ∧ computation.outputs.length = method.outputs)
      (inputs : ∀ id ∈ computation.inputs, id ∈ node.sockets)
      (outputs : ∀ id ∈ computation.outputs, id ∈ node.sockets) :
      Change graph (graph.withComputation computation)
  | child (parent child : ComponentId) (parentNode childNode : Component) (chain : List ComponentId)
      (parentFound : graph.component? parent = some parentNode)
      (childFound : graph.component? child = some childNode)
      (free : childNode.added = false)
      (fresh : childNode.name ∉ Keyed.keys parentNode.children)
      (climbed : graph.lineage parent = .ok chain) (outside : child ∉ chain) :
      Change graph (graph.withChild parent child childNode.name)
  | hook (id : ComponentId) (hook : Hook) :
      Change graph (graph.changeComponent id (Component.withHook hook))
  | state (final : Graph) (same : final.wiring = graph.wiring)
      (waiting : ∀ owner, ∀ socket ∈ final.deferredOf owner,
        socket ∈ graph.deferredOf owner ∨ graph.MayWait owner socket) :
      Change graph final

/-- Any number of changes. -/
abbrev Changes : Graph → Graph → Prop :=
  Relation.ReflTransGen Change

/-! ### Lookups after changes -/

section AfterChanges

variable (graph : Graph)

theorem component?_withSocket (owner : ComponentId) (internal : Bool) (name : String) (side : Side)
    (other : ComponentId) :
    (graph.withSocket owner internal name side).component? other =
      if owner = other then (graph.component? other).map (Component.enlist internal side graph.nextSocket)
      else graph.component? other :=
  component?_changeComponent _ owner other _

theorem socket?_withSocket (owner : ComponentId) (internal : Bool) (name : String) (side : Side)
    (other : SocketId) :
    (graph.withSocket owner internal name side).socket? other =
      if other = graph.nextSocket then some { name, side, internal, owner } else graph.socket? other :=
  socket?_pushSocket _ _ other

theorem socket?_withSocket_eq_some {graph : Graph} {owner : ComponentId} {internal : Bool} {name : String} {side : Side}
    {id : SocketId} {found : Socket} :
    (graph.withSocket owner internal name side).socket? id = some found ↔
      (id = graph.nextSocket ∧ found = { name, side, internal, owner }) ∨ graph.socket? id = some found :=
  socket?_pushSocket_eq_some

/-- A new socket leaves every older one as it is. -/
theorem socket?_withSocket_of_some {graph : Graph} {id : SocketId} {socket : Socket}
    (held : graph.socket? id = some socket) (owner : ComponentId) (internal : Bool) (name : String)
    (side : Side) : (graph.withSocket owner internal name side).socket? id = some socket :=
  socket?_withSocket_eq_some.mpr (.inr held)

@[simp] theorem computation?_withSocket (owner : ComponentId) (internal : Bool) (name : String)
    (side : Side) (other : ComputationId) :
    (graph.withSocket owner internal name side).computation? other = graph.computation? other := rfl

theorem socket?_withEntry (entry : LinkEntry) (other : SocketId) :
    (graph.withEntry entry).socket? other =
      if entry.socket = other then
        (graph.socket? other).map fun socket =>
          entry.setList (entry.listOf socket ++ [entry.connection]) socket
      else graph.socket? other :=
  socket?_changeSocket _ _ other _

theorem socket?_withoutEntry (entry : LinkEntry) (other : SocketId) :
    (graph.withoutEntry entry).socket? other =
      if entry.socket = other then
        (graph.socket? other).map fun socket =>
          entry.setList (eraseFirst entry.connection (entry.listOf socket)) socket
      else graph.socket? other :=
  socket?_changeSocket _ _ other _

theorem socket?_withLink (source target other : SocketId) :
    (graph.withLink source target).socket? other = (graph.socket? other).map fun socket =>
      { socket with
        outgoing := socket.outgoing ++ if source = other then [.socket target] else []
        incoming := socket.incoming ++ if target = other then [.socket source] else [] } := by
  unfold withLink
  rw [socket?_withEntry, socket?_withEntry]
  cases graph.socket? other with
  | none => simp
  | some socket =>
      by_cases isSource : source = other <;> by_cases isTarget : target = other <;>
        simp [isSource, isTarget, LinkEntry.setList, LinkEntry.listOf]

theorem socket?_withoutLink (source target other : SocketId) :
    (graph.withoutLink source target).socket? other = (graph.socket? other).map fun socket =>
      { socket with
        outgoing := if source = other then eraseFirst (.socket target) socket.outgoing else socket.outgoing
        incoming := if target = other then eraseFirst (.socket source) socket.incoming else socket.incoming } := by
  unfold withoutLink
  rw [socket?_withoutEntry, socket?_withoutEntry]
  cases graph.socket? other with
  | none => simp
  | some socket =>
      by_cases isSource : source = other <;> by_cases isTarget : target = other <;>
        simp [isSource, isTarget, LinkEntry.setList, LinkEntry.listOf]

@[simp] theorem component?_withEntry (entry : LinkEntry) (other : ComponentId) :
    (graph.withEntry entry).component? other = graph.component? other := rfl

@[simp] theorem computation?_withEntry (entry : LinkEntry) (other : ComputationId) :
    (graph.withEntry entry).computation? other = graph.computation? other := rfl

@[simp] theorem component?_withoutEntry (entry : LinkEntry) (other : ComponentId) :
    (graph.withoutEntry entry).component? other = graph.component? other := rfl

@[simp] theorem computation?_withoutEntry (entry : LinkEntry) (other : ComputationId) :
    (graph.withoutEntry entry).computation? other = graph.computation? other := rfl

@[simp] theorem component?_withLink (source target : SocketId) (other : ComponentId) :
    (graph.withLink source target).component? other = graph.component? other := rfl

@[simp] theorem computation?_withLink (source target : SocketId) (other : ComputationId) :
    (graph.withLink source target).computation? other = graph.computation? other := rfl

@[simp] theorem component?_withoutLink (source target : SocketId) (other : ComponentId) :
    (graph.withoutLink source target).component? other = graph.component? other := rfl

@[simp] theorem computation?_withoutLink (source target : SocketId) (other : ComputationId) :
    (graph.withoutLink source target).computation? other = graph.computation? other := rfl

theorem component?_withChild (parent child : ComponentId) (name : String) (other : ComponentId) :
    (graph.withChild parent child name).component? other =
      (graph.component? other).map fun node =>
        (if parent = other then Component.adopt name child else id)
          ((if child = other then Component.attach parent else id) node) := by
  unfold withChild
  rw [component?_changeComponent, component?_changeComponent]
  by_cases isParent : parent = other <;> by_cases isChild : child = other <;>
    simp [isParent, isChild, Function.comp_def]

@[simp] theorem socket?_withChild (parent child : ComponentId) (name : String) (other : SocketId) :
    (graph.withChild parent child name).socket? other = graph.socket? other := rfl

@[simp] theorem computation?_withChild (parent child : ComponentId) (name : String)
    (other : ComputationId) :
    (graph.withChild parent child name).computation? other = graph.computation? other := rfl

/-! #### A new computation -/

/-- A socket is changed once for every time that it is listed. -/
theorem socket?_changeSockets (change : Socket → Socket) (ids : List SocketId) (other : SocketId) :
    (ids.foldl (fun graph socket => graph.changeSocket socket change) graph).socket? other =
      (graph.socket? other).map change^[ids.count other] := by
  induction ids generalizing graph with
  | nil => simp
  | cons first rest inductionHypothesis =>
      rw [List.foldl_cons, inductionHypothesis, socket?_changeSocket]
      by_cases same : first = other
      · rw [if_pos same, Option.map_map, same, List.count_cons_self, Function.iterate_succ]
      · rw [if_neg same, List.count_cons_of_ne same]

theorem arenas_changeSockets (change : Socket → Socket) (ids : List SocketId) :
    (ids.foldl (fun graph socket => graph.changeSocket socket change) graph).components = graph.components ∧
      (ids.foldl (fun graph socket => graph.changeSocket socket change) graph).computations =
        graph.computations := by
  induction ids generalizing graph with
  | nil => exact ⟨rfl, rfl⟩
  | cons first rest inductionHypothesis => exact inductionHypothesis (graph.changeSocket first change)

theorem socket?_withReaders (id : ComputationId) (inputs : List SocketId) (other : SocketId) :
    (graph.withReaders id inputs).socket? other = (graph.socket? other).map fun socket =>
      { socket with outgoing := socket.outgoing ++ List.replicate (inputs.count other) (.computation id) } := by
  refine (socket?_changeSockets graph _ inputs other).trans (congrArg (Option.map · _) (funext fun socket => ?_))
  exact Socket.iterate_addReader id _ socket

theorem socket?_withWriters (id : ComputationId) (outputs : List SocketId) (other : SocketId) :
    (graph.withWriters id outputs).socket? other = (graph.socket? other).map fun socket =>
      { socket with incoming := socket.incoming ++ List.replicate (outputs.count other) (.computation id) } := by
  refine (socket?_changeSockets graph _ outputs other).trans (congrArg (Option.map · _) (funext fun socket => ?_))
  exact Socket.iterate_addWriter id _ socket

@[simp] theorem components_withReaders (id : ComputationId) (inputs : List SocketId) :
    (graph.withReaders id inputs).components = graph.components :=
  (arenas_changeSockets graph (Socket.addReader id) inputs).1

@[simp] theorem components_withWriters (id : ComputationId) (outputs : List SocketId) :
    (graph.withWriters id outputs).components = graph.components :=
  (arenas_changeSockets graph (Socket.addWriter id) outputs).1

@[simp] theorem computations_withReaders (id : ComputationId) (inputs : List SocketId) :
    (graph.withReaders id inputs).computations = graph.computations :=
  (arenas_changeSockets graph (Socket.addReader id) inputs).2

@[simp] theorem computations_withWriters (id : ComputationId) (outputs : List SocketId) :
    (graph.withWriters id outputs).computations = graph.computations :=
  (arenas_changeSockets graph (Socket.addWriter id) outputs).2

theorem component?_withComputation (computation : Computation) (other : ComponentId) :
    (graph.withComputation computation).component? other =
      if computation.owner = other then
        (graph.component? other).map (Component.enrol graph.nextComputation computation.inputs.isEmpty)
      else graph.component? other := by
  have kept (node : ComponentId) : (((graph.withReaders graph.nextComputation computation.inputs).withWriters
      graph.nextComputation computation.outputs).pushComputation computation).component? node =
        graph.component? node := by
    simp [component?, pushComputation]
  unfold withComputation
  rw [component?_changeComponent, kept]

theorem socket?_withComputation (computation : Computation) (other : SocketId) :
    (graph.withComputation computation).socket? other = (graph.socket? other).map fun socket =>
      { socket with
        outgoing := socket.outgoing ++
          List.replicate (computation.inputs.count other) (.computation graph.nextComputation)
        incoming := socket.incoming ++
          List.replicate (computation.outputs.count other) (.computation graph.nextComputation) } := by
  unfold withComputation
  rw [socket?_changeComponent, socket?_pushComputation, socket?_withWriters, socket?_withReaders]
  simp [Function.comp_def]

theorem computation?_withComputation (computation : Computation) (other : ComputationId) :
    (graph.withComputation computation).computation? other =
      if other = graph.nextComputation then some computation else graph.computation? other := by
  have next : ((graph.withReaders graph.nextComputation computation.inputs).withWriters
      graph.nextComputation computation.outputs).nextComputation = graph.nextComputation := by
    simp [nextComputation]
  have kept : ((graph.withReaders graph.nextComputation computation.inputs).withWriters
      graph.nextComputation computation.outputs).computation? other = graph.computation? other := by
    simp [computation?]
  unfold withComputation
  rw [computation?_changeComponent, computation?_pushComputation, next, kept]

theorem computation?_withComputation_eq_some {graph : Graph} {computation found : Computation} {id : ComputationId} :
    (graph.withComputation computation).computation? id = some found ↔
      (id = graph.nextComputation ∧ found = computation) ∨ graph.computation? id = some found := by
  rw [computation?_withComputation]
  exact added_eq_some fun new => new ▸ computation?_nextComputation graph

/-! #### The wiring -/

theorem component?_wiring (other : ComponentId) :
    graph.wiring.component? other = (graph.component? other).map Component.wiring := by
  simp [component?, wiring]

theorem socket?_wiring (other : SocketId) :
    graph.wiring.socket? other = (graph.socket? other).map Socket.wiring := by
  simp [socket?, wiring]

@[simp] theorem computation?_wiring (other : ComputationId) :
    graph.wiring.computation? other = graph.computation? other := rfl

end AfterChanges

/-! ### Views, the parts of components and sockets that an invariant depends on -/

/-- A changed value has the same view as before if the change does not touch the view. -/
theorem map_changed {α β : Type} {view : α → β} {change : α → α} (same : ∀ value, view (change value) = view value)
    (condition : Prop) [Decidable condition] (value : Option α) :
    (if condition then value.map change else value).map view = value.map view := by
  split
  · cases value with
    | none => rfl
    | some value => exact congrArg some (same value)
  · rfl

/-- A lookup after a change that keeps a view answers what is found before, up to the view. -/
theorem exists_of_map_eq {α β : Type} {view : α → β} {later before : Option α}
    (same : later.map view = before.map view) {value : α} (found : later = some value) :
    ∃ old, before = some old ∧ view value = view old := by
  rw [found] at same
  obtain ⟨old, oldFound, equal⟩ := Option.map_eq_some_iff.mp same.symm
  exact ⟨old, oldFound, equal.symm⟩

section Views

variable {α : Type} (graph : Graph)

/-- The lists of connections are the only part of a socket that entries touch. -/
theorem view_setList {view : Socket → α}
    (ignores : ∀ socket incoming outgoing, view { socket with incoming, outgoing } = view socket)
    (entry : LinkEntry) (connections : List Connection) (socket : Socket) :
    view (entry.setList connections socket) = view socket := by
  unfold LinkEntry.setList
  split
  · exact ignores socket connections socket.outgoing
  · exact ignores socket socket.incoming connections

theorem view_withEntry {view : Socket → α}
    (ignores : ∀ socket incoming outgoing, view { socket with incoming, outgoing } = view socket)
    (entry : LinkEntry) (id : SocketId) :
    ((graph.withEntry entry).socket? id).map view = (graph.socket? id).map view := by
  rw [socket?_withEntry]
  exact map_changed (fun socket => view_setList ignores entry _ socket) _ _

theorem view_withoutEntry {view : Socket → α}
    (ignores : ∀ socket incoming outgoing, view { socket with incoming, outgoing } = view socket)
    (entry : LinkEntry) (id : SocketId) :
    ((graph.withoutEntry entry).socket? id).map view = (graph.socket? id).map view := by
  rw [socket?_withoutEntry]
  exact map_changed (fun socket => view_setList ignores entry _ socket) _ _

theorem view_withLink {view : Socket → α}
    (ignores : ∀ socket incoming outgoing, view { socket with incoming, outgoing } = view socket)
    (source target id : SocketId) :
    ((graph.withLink source target).socket? id).map view = (graph.socket? id).map view :=
  (view_withEntry _ ignores _ id).trans (view_withEntry graph ignores _ id)

theorem view_withoutLink {view : Socket → α}
    (ignores : ∀ socket incoming outgoing, view { socket with incoming, outgoing } = view socket)
    (source target id : SocketId) :
    ((graph.withoutLink source target).socket? id).map view = (graph.socket? id).map view :=
  (view_withoutEntry _ ignores _ id).trans (view_withoutEntry graph ignores _ id)

theorem view_withComputation {view : Socket → α}
    (ignores : ∀ socket incoming outgoing, view { socket with incoming, outgoing } = view socket)
    (computation : Computation) (id : SocketId) :
    ((graph.withComputation computation).socket? id).map view = (graph.socket? id).map view := by
  rw [socket?_withComputation]
  cases graph.socket? id with
  | none => rfl
  | some socket => exact congrArg some (ignores socket _ _)

theorem componentView_withComputation {view : Component → α}
    (ignores : ∀ node computations sources, view { node with computations, sources } = view node)
    (computation : Computation) (id : ComponentId) :
    ((graph.withComputation computation).component? id).map view = (graph.component? id).map view := by
  rw [component?_withComputation]
  exact map_changed (fun node => ignores node _ _) _ _

theorem componentView_withChild {view : Component → α}
    (ignores : ∀ node added parent children, view { node with added, parent, children } = view node)
    (parent child : ComponentId) (name : String) (id : ComponentId) :
    ((graph.withChild parent child name).component? id).map view = (graph.component? id).map view := by
  unfold withChild
  rw [component?_changeComponent]
  refine (map_changed (fun node => ignores node node.added node.parent _) _ _).trans ?_
  rw [component?_changeComponent]
  exact map_changed (fun node => ignores node _ _ node.children) _ _

theorem componentView_changeComponent {view : Component → α} (id : ComponentId)
    (change : Component → Component) (same : ∀ node, view (change node) = view node) (other : ComponentId) :
    ((graph.changeComponent id change).component? other).map view = (graph.component? other).map view := by
  rw [component?_changeComponent]
  exact map_changed same _ _

variable {graph}

theorem componentView_of_wiring {view : Component → α} (ignores : ∀ node, view node.wiring = view node)
    {final : Graph} (same : final.wiring = graph.wiring) (id : ComponentId) :
    (final.component? id).map view = (graph.component? id).map view := by
  have wirings : (final.component? id).map Component.wiring = (graph.component? id).map Component.wiring := by
    rw [← component?_wiring, ← component?_wiring, same]
  have views (node : Option Component) : node.map view = (node.map Component.wiring).map view := by
    cases node with
    | none => rfl
    | some node => exact congrArg some (ignores node).symm
  rw [views, wirings, ← views]

theorem view_of_wiring {view : Socket → α} (ignores : ∀ socket, view socket.wiring = view socket)
    {final : Graph} (same : final.wiring = graph.wiring) (id : SocketId) :
    (final.socket? id).map view = (graph.socket? id).map view := by
  have wirings : (final.socket? id).map Socket.wiring = (graph.socket? id).map Socket.wiring := by
    rw [← socket?_wiring, ← socket?_wiring, same]
  have views (socket : Option Socket) : socket.map view = (socket.map Socket.wiring).map view := by
    cases socket with
    | none => rfl
    | some socket => exact congrArg some (ignores socket).symm
  rw [views, wirings, ← views]

theorem computation?_of_wiring {final : Graph} (same : final.wiring = graph.wiring) (id : ComputationId) :
    final.computation? id = graph.computation? id := by
  rw [← computation?_wiring, same, computation?_wiring]

end Views

/-! ### Variables -/

/-- What a component has registered, nothing if there is no such component. -/
def registryOf (graph : Graph) (id : ComponentId) : Keyed VariableValue :=
  ((graph.component? id).map Component.registry).getD []

/-- What is stored and what is registered is the same. -/
structure SameVariables (before later : Graph) : Prop where
  backend : later.backend = before.backend
  registries : later.registryOf = before.registryOf

theorem registryOf_eq {graph : Graph} {id : ComponentId} {node : Component}
    (found : graph.component? id = some node) : graph.registryOf id = node.registry := by
  rw [registryOf, found]
  rfl

theorem registryOf_changeComponent {graph : Graph} {id : ComponentId} {node : Component}
    (found : graph.component? id = some node) (change : Component → Component) :
    (graph.changeComponent id change).registryOf = Function.update graph.registryOf id (change node).registry :=
  view_changeComponent Component.registry [] found change

theorem SameVariables.changeComponent (graph : Graph) (id : ComponentId) {change : Component → Component}
    (registry : ∀ node, (change node).registry = node.registry) :
    SameVariables graph (graph.changeComponent id change) :=
  ⟨rfl, funext fun other => congrArg (Option.getD · []) (componentView_changeComponent graph id change registry other)⟩

end Graph

end Wiring
