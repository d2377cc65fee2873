import Wiring.Session

/-!
Contract: builds, which push ops through a graph.

A build starts with a placeholder for every space that is bound to a socket of the subtree, and passes ops on
along links and through computations. A socket takes the space of its first op. A component is complete once
all of its in-sockets have a space: then its hook runs, unless it has run before, and its computations may
fire, once for every combination of input ops.

The work is a list of tasks, done from the front; what a task gives rise to comes before everything that was
waiting. When no task is left, the next arrival that has not been served is passed on. A build that is done
has served every arrival.
-/

namespace Wiring

/-- An op at a socket. -/
structure Arrival where
  socket : SocketId
  op : DataOp
deriving Inhabited

inductive Task where
  /-- Put placeholders on the sockets of a component. -/
  | seed (component : ComponentId)
  /-- Put placeholders on one socket. -/
  | seedSocket (component : ComponentId) (socket : SocketId)
  | place (component : ComponentId) (socket : SocketId) (space : Space)
  /-- An op arrives at a socket. -/
  | deliver (socket : SocketId) (op : DataOp)
  /-- Completes a component whose in-sockets all have a space. -/
  | check (component : ComponentId)
  /-- Passes an op of a socket on over one connection. -/
  | forward (socket : SocketId) (op : DataOp) (connection : Connection)
  /-- Fires the computations that read a socket. -/
  | wake (socket : SocketId)
  /-- Fires the computations without inputs. -/
  | fireSources (component : ComponentId)
  /-- Fires a computation for all combinations of its inputs. -/
  | fire (computation : ComputationId)
  | fireWith (computation : ComputationId) (inputs : List DataOp)

structure BuildState where
  session : Session
  log : OpLog := {}
  /-- Every op that reached a socket, in order of arrival; no op arrives twice at one socket. -/
  arrivals : Array Arrival := #[]
  /-- How many arrivals have been passed on. -/
  served : Nat := 0
  /-- The firings that took place. -/
  fired : List (ComputationId × List OpId) := []
  completed : Array ComponentId := #[]

abbrev BuildM := ExceptT Stop (StateM BuildState)

namespace Build

def ofSession (step : SessionM α) : BuildM α :=
  ExceptT.mk fun state =>
    let (result, session) := step.run state.session
    (result, { state with session })

def ofGraph (step : GraphM α) : BuildM α :=
  ofSession (Session.ofGraph step)

def ask (question : Graph → Except Error α) : BuildM α :=
  ofGraph (query question)

/-- The ops that reached a socket, in order of arrival. -/
def opsAt (arrivals : Array Arrival) (socket : SocketId) : List DataOp :=
  (arrivals.toList.filter fun arrival => arrival.socket = socket).map Arrival.op

/-- The combinations of one op from each list, the last list moving fastest. -/
def combinations : List (List DataOp) → List (List DataOp)
  | [] => [[]]
  | ops :: rest => ops.flatMap fun op => (combinations rest).map (op :: ·)

/-! ### Tasks -/

/-- Sends an op to a socket, which ignores an op that it has. -/
def deliver (socket : SocketId) (op : DataOp) : BuildM (List Task) := do
  let state ← get
  if (opsAt state.arrivals socket).any fun known => known.id = op.id then return []
  let target ← ask (·.heldSocket socket)
  set { state with arrivals := state.arrivals.push ⟨socket, op⟩ }
  if target.space.isSome then return []
  ofGraph (Graph.editSocket socket fun target => { target with space := some op.space })
  if target.isInterfaceInput then return [.check target.owner] else return []

/-- The spaces of the in-sockets by name, if all of them are known. -/
def inputSpaces? (graph : Graph) : List SocketId → Except Error (Option (List (String × Space)))
  | [] => .ok (some [])
  | id :: rest => do
      let socket ← graph.heldSocket id
      match socket.space with
      | none => return none
      | some space => return (← inputSpaces? graph rest).map ((socket.name, space) :: ·)

/-- Runs the hook of a component that has become complete, unless that is done. -/
def runHook (hooks : HookRunner) (id : ComponentId) (component : Component) (spaces : Keyed Space) :
    BuildM Unit :=
  match component.hook with
  | some hook =>
      if component.hookDone then return ()
      else ofSession do
        Session.record (.hookStarted id hook spaces)
        hooks hook id spaces
        Session.record (.hookFinished id)
  | none => return ()

def check (hooks : HookRunner) (id : ComponentId) : BuildM (List Task) := do
  let component ← ask (·.heldComponent id)
  if component.complete then return []
  match ← ask fun graph => inputSpaces? graph component.inputs with
  | none => return []
  | some spaces => do
      ofGraph (Graph.editComponent id fun component => { component with complete := true })
      modify fun state => { state with completed := state.completed.push id }
      runHook hooks id component (Keyed.ofList spaces)
      let waiting ← ask (·.heldComponent id)
      ofGraph (Graph.editComponent id fun component => { component with hookDone := true, deferred := [] })
      return waiting.deferred.map .wake ++ [.fireSources id]

/-- Passes an op on; a computation of an incomplete component waits. -/
def forward (socket : SocketId) (op : DataOp) : Connection → BuildM (List Task)
  | .socket target => return [.deliver target op]
  | .space _ => return []
  | .computation id => do
      let computation ← ask (·.heldComputation id)
      let owner ← ask (·.heldComponent computation.owner)
      if owner.complete then return [.fire id]
      if socket ∈ owner.deferred then return []
      ofGraph (Graph.editComponent computation.owner fun component =>
        { component with deferred := component.deferred ++ [socket] })
      return []

/-- What a running computation can see. -/
def contextOf (graph : Graph) (owner : ComponentId) (component : Component) : MethodContext where
  component := owner
  componentName := component.name
  registry := component.registry
  key := none
  backend := graph.backend.kind

/-- Runs a method, which may record ops. -/
def runMethod (run : Recording α) : BuildM α := do
  let state ← get
  match run { log := state.log, calls := state.session.calls } with
  | .ok (returned, recorder) =>
      set { state with log := recorder.log, session := { state.session with calls := recorder.calls } }
      return returned
  | .error error => throw (.failed error)

/-- Fires a computation on one combination of ops, unless it has fired on them. -/
def fireWith (id : ComputationId) (inputs : List DataOp) : BuildM (List Task) := do
  let state ← get
  let firing := (id, inputs.map DataOp.id)
  if firing ∈ state.fired then return []
  set { state with fired := firing :: state.fired }
  ofSession (Session.record (.fired id firing.2))
  let graph := state.session.graph
  let computation ← ask (·.heldComputation id)
  let owner ← ask (·.heldComponent computation.owner)
  match owner.method? computation.method with
  | none => throw (.failed (.methodMissing computation.method owner.name))
  | some method => do
      let context := contextOf graph computation.owner owner
      let outputs ← runMethod (method.apply computation.settings context inputs)
      return (computation.outputs.zip outputs).map fun output => .deliver output.1 output.2

/-- Does one task; the answer is the tasks that it gives rise to. -/
def perform (hooks : HookRunner) : Task → BuildM (List Task)
  | .seed id => do
      let component ← ask (·.heldComponent id)
      return component.sockets.map (.seedSocket id)
  | .seedSocket id socket => do
      let target ← ask (·.heldSocket socket)
      return (target.incoming.filterMap Connection.asSpace?).map (.place id socket)
  | .place id socket space => do
      let state ← get
      let (op, log) := state.log.push { label := "placeholder", component := some id, inputs := [], space }
      set { state with log }
      return [.deliver socket op]
  | .deliver socket op => deliver socket op
  | .check id => check hooks id
  | .forward socket op connection => forward socket op connection
  | .wake socket => do
      let target ← ask (·.heldSocket socket)
      return (target.outgoing.filterMap Connection.asComputation?).map .fire
  | .fireSources id => do
      let component ← ask (·.heldComponent id)
      return component.sources.map .fire
  | .fire id => do
      let computation ← ask (·.heldComputation id)
      let state ← get
      return (combinations (computation.inputs.map (opsAt state.arrivals))).map (.fireWith id)
  | .fireWith id inputs => fireWith id inputs

/-- Passes on the next arrival over all connections of its socket; there is nothing left if the answer is
`none`. -/
def serve : BuildM (Option (List Task)) := do
  let state ← get
  match state.arrivals[state.served]? with
  | none => return none
  | some arrival => do
      set { state with served := state.served + 1 }
      let source ← ask (·.heldSocket arrival.socket)
      return some (source.outgoing.map (.forward arrival.socket arrival.op))

/-- Works until nothing is left to do. Every unit of fuel pays for one task or one arrival. -/
def work (hooks : HookRunner) : Nat → List Task → BuildM Unit
  | 0, _ => throw .exhausted
  | fuel + 1, [] => do
      match ← serve with
      | none => return ()
      | some tasks => work hooks fuel tasks
  | fuel + 1, task :: waiting => do
      let tasks ← perform hooks task
      work hooks fuel (tasks ++ waiting)

/-! ### The build of a subtree -/

/-- What a build reports. -/
structure Report where
  log : OpLog
  arrivals : Array Arrival
  /-- Components in the order in which they became complete. -/
  completed : List ComponentId
  incomplete : List ComponentId

/-- The ops at a socket, in order of arrival. -/
def Report.opsAt (report : Report) (socket : SocketId) : List DataOp :=
  Build.opsAt report.arrivals socket

/-- The space of a socket is the space of its first op. -/
def Report.spaceOf? (report : Report) (socket : SocketId) : Option Space :=
  (report.opsAt socket).head?.map DataOp.space

/-- Clears what the last build left at a component and its sockets. -/
def reset (id : ComponentId) : GraphM Unit := do
  let component ← query (·.heldComponent id)
  component.sockets.forM fun socket => Graph.editSocket socket fun socket => { socket with space := none }
  Graph.editComponent id fun component => { component with complete := false, deferred := [] }

/-- Builds the subtree of a component with the given way to run hooks. -/
def run (hooks : HookRunner) (fuel : Nat) (root : ComponentId) (config : BuildConfig) : SessionM Report := do
  modify fun session => { session with calls := 0 }
  Session.record (.buildStarted root)
  let members ← Session.ofGraph (query (·.subtree root))
  Session.ofGraph (members.forM reset)
  let session ← get
  let (result, state) := (work hooks fuel (members.map .seed ++ members.map .check)).run { session }
  set state.session
  match result with
  | .error stop => throw stop
  | .ok () => do
      let states ← Session.ofGraph (query fun graph => members.mapM graph.heldComponent)
      let incomplete := (members.zip states).filter fun member => !member.2.complete
      if !incomplete.isEmpty && !config.allowIncomplete then
        Session.fail (.incompleteBuild (incomplete.map fun member => member.2.name))
      return {
        log := state.log
        arrivals := state.arrivals
        completed := state.completed.toList
        incomplete := incomplete.map Prod.fst }

end Build

end Wiring
