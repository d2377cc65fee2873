import Mathlib.Logic.Function.Basic
import Wiring.Proofs.Build.Keeps

/-!
Contract: what a build keeps track of, and how each task changes it.

Owns: `Book`, which reads the logs of a build and the marks that it leaves in the graph as functions of sockets
and components; `Step`, with one case for each way in which a task can succeed; and `Move`, one task done or one
arrival served.

The wiring of the graph stays the same during a build, so a step refers to the graph as it was at the beginning.

Does not own: that a build follows these steps.
-/

namespace Wiring

/-- A method that ran. -/
structure Firing where
  computation : ComputationId
  inputs : List DataOp
  outputs : List DataOp

def Firing.key (firing : Firing) : ComputationId × List OpId :=
  (firing.computation, firing.inputs.map DataOp.id)

def Event.fired? : Event → Option (ComputationId × List OpId)
  | .fired computation inputs => some (computation, inputs)
  | _ => none

/-- The firings that a trace tells of, in order. -/
def firedEvents (trace : Array Event) : List (ComputationId × List OpId) :=
  trace.toList.filterMap Event.fired?

namespace Build

/-- An op that was put on a socket for a space that is bound to it. -/
structure Placeholder where
  component : ComponentId
  socket : SocketId
  op : DataOp

/-- What has happened in a build, in order. -/
structure Account where
  placeholders : List Placeholder := []
  firings : List Firing := []

def Account.place (account : Account) (placeholder : Placeholder) : Account :=
  { account with placeholders := account.placeholders ++ [placeholder] }

def Account.fire (account : Account) (firing : Firing) : Account :=
  { account with firings := account.firings ++ [firing] }

structure Book where
  account : Account
  log : OpLog
  arrivals : List Arrival
  served : Nat
  fired : List (ComputationId × List OpId)
  /-- All firings in the trace of the session, also those of earlier builds. -/
  history : List (ComputationId × List OpId)
  space : SocketId → Option Space
  complete : ComponentId → Bool
  deferred : ComponentId → List SocketId

namespace Book

def opsAt (book : Book) (socket : SocketId) : List DataOp :=
  (book.arrivals.filter fun arrival => arrival.socket = socket).map Arrival.op

def arrive (book : Book) (socket : SocketId) (op : DataOp) : Book :=
  { book with arrivals := book.arrivals ++ [⟨socket, op⟩] }

/-- The first op gives a socket its space. -/
def resolve (book : Book) (socket : SocketId) (space : Space) : Book :=
  { book with space := Function.update book.space socket (some space) }

def completeAt (book : Book) (id : ComponentId) : Book :=
  { book with complete := Function.update book.complete id true
              deferred := Function.update book.deferred id [] }

def deferAt (book : Book) (id : ComponentId) (socket : SocketId) : Book :=
  { book with deferred := Function.update book.deferred id (book.deferred id ++ [socket]) }

/-- A firing with the log that its method left. -/
def fire (book : Book) (firing : Firing) (log : OpLog) : Book :=
  { book with
    account := book.account.fire firing
    log
    fired := firing.key :: book.fired
    history := book.history ++ [firing.key] }

end Book

/-- The record of a placeholder. -/
def placeholder (id : ComponentId) (space : Space) : OpRecord :=
  { label := "placeholder", component := some id, inputs := [], space }

/-- The next op is a placeholder. -/
def Book.place (book : Book) (id : ComponentId) (socket : SocketId) (space : Space) : Book :=
  { book with
    account := book.account.place ⟨id, socket, ⟨⟨book.log.size⟩, space⟩⟩
    log := (book.log.push (placeholder id space)).2 }

/-- The method of the computation ran on the inputs from the first log to the second. -/
def Fires (graph : Graph) (before : OpLog) (firing : Firing) (later : OpLog) : Prop :=
  ∃ computation node method registry calls more,
    graph.computation? firing.computation = some computation ∧
    graph.component? computation.owner = some node ∧ node.method? computation.method = some method ∧
    method.apply computation.settings (contextOf graph computation.owner { node with registry }) firing.inputs
      { log := before, calls } = .ok (firing.outputs, { log := later, calls := more })

/-- How a task of a build changes the book, and the tasks that it gives rise to. -/
inductive Step (graph : Graph) : Task → Book → List Task → Book → Prop where
  | seed (id : ComponentId) (node : Component) (book : Book) (found : graph.component? id = some node) :
      Step graph (.seed id) book (node.sockets.map (.seedSocket id)) book
  | seedSocket (id : ComponentId) (socket : SocketId) (held : Socket) (book : Book)
      (found : graph.socket? socket = some held) :
      Step graph (.seedSocket id socket) book ((spaceEntries held.incoming).map (.place id socket)) book
  | place (id : ComponentId) (socket : SocketId) (space : Space) (book : Book) :
      Step graph (.place id socket space) book [.deliver socket ⟨⟨book.log.size⟩, space⟩]
        (book.place id socket space)
  /-- The socket has the op. -/
  | known (socket : SocketId) (op other : DataOp) (book : Book) (member : other ∈ book.opsAt socket)
      (same : other.id = op.id) : Step graph (.deliver socket op) book [] book
  | further (socket : SocketId) (op : DataOp) (held : Socket) (space : Space) (book : Book)
      (fresh : ∀ other ∈ book.opsAt socket, other.id ≠ op.id) (found : graph.socket? socket = some held)
      (resolved : book.space socket = some space) :
      Step graph (.deliver socket op) book [] (book.arrive socket op)
  | first (socket : SocketId) (op : DataOp) (held : Socket) (book : Book)
      (fresh : ∀ other ∈ book.opsAt socket, other.id ≠ op.id) (found : graph.socket? socket = some held)
      (unresolved : book.space socket = none) :
      Step graph (.deliver socket op) book (if held.isInterfaceInput then [.check held.owner] else [])
        ((book.arrive socket op).resolve socket op.space)
  | checked (id : ComponentId) (book : Book) (complete : book.complete id = true) :
      Step graph (.check id) book [] book
  | unready (id : ComponentId) (node : Component) (input : SocketId) (book : Book)
      (found : graph.component? id = some node) (incomplete : book.complete id = false)
      (member : input ∈ node.inputs) (unresolved : book.space input = none) :
      Step graph (.check id) book [] book
  | completes (id : ComponentId) (node : Component) (book : Book) (found : graph.component? id = some node)
      (incomplete : book.complete id = false) (resolved : ∀ input ∈ node.inputs, (book.space input).isSome) :
      Step graph (.check id) book ((book.deferred id).map .wake ++ [.fireSources id]) (book.completeAt id)
  | link (socket : SocketId) (op : DataOp) (target : SocketId) (book : Book) :
      Step graph (.forward socket op (.socket target)) book [.deliver target op] book
  | bound (socket : SocketId) (op : DataOp) (space : Space) (book : Book) :
      Step graph (.forward socket op (.space space)) book [] book
  | ready (socket : SocketId) (op : DataOp) (id : ComputationId) (computation : Computation) (book : Book)
      (found : graph.computation? id = some computation) (complete : book.complete computation.owner = true) :
      Step graph (.forward socket op (.computation id)) book [.fire id] book
  | waiting (socket : SocketId) (op : DataOp) (id : ComputationId) (computation : Computation) (book : Book)
      (found : graph.computation? id = some computation) (incomplete : book.complete computation.owner = false)
      (waits : socket ∈ book.deferred computation.owner) :
      Step graph (.forward socket op (.computation id)) book [] book
  | defer (socket : SocketId) (op : DataOp) (id : ComputationId) (computation : Computation) (book : Book)
      (found : graph.computation? id = some computation) (incomplete : book.complete computation.owner = false)
      (fresh : socket ∉ book.deferred computation.owner) :
      Step graph (.forward socket op (.computation id)) book [] (book.deferAt computation.owner socket)
  | wake (socket : SocketId) (held : Socket) (book : Book) (found : graph.socket? socket = some held) :
      Step graph (.wake socket) book ((computationEntries held.outgoing).map .fire) book
  | fireSources (id : ComponentId) (node : Component) (book : Book) (found : graph.component? id = some node) :
      Step graph (.fireSources id) book (node.sources.map .fire) book
  | fire (id : ComputationId) (computation : Computation) (book : Book)
      (found : graph.computation? id = some computation) :
      Step graph (.fire id) book ((combinations (computation.inputs.map book.opsAt)).map (.fireWith id)) book
  | repeated (id : ComputationId) (inputs : List DataOp) (book : Book)
      (known : (id, inputs.map DataOp.id) ∈ book.fired) : Step graph (.fireWith id inputs) book [] book
  | fires (firing : Firing) (computation : Computation) (book : Book) (log : OpLog)
      (fresh : firing.key ∉ book.fired) (found : graph.computation? firing.computation = some computation)
      (ran : Fires graph book.log firing log) :
      Step graph (.fireWith firing.computation firing.inputs) book
        ((computation.outputs.zip firing.outputs).map fun output => .deliver output.1 output.2)
        (book.fire firing log)

/-- One task done, or one arrival served where no task waits. -/
inductive Move (graph : Graph) : List Task × Book → List Task × Book → Prop where
  | task (task : Task) (waiting more : List Task) (book final : Book) (step : Step graph task book more final) :
      Move graph (task :: waiting, book) (more ++ waiting, final)
  | serve (arrival : Arrival) (held : Socket) (book : Book)
      (next : book.arrivals[book.served]? = some arrival) (found : graph.socket? arrival.socket = some held) :
      Move graph ([], book)
        (held.outgoing.map (.forward arrival.socket arrival.op), { book with served := book.served + 1 })

/-- The moves of a build that is done. -/
def Finishes (graph : Graph) (tasks : List Task) (book final : Book) : Prop :=
  Relation.ReflTransGen (Move graph) (tasks, book) ([], final) ∧ final.arrivals.length ≤ final.served

end Build

end Wiring
