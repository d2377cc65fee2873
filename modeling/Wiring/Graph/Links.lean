import Wiring.Graph.Sockets

/-!
Contract: connecting and disconnecting.

A connection between two ends is one or two entries of connection lists. `planLink` decides from the ends
which entries these are, or why there can be none; connecting appends them and disconnecting removes the
first entry equal to each. A link between sockets is only removed if both of its entries are there.
-/

namespace Wiring.Graph

/-- An end of a connection after lookup. -/
inductive Terminal where
  | space (space : Space)
  | socket (id : SocketId)

def terminal (graph : Graph) (viewer : ComponentId) (side : Side) : Endpoint → Except Error Terminal
  | .space space => .ok (.space space)
  | .spec spec =>
      match Space.ofSpec spec with
      | .ok space => .ok (.space space)
      | .error fault => .error (.ofSpecFault fault)
  | .component id => .socket <$> graph.resolve id .only (some side)
  | .socket ref => .socket <$> graph.resolve viewer ref none

/-- An entry of one of the two connection lists of a socket. -/
structure LinkEntry where
  socket : SocketId
  incoming : Bool
  connection : Connection

/-- The entries that connect two ends. -/
def planLink (graph : Graph) (viewer : ComponentId) (source target : Endpoint) :
    Except Error (List LinkEntry) := do
  let source ← graph.terminal viewer .output source
  let target ← graph.terminal viewer .input target
  match source, target with
  | .space _, .space _ => throw .spaceToSpace
  | .space space, .socket id =>
      let socket ← graph.heldSocket id
      if socket.side = .input then return [⟨id, true, .space space⟩]
      else throw (.spaceIntoOutSocket space socket.name)
  | .socket id, .space space =>
      let socket ← graph.heldSocket id
      if socket.side = .output then return [⟨id, false, .space space⟩]
      else throw (.inSocketIntoSpace socket.name space)
  | .socket first, .socket second =>
      let firstSocket ← graph.heldSocket first
      let secondSocket ← graph.heldSocket second
      if firstSocket.owner = secondSocket.owner then
        let owner ← graph.heldComponent firstSocket.owner
        throw (.sameComponent firstSocket.name secondSocket.name owner.name)
      return [⟨first, false, .socket second⟩, ⟨second, true, .socket first⟩]

/-- The connection list that an entry belongs to. -/
def LinkEntry.listOf (entry : LinkEntry) (socket : Socket) : List Connection :=
  if entry.incoming then socket.incoming else socket.outgoing

def LinkEntry.setList (entry : LinkEntry) (connections : List Connection) (socket : Socket) : Socket :=
  if entry.incoming then { socket with incoming := connections }
  else { socket with outgoing := connections }

def append (entry : LinkEntry) : GraphM Unit :=
  editSocket entry.socket fun socket =>
    entry.setList (entry.listOf socket ++ [entry.connection]) socket

/-- Removes the first connection equal to the given one. -/
def eraseFirst (connection : Connection) : List Connection → List Connection
  | [] => []
  | other :: rest => if other.same connection then rest else other :: eraseFirst connection rest

def remove (entry : LinkEntry) : GraphM Unit := do
  let socket ← query (·.heldSocket entry.socket)
  if (entry.listOf socket).any fun other => other.same entry.connection then
    editSocket entry.socket fun socket =>
      entry.setList (eraseFirst entry.connection (entry.listOf socket)) socket
  else throw (.noSuchConnection socket.name entry.connection)

def connect (viewer : ComponentId) (source target : Endpoint) : GraphM Unit := do
  let entries ← query (·.planLink viewer source target)
  entries.forM append

/-- Fails unless both entries of a link between sockets are there. -/
def checkLinked (graph : Graph) (entries : List LinkEntry) : Except Error Unit := do
  match entries with
  | [first, second] =>
      let firstSocket ← graph.heldSocket first.socket
      let secondSocket ← graph.heldSocket second.socket
      let linked := (first.listOf firstSocket).any (·.same first.connection) &&
        (second.listOf secondSocket).any (·.same second.connection)
      if !linked then throw (.notConnected firstSocket.name secondSocket.name)
  | _ => return

def disconnect (viewer : ComponentId) (source target : Endpoint) : GraphM Unit := do
  let entries ← query (·.planLink viewer source target)
  query (·.checkLinked entries)
  entries.forM remove

/-- Adds in-sockets and binds a space to each of them. -/
def defineInputs (owner : ComponentId) (names : List String) (space : Option Space) :
    GraphM (List SocketId) := do
  let ids ← addSockets owner names (some .input) false
  match space with
  | none => return ids
  | some space => do
      ids.forM fun id => connect owner (.space space) (.socket (.id id))
      return ids

def defineOutputs (owner : ComponentId) (names : List String) : GraphM (List SocketId) :=
  addSockets owner names (some .output) false

end Wiring.Graph
