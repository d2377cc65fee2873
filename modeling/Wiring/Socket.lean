import Wiring.Identifier
import Wiring.Side
import Wiring.Space.Text

/-!
Contract: sockets, the named ports of components, and the entries of their connection lists.

A socket remembers what feeds it and what it feeds, in the order in which the connections were made. An
internal socket is not part of the interface of its component.
-/

namespace Wiring

inductive Connection where
  | socket (id : SocketId)
  /-- A space bound to the socket. -/
  | space (space : Space)
  /-- A computation that reads from or writes to the socket. -/
  | computation (id : ComputationId)
deriving Inhabited

namespace Connection

/-- The comparison under which a connection is found again. -/
def same : Connection → Connection → Bool
  | .socket a, .socket b => a = b
  | .space a, .space b => a.same b
  | .computation a, .computation b => a = b
  | _, _ => false

def toTerm : Connection → Term
  | .socket id => .apply "Socket" [.apply "SocketId" [.nat id.index]]
  | .space bound => .apply "Space" [bound.toTerm]
  | .computation id => .apply "Computation" [.apply "ComputationId" [.nat id.index]]

def asSpace? : Connection → Option Space
  | .space bound => some bound
  | _ => none

def asComputation? : Connection → Option ComputationId
  | .computation id => some id
  | _ => none

end Connection

structure Socket where
  name : String
  side : Side
  internal : Bool
  owner : ComponentId
  incoming : List Connection := []
  outgoing : List Connection := []
  /-- The space that the last build found for the socket. -/
  space : Option Space := none
deriving Inhabited

/-- Whether the completeness of the component depends on the socket. -/
def Socket.isInterfaceInput (socket : Socket) : Bool :=
  socket.side = .input && !socket.internal

end Wiring
