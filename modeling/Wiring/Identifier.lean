/-!
Contract: the identifiers of components, sockets, computations and recorded ops. Each is a position in the
order of creation.
-/

namespace Wiring

structure ComponentId where
  index : Nat
deriving DecidableEq, Repr, Inhabited

structure SocketId where
  index : Nat
deriving DecidableEq, Repr, Inhabited

structure ComputationId where
  index : Nat
deriving DecidableEq, Repr, Inhabited

structure OpId where
  index : Nat
deriving DecidableEq, Repr, Inhabited

def ComponentId.describe (id : ComponentId) : String :=
  "ComponentId#" ++ toString id.index

def SocketId.describe (id : SocketId) : String :=
  "SocketId#" ++ toString id.index

end Wiring
