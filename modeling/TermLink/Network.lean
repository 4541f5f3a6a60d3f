/-!
# Networks

Whether a machine can reach another at all, and what is said where it cannot.
-/

namespace TermLink

/-- What the network of a machine leads to. -/
inductive Network where
  /-- Every address that listens can be reached. -/
  | routed
  /-- There is no route to any address. -/
  | unrouted
  deriving DecidableEq, Repr

namespace Network

/-- Why nothing can be reached. -/
inductive Failure where
  | unreachable
  deriving DecidableEq, Repr

/-- The words for a failure. -/
def Failure.message : Failure → String
  | .unreachable => "Network is unreachable (os error 101)"

/-- The words for a failure to open a WebSocket. -/
def Failure.webSocketMessage (f : Failure) : String := "IO error: " ++ f.message

/-- Tries to reach an address that listens. -/
def dial : Network → Except Failure Unit
  | .routed => .ok ()
  | .unrouted => .error .unreachable

end Network
end TermLink
