import TermLink.Bytes

/-!
# Frames

What arrives on a WebSocket.
-/

namespace TermLink

/-- What arrives on a connection, in the order in which the peer sent it. -/
inductive Frame where
  | text (payload : Bytes)
  | binary (payload : Bytes)
  /-- A sign of life that carries nothing for the receiver. -/
  | signal
  /-- The peer has closed the connection, or it was lost. -/
  | close
  deriving DecidableEq, Repr

namespace Frame

/-- The bytes that a frame carries, if it carries any. -/
def payload? : Frame → Option Bytes
  | .text payload => some payload
  | .binary payload => some payload
  | .signal => none
  | .close => none

end Frame
end TermLink
