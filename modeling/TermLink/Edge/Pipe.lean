import TermLink.Frame
import TermLink.Message.Wire
import TermLink.Network
import TermLink.SessionInfo

/-!
# Pipes

In stream mode an edge opens a stream of the host for a session, asks for the terminal, and from
then on passes the frames of each side on to the other as they are. It looks into a frame only to
see whether the host has said `exit`, after which nothing more can come.
-/

namespace TermLink.Edge

/-- What becomes of a dial to the host. -/
inductive HostDial where
  | failed (detail : String)
  | timedOut
  /-- The stream was opened, and lost before the first message was sent. -/
  | lost
  | opened
  deriving DecidableEq, Repr

namespace HostDial

/-- What becomes of a dial over a network, where `answer` is what a host that is reached makes of
it. -/
def across (network : Network) (answer : HostDial) : HostDial :=
  match network.dial with
  | .ok () => answer
  | .error e => .failed e.webSocketMessage

/-- What the gate is told where there is no stream. -/
def notice? : HostDial → Option String
  | .failed detail => some ("Failed to connect to container: bridge dial failed: " ++ detail)
  | .timedOut => some "Failed to connect to container: bridge dial timed out"
  | .lost => some "Failed to initialize container"
  | .opened => none

end HostDial

/-- The connection of a gate with a host. -/
structure Pipe where
  isOpen : Bool
  /-- The frames sent to the host, oldest first. -/
  toHost : List Frame := []
  /-- The frames sent to the gate, oldest first. -/
  toGate : List Frame := []
  deriving DecidableEq, Repr

namespace Pipe

/-- The frame of a message. -/
def frameOf (m : Message) : Frame := .text m.encode

/-- The pipe that a dial makes. Where there is no stream, the gate is told so and the connection
closed. -/
def start (s : SessionInfo) (d : HostDial) : Pipe :=
  match d.notice? with
  | some notice => { isOpen := false, toGate := [frameOf (.error notice), .close] }
  | none => { isOpen := true, toHost := [frameOf s.request] }

/-- Closes both sides. -/
def shut (p : Pipe) : Pipe :=
  { isOpen := false, toHost := p.toHost ++ [.close], toGate := p.toGate ++ [.close] }

/-- Sends a frame to the host. -/
def sendHost (p : Pipe) (f : Frame) : Pipe := { p with toHost := p.toHost ++ [f] }

/-- Sends a frame to the gate. -/
def sendGate (p : Pipe) (f : Frame) : Pipe := { p with toGate := p.toGate ++ [f] }

/-- Takes a frame of the gate. -/
def fromGate (p : Pipe) (f : Frame) : Pipe :=
  if p.isOpen then
    match f with
    | .text _ | .binary _ => p.sendHost f
    | .signal => p
    | .close => p.shut
  else p

/-- Whether a frame's payload is an `exit`. -/
def saysExit (payload : Bytes) : Bool :=
  match Message.decode? payload with
  | some (.exit _) => true
  | _ => false

/-- Takes a frame of the host. An `exit` in a text frame is the last that is passed on. -/
def fromHost (p : Pipe) (f : Frame) : Pipe :=
  if p.isOpen then
    match f with
    | .text payload => if saysExit payload then (p.sendGate f).shut else p.sendGate f
    | .binary _ => p.sendGate f
    | .signal => p
    | .close => p.shut
  else p

/-- What can happen to a pipe. -/
inductive Event where
  | fromGate (f : Frame)
  | fromHost (f : Frame)
  deriving DecidableEq, Repr

/-- The pipe after an event. -/
def step (p : Pipe) : Event → Pipe
  | .fromGate f => p.fromGate f
  | .fromHost f => p.fromHost f

/-- The pipe after events in order. -/
def run (p : Pipe) (events : List Event) : Pipe := events.foldl step p

end Pipe
end TermLink.Edge
