import TermLink.Frame
import TermLink.Gate.Request
import TermLink.Message.Wire

/-!
# Streaming

A session that streams passes on what the client does to the backend, and what the backend says to
the client's screen.

## Implementation notes

Five duties run side by side. Three feed the outbound queue: the client's input, the changes of its
window, and the pings that keep the connection open. The writer alone sends what is queued; the
reader takes the backend's frames. When a duty ends it tells the others to end, through `ending`;
only the end of the client's input is no reason to. Each event is one step of one duty, so that
every order in which they may come is a list of events.
-/

namespace TermLink.Gate

/-- What a client has done that no duty has taken up yet. -/
structure ClientLine where
  /-- The chunks that were typed, oldest first. -/
  typed : List Bytes := []
  /-- Whether more can be typed. -/
  typing : Bool := true
  /-- The sizes that the window took, oldest first. -/
  windows : List Geometry := []
  /-- Whether the client is still there. -/
  connected : Bool := true
  deriving DecidableEq, Repr

/-- The duties of a session that streams. -/
inductive Duty where
  | input | windows | pings | writer | reader
  deriving DecidableEq, Repr

/-- A session that streams. -/
structure Streaming where
  line : ClientLine
  /-- The duties that have not ended. -/
  duties : List Duty
  /-- Whether a duty has told the others to end. -/
  ending : Bool := false
  /-- The messages that wait for the writer, oldest first. -/
  outbound : List Message := []
  /-- The messages sent to the backend, oldest first. -/
  sent : List Message
  screen : Screen
  /-- The code with which the backend has ended the session. -/
  exitCode : Option Int32 := none
  deriving DecidableEq, Repr

namespace Streaming

/-- The number of messages that may wait for the writer. -/
def outboundDepth : Nat := 256

/-- A session whose dial was opened. -/
def ofDial (backend : Backend) (dial : Dial) (line : ClientLine) (screen : Screen) :
    Streaming where
  line := line
  duties := [.input, .windows] ++ (if backend.pingMillis = 0 then [] else [.pings])
    ++ [.writer, .reader]
  sent := [dial.first]
  screen := screen

/-- Whether a duty has not ended. -/
def runs (s : Streaming) (d : Duty) : Bool := s.duties.contains d

/-- A duty ends. -/
def retire (s : Streaming) (d : Duty) : Streaming := { s with duties := s.duties.filter (· ≠ d) }

/-- A duty ends and tells the others to. -/
def stop (s : Streaming) (d : Duty) : Streaming := { s.retire d with ending := true }

/-- Whether input is still taken from the client. -/
def acceptsInput (s : Streaming) : Bool := s.line.typing && s.runs .input

/-- Whether changes of the window are still taken from the client. -/
def acceptsWindow (s : Streaming) : Bool := s.line.connected && s.runs .windows

/-- The client types a chunk. -/
def input (s : Streaming) (chunk : Bytes) : Streaming :=
  if s.acceptsInput then { s with line := { s.line with typed := s.line.typed ++ [chunk] } } else s

/-- The client's window takes a size. -/
def resize (s : Streaming) (size : Geometry) : Streaming :=
  if s.acceptsWindow then
    { s with line := { s.line with windows := s.line.windows ++ [size] } }
  else s

/-- The client's input ends. -/
def endInput (s : Streaming) : Streaming := { s with line := { s.line with typing := false } }

/-- The client leaves. -/
def leave (s : Streaming) : Streaming :=
  { s with line := { s.line with typing := false, connected := false } }

/-- Whether a duty has to wait until it can hand over a message. -/
def isFull (s : Streaming) : Bool := s.runs .writer && decide (outboundDepth ≤ s.outbound.length)

/-- A duty hands a message to the writer, and ends if there is no writer. -/
def hand (s : Streaming) (d : Duty) (m : Message) : Streaming :=
  if s.runs .writer then { s with outbound := s.outbound ++ [m] } else s.stop d

/-- The input duty hands over the oldest chunk, unless it has to wait. It ends quietly after the
last one. -/
def forwardInput (s : Streaming) : Streaming :=
  if s.runs .input then
    match s.line.typed with
    | chunk :: rest =>
      if s.isFull then s
      else { s with line := { s.line with typed := rest } }.hand .input (.data chunk)
    | [] => if s.line.typing then s else s.retire .input
  else s

/-- The window duty hands over the oldest change, unless it has to wait. It ends when the client
has left. -/
def forwardWindow (s : Streaming) : Streaming :=
  if s.runs .windows then
    match s.line.windows with
    | size :: rest =>
      if s.isFull then s
      else { s with line := { s.line with windows := rest } }.hand .windows (.resize size)
    | [] => if s.line.connected then s else s.stop .windows
  else s

/-- The ping duty hands over a ping, unless it has to wait. -/
def ping (s : Streaming) (timestamp : Int64) : Streaming :=
  if s.runs .pings && !s.isFull then s.hand .pings (.ping timestamp) else s

/-- Whether a duty is left that feeds the writer. -/
def isFed (s : Streaming) : Bool := s.runs .input || s.runs .windows || s.runs .pings

/-- The writer sends the oldest message. It ends if nothing waits and nobody feeds it. -/
def write (s : Streaming) : Streaming :=
  if s.runs .writer then
    match s.outbound with
    | m :: rest => { s with outbound := rest, sent := s.sent ++ [m] }
    | [] => if s.isFed then s else s.stop .writer
  else s

/-- The writer ends because the connection to the backend is lost. -/
def failWrite (s : Streaming) : Streaming := if s.runs .writer then s.stop .writer else s

/-- The reader acts on a message of the backend. -/
def act (s : Streaming) : Message → Streaming
  | .exit code => { s.stop .reader with exitCode := some code }
  | m =>
    match shown? m with
    | none => s
    | some bytes =>
      match s.screen.write? bytes with
      | some screen => { s with screen }
      | none => s.stop .reader

/-- The reader takes a frame of the backend. A frame that is no message does not matter. -/
def receive (s : Streaming) (f : Frame) : Streaming :=
  if s.runs .reader then
    match f with
    | .text payload | .binary payload =>
      match Message.decode? payload with
      | some m => s.act m
      | none => s
    | .signal => s
    | .close => s.stop .reader
  else s

/-- A duty ends because it was told to. -/
def obey (s : Streaming) (d : Duty) : Streaming := if s.ending then s.retire d else s

/-- What can happen to a session that streams. -/
inductive Event where
  | input (chunk : Bytes)
  | resize (size : Geometry)
  | endInput
  | leave
  | forwardInput
  | forwardWindow
  | ping (timestamp : Int64)
  | write
  | failWrite
  | receive (f : Frame)
  | obey (d : Duty)
  deriving DecidableEq, Repr

/-- The session after an event. -/
def step (s : Streaming) : Event → Streaming
  | .input chunk => s.input chunk
  | .resize size => s.resize size
  | .endInput => s.endInput
  | .leave => s.leave
  | .forwardInput => s.forwardInput
  | .forwardWindow => s.forwardWindow
  | .ping timestamp => s.ping timestamp
  | .write => s.write
  | .failWrite => s.failWrite
  | .receive f => s.receive f
  | .obey d => s.obey d

/-- The session after events in order. -/
def run (s : Streaming) (events : List Event) : Streaming := events.foldl step s

/-- Whether every duty has ended. -/
def isOver (s : Streaming) : Bool := s.duties.isEmpty

/-- Every duty that passes something on to the backend takes one step. -/
def turn (s : Streaming) : Streaming := s.forwardInput.forwardWindow.write

/-- Takes `n` turns. -/
def turns (s : Streaming) : Nat → Streaming
  | 0 => s
  | n + 1 => s.turn.turns n

/-- The number of things that wait for a duty. -/
def waiting (s : Streaming) : Nat :=
  s.line.typed.length + s.line.windows.length + s.outbound.length

/-- Lets every duty do all it can. Each turn sends a message while any is left, and one more turn
notices the end of the client's input or that the client has left. -/
def settle (s : Streaming) : Streaming :=
  let s := s.turns (s.waiting + 1)
  s.duties.foldl obey s

/-- The exit status for the client: the backend's code, a general failure where that is negative,
and success where the backend gave none. -/
def status (s : Streaming) : Nat :=
  match s.exitCode with
  | some code => if code < 0 then 1 else code.toInt.toNat
  | none => 0

end Streaming
end TermLink.Gate
