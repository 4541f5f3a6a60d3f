import TermLink.Backlog
import TermLink.Subscribers

/-!
# Terminals

A terminal is a process on a pseudo-terminal. What the process prints goes into the backlog and,
until its exit has been recorded, to every subscriber; what arrives for it is its input.

## Implementation notes

Output that arrives after the exit was recorded is kept in the backlog only. A fetch first looks at
the exit and then empties the backlog, so the exit never overtakes output that came before it; the
two halves are separate functions, because other events may fall between them.

Whether an operation on the pseudo-terminal succeeds is not up to the terminal. While there is a
`Pty.Fault` every operation fails as it says, and a fault may come and go between any two events.
-/

namespace TermLink

/-- Why a request to a terminal is refused. -/
inductive TerminalError where
  | spawnFailed (detail : String)
  | notInitialized
  | notRunning
  | writeFailed (detail : String)
  | resizeFailed (detail : String)
  /-- A message of a kind that is no input. -/
  | unsupported (kind : Message.Kind)
  deriving DecidableEq, Repr

/-- The words for a refusal. -/
def TerminalError.message : TerminalError → String
  | .spawnFailed detail => "failed to start terminal: " ++ detail
  | .notInitialized => "terminal not initialized"
  | .notRunning => "terminal is not running"
  | .writeFailed detail => "pty write failed: " ++ detail
  | .resizeFailed detail => "pty resize failed: resize PTY: " ++ detail
  | .unsupported kind => "`" ++ kind.tag ++ "` messages are not accepted here"

/-- The number of a process. -/
abbrev ProcessId := Nat

/-- How the operations on a pseudo-terminal fail. -/
structure Pty.Fault where
  /-- The number of bytes that are still written before a write fails. -/
  taken : Nat := 0
  /-- What the system says about the failure. -/
  detail : String
  deriving DecidableEq, Repr

/-- The pseudo-terminal of a process: its size, and all the input written so far, of which the
process has read a part. -/
structure Pty where
  size : Size
  input : Bytes := []
  consumed : Nat := 0
  fault : Option Pty.Fault := none
  deriving DecidableEq, Repr

/-- A process on a pseudo-terminal. -/
structure Terminal where
  pid : ProcessId
  /-- The directory in which the process was started. -/
  workdir : String
  /-- The capacity of a stream's mailbox. -/
  queueDepth : Nat
  pty : Pty
  backlog : Backlog
  subscribers : Subscribers := {}
  running : Bool := true
  exitCode : Option Int32 := none
  /-- The number of bytes printed so far. -/
  published : Nat := 0
  deriving DecidableEq, Repr

namespace Terminal

/-- The terminal with more input for the process. -/
def typed (t : Terminal) (bytes : Bytes) : Terminal :=
  { t with pty := { t.pty with input := t.pty.input ++ bytes } }

/-- The terminal with the size asked for. -/
def sized (t : Terminal) (g : Geometry) : Terminal :=
  { t with pty := { t.pty with size := g.resolve } }

/-- The terminal where the operations on its pseudo-terminal fail from now on, or no longer. -/
def withFault (t : Terminal) (fault : Option Pty.Fault) : Terminal :=
  { t with pty := { t.pty with fault } }

/-- Adds input for the process, unless it has ended. A write that fails may have written a part. -/
def write (t : Terminal) (bytes : Bytes) : Terminal × Except TerminalError Unit :=
  if t.running then
    match t.pty.fault with
    | none => (t.typed bytes, .ok ())
    | some fault => (t.typed (bytes.take fault.taken), .error (.writeFailed fault.detail))
  else (t, .error .notRunning)

/-- Gives the pseudo-terminal the size asked for. -/
def resize (t : Terminal) (g : Geometry) : Terminal × Except TerminalError Size :=
  match t.pty.fault with
  | none => (t.sized g, .ok g.resolve)
  | some fault => (t, .error (.resizeFailed fault.detail))

/-- Takes a message as input: bytes or a new size. -/
def accept (t : Terminal) : Message → Terminal × Except TerminalError Unit
  | .data payload => t.write payload
  | .resize size => ((t.resize size).1, (t.resize size).2.map fun _ => ())
  | other => (t, .error (.unsupported other.kind))

/-- The process reads from its input. -/
def consume (t : Terminal) (n : Nat) : Terminal × Bytes :=
  let bytes := (t.pty.input.drop t.pty.consumed).take n
  ({ t with pty := { t.pty with consumed := t.pty.consumed + bytes.length } }, bytes)

/-- The first half of a fetch: the exit code, if the process has ended. -/
def sample (t : Terminal) : Option Int32 := t.exitCode

/-- The second half of a fetch: empties the backlog, and gives what it held and then the exit that
the first half saw. -/
def drain (t : Terminal) (seen : Option Int32) : Terminal × List Message :=
  let (backlog, bytes) := t.backlog.drain
  ({ t with backlog },
    (if bytes = [] then [] else [.data bytes]) ++ (seen.map Message.exit).toList)

/-- Fetches recent output, and the exit once the process has ended. -/
def poll (t : Terminal) : Terminal × List Message := t.drain t.sample

/-- Adds a subscriber. One who comes after the exit is told at once. -/
def attach (t : Terminal) (room : Mailroom) (address : Address) :
    Terminal × Mailroom × SubscriberId :=
  let room := match t.exitCode with
    | some code => room.offer address (.exit code)
    | none => room
  let (subscribers, i) := t.subscribers.attach address
  ({ t with subscribers }, room, i)

/-- Removes a subscriber, if it is still one. -/
def detach (t : Terminal) (i : SubscriberId) : Terminal :=
  { t with subscribers := (t.subscribers.detach i).1 }

/-- Sends a message to every subscriber. -/
def broadcast (t : Terminal) (room : Mailroom) (m : Message) : Terminal × Mailroom :=
  let (subscribers, room, _) := t.subscribers.broadcast room m
  ({ t with subscribers }, room)

/-- The first half of printing: the output goes into the backlog. -/
def store (t : Terminal) (chunk : Bytes) : Terminal :=
  { t with backlog := (t.backlog.push chunk).1, published := t.published + chunk.length }

/-- The second half of printing: the output goes to the subscribers, unless the exit has been
recorded. -/
def deliver (t : Terminal) (room : Mailroom) (chunk : Bytes) : Terminal × Mailroom :=
  if t.exitCode.isSome then (t, room) else t.broadcast room (.data chunk)

/-- The process prints. -/
def publish (t : Terminal) (room : Mailroom) (chunk : Bytes) : Terminal × Mailroom :=
  (t.store chunk).deliver room chunk

/-- Records the exit of the process and tells every subscriber. Only the first one counts. -/
def recordExit (t : Terminal) (room : Mailroom) (code : Int32) : Terminal × Mailroom :=
  if t.exitCode.isSome then (t, room)
  else { t with running := false, exitCode := some code }.broadcast room (.exit code)

end Terminal
end TermLink
