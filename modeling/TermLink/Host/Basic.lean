import TermLink.Checkout.Workspace
import TermLink.Terminal

/-!
# Hosts

A host has room for one terminal. The first request for one starts it, in the workspace of the
repository that was named; every later one only changes its size. All that arrives for the terminal
passes through the host, whichever way it came.

## Implementation notes

Starting a process is up to the environment, which says for a directory what the new process is
called or why there is none. The terminal keeps the directory as a text, which is all that it is
for.
-/

namespace TermLink

/-- What the world around a host does: what git answers, and what comes of starting a process in a
directory. -/
structure Environment where
  git : Checkout.Git
  update : Checkout.Update := Checkout.Update.failed
  spawn : Bytes → Except String ProcessId

/-- A place for one terminal. -/
structure Host where
  /-- The ceiling of the terminal's backlog. -/
  backlogCeiling : Nat
  /-- The capacity of a stream's mailbox. -/
  queueDepth : Nat
  workspace : Checkout.Workspace
  terminal : Option Terminal := none
  room : Mailroom := {}
  /-- The number of stream frames that were not messages. -/
  malformed : Nat := 0
  deriving Repr

namespace Host

/-- The answer to a request for a terminal. -/
structure Started where
  /-- Whether the terminal was there before. -/
  resized : Bool
  pid : ProcessId
  size : Size
  workdir : String
  warning : Option Checkout.Warning := none
  deriving DecidableEq, Repr

/-- The terminal, if it has been started. -/
def require (h : Host) : Except TerminalError Terminal :=
  match h.terminal with
  | some t => .ok t
  | none => .error .notInitialized

/-- Starts a process in a place of the workspace. -/
def start (h : Host) (env : Environment) (size : Size) (prepared : Checkout.Prepared) :
    Host × Except TerminalError Started :=
  let workdir := h.workspace.path prepared.place
  match env.spawn (h.workspace.directory prepared.place) with
  | .error detail => (h, .error (.spawnFailed detail))
  | .ok pid =>
    let t : Terminal :=
      { pid, workdir, queueDepth := h.queueDepth, pty := { size }
        backlog := .ofCeiling h.backlogCeiling }
    ({ h with terminal := some t },
      .ok { resized := false, pid, size, workdir, warning := prepared.warning })

/-- Starts the terminal, or resizes the one that is there. -/
def establish (h : Host) (env : Environment) (g : Geometry) (repo : Option String) :
    Host × Except TerminalError Started :=
  match h.terminal with
  | some t =>
    let (next, resized) := t.resize g
    ({ h with terminal := some next },
      resized.map fun size => { resized := true, pid := t.pid, size, workdir := t.workdir })
  | none =>
    let (workspace, prepared) := h.workspace.prepare env.git repo env.update
    { h with workspace }.start env g.resolve prepared

/-- Gives the terminal a message as input. -/
def write (h : Host) (m : Message) : Host × Except TerminalError Unit :=
  match h.require with
  | .ok t =>
    let (t, accepted) := t.accept m
    ({ h with terminal := some t }, accepted)
  | .error e => (h, .error e)

/-- Changes the terminal's size. -/
def resize (h : Host) (g : Geometry) : Host × Except TerminalError Size :=
  match h.require with
  | .ok t =>
    let (t, resized) := t.resize g
    ({ h with terminal := some t }, resized)
  | .error e => (h, .error e)

/-- Fetches the terminal's recent output. -/
def read (h : Host) : Host × Except TerminalError (List Message) :=
  match h.require with
  | .ok t =>
    let (t, messages) := t.poll
    ({ h with terminal := some t }, .ok messages)
  | .error e => (h, .error e)

/-- Gives the terminal a message as input and then fetches its recent output. -/
def writeRead (h : Host) (m : Message) : Host × Except TerminalError (List Message) :=
  match h.write m with
  | (h, .ok ()) => h.read
  | (h, .error e) => (h, .error e)

/-- What a host tells about its terminal. -/
structure Status where
  running : Bool
  exitCode : Option Int32
  workdir : String
  clients : Nat
  pid : ProcessId
  deriving DecidableEq, Repr

/-- What there is to tell about the terminal, if it has been started. -/
def status (h : Host) : Option Status :=
  h.terminal.map fun t =>
    { running := t.running, exitCode := t.exitCode, workdir := t.workdir
      clients := t.subscribers.size, pid := t.pid }

/-- Changes the terminal and the mailroom together, where there is a terminal. -/
def onTerminal (h : Host) (f : Terminal → Mailroom → Terminal × Mailroom) : Host :=
  match h.terminal with
  | some t =>
    let (t, room) := f t h.room
    { h with terminal := some t, room }
  | none => h

/-- The process prints. -/
def publish (h : Host) (chunk : Bytes) : Host := h.onTerminal fun t room => t.publish room chunk

/-- The process ends. -/
def recordExit (h : Host) (code : Int32) : Host :=
  h.onTerminal fun t room => t.recordExit room code

/-- The operations on the terminal's pseudo-terminal fail from now on, or no longer. -/
def setFault (h : Host) (fault : Option Pty.Fault) : Host :=
  { h with terminal := h.terminal.map fun t => t.withFault fault }

/-- The exit code of a process that was ended by a signal. -/
def signalled : Int32 := 1

/-- Ends the process, if it is still running. -/
def shutdown (h : Host) : Host := h.recordExit signalled

/-- Subscribes a mailbox to the terminal's output. -/
def attach? (h : Host) (address : Address) : Option (Host × SubscriberId) := do
  let t ← h.terminal
  let (t, room, i) := t.attach h.room address
  some ({ h with terminal := some t, room }, i)

/-- Ends a subscription. -/
def detach (h : Host) (i : SubscriberId) : Host :=
  { h with terminal := h.terminal.map fun t => t.detach i }

/-- Counts of what has happened at a host since it was set up. -/
structure Counters where
  outputBytes : Nat
  trimmedBytes : Nat
  clientsAttached : Nat
  clientsEvicted : Nat
  messagesDropped : Nat
  deriving DecidableEq, Repr

/-- The counts so far. -/
def counters (h : Host) : Counters :=
  match h.terminal with
  | some t =>
    { outputBytes := t.published
      trimmedBytes := t.backlog.dropped
      clientsAttached := t.subscribers.lastId
      clientsEvicted := t.subscribers.evicted.length
      messagesDropped := h.malformed }
  | none => ⟨0, 0, 0, 0, h.malformed⟩

end Host
end TermLink
