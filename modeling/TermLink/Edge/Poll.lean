import TermLink.Edge.HostClient
import TermLink.Edge.Settings
import TermLink.Frame

/-!
# Polling

In poll mode an edge reads the gate's messages itself and turns each into a request to the host.
Output is fetched at regular times, when the gate pings, or both, as the edge is set up.

## Implementation notes

Three duties run side by side. The listener takes the gate's frames; the fetcher alone fetches
output, so that nothing overtakes anything; the writer alone sends to the gate, and ends after an
`exit`. `ending` is how one tells the others to end. The listener and the fetcher share the
writer's queue. A duty that finds the queue full waits until there is room, so that nothing of what
is sent or of its order depends on the queue's depth, and none is modelled.
-/

namespace TermLink.Edge

/-- A session that polls its host. -/
structure Poll where
  /-- Whether output is fetched at regular times. -/
  ticks : Bool
  /-- Whether a ping makes the edge fetch output. -/
  drainOnPing : Bool
  listening : Bool := true
  fetching : Bool := true
  writing : Bool := true
  /-- Whether a duty has told the others to end. -/
  ending : Bool := false
  /-- Whether a ping has asked for output that has not been fetched since. -/
  due : Bool := false
  /-- The messages that wait for the writer, oldest first. -/
  queue : List Message := []
  /-- The messages sent to the gate, oldest first. -/
  sent : List Message := []
  deriving DecidableEq, Repr

namespace Poll

/-- Queues a message for the gate, if there still is a writer. -/
def say (p : Poll) (m : Message) : Poll :=
  if p.writing then { p with queue := p.queue ++ [m] } else p

/-- What the gate is told where there is no terminal. -/
def failedNotice (e : HostFault) : String := "Failed to initialize container: " ++ e.message

/-- What the gate is told where the host cannot be reached any more. -/
def lostNotice (detail : String) : String := "Lost connection to container: " ++ detail

/-- A session asks the host for its terminal. Where there is none it only says so. -/
def start {σ : Type} (settings : Settings) (s : SessionInfo) (ask : Exchange σ) (h : σ) :
    σ × Poll :=
  let p : Poll := { ticks := settings.pollMillis ≠ 0, drainOnPing := settings.drainOnPing }
  match requestTerminal ask h s.request with
  | (h, .ok report) =>
    (h, match report.warning with
      | some warning => p.say (.status warning)
      | none => p)
  | (h, .error e) =>
    (h, { p with listening := false, fetching := false }.say (.error (failedNotice e)))

/-- The listener ends and tells the others to. -/
def endListening (p : Poll) : Poll := { p with listening := false, ending := true }

/-- Gives the terminal a message as input, and passes the host's objection on. -/
def submit {σ : Type} (p : Poll) (ask : Exchange σ) (h : σ) (m : Message) : σ × Poll :=
  match Edge.submit ask h m with
  | (h, .ok ()) => (h, p)
  | (h, .error e) => (h, p.say (.error e.brief))

/-- The listener acts on a message of the gate. -/
def act {σ : Type} (p : Poll) (ask : Exchange σ) (h : σ) : Message → σ × Poll
  | .data payload => p.submit ask h (.data payload)
  | .resize size => p.submit ask h (.resize size)
  | .init size _ => p.submit ask h (.resize size)
  | .ping timestamp =>
    if p.writing then (h, { p.say (.pong timestamp) with due := p.due || p.drainOnPing })
    else (h, p.endListening)
  | .exit _ => (h, p.endListening)
  | .pong _ | .error _ | .status _ => (h, p)

/-- The listener takes a frame of the gate. A frame that is no message does not matter. -/
def receive {σ : Type} (p : Poll) (ask : Exchange σ) (h : σ) (f : Frame) : σ × Poll :=
  if p.listening then
    match f with
    | .text payload | .binary payload =>
      match Message.decode? payload with
      | some m => p.act ask h m
      | none => (h, p)
    | .signal => (h, p)
    | .close => (h, p.endListening)
  else (h, p)

/-- The fetcher ends. -/
def endFetching (p : Poll) : Poll := { p with fetching := false }

/-- The fetcher queues messages up to an `exit`, after which it ends. -/
def forward (p : Poll) : List Message → Poll
  | [] => p
  | .exit code :: _ => (p.say (.exit code)).endFetching
  | m :: rest => if p.writing then (p.say m).forward rest else p.endFetching

/-- Whether there is a reason to fetch output. -/
def wantsOutput (p : Poll) : Bool := p.fetching && (p.ticks || p.due)

/-- The fetcher fetches output, if there is a reason to. It ends the session if the host cannot be
reached any more. A refusal does not matter. -/
def fetch {σ : Type} (p : Poll) (ask : Exchange σ) (h : σ) : σ × Poll :=
  if p.wantsOutput then
    let p := { p with due := false }
    match Edge.fetch ask h with
    | (h, .ok messages) => (h, p.forward messages)
    | (h, .error (.unreached detail)) =>
      (h, { (p.say (.error (lostNotice detail))).endFetching with ending := true })
    | (h, .error (.refused ..)) => (h, p)
  else (h, p)

/-- The writer ends and tells the others to. -/
def endWriting (p : Poll) : Poll := { p with writing := false, ending := true }

/-- The writer sends the oldest message, and ends after an `exit`. It also ends if nothing waits
and no other duty is left. -/
def sendNext (p : Poll) : Poll :=
  if p.writing then
    match p.queue with
    | m :: rest =>
      let p := { p with queue := rest, sent := p.sent ++ [m] }
      match m with
      | .exit _ => p.endWriting
      | _ => p
    | [] => if p.listening || p.fetching then p else p.endWriting
  else p

/-- The listener ends because it was told to. -/
def stopListening (p : Poll) : Poll := if p.listening && p.ending then p.endListening else p

/-- The fetcher ends because it was told to. -/
def stopFetching (p : Poll) : Poll := if p.fetching && p.ending then p.endFetching else p

/-- The writer ends because it was told to. -/
def stopWriting (p : Poll) : Poll := if p.writing && p.ending then p.endWriting else p

/-- What can happen to a session that polls. -/
inductive Event where
  | receive (f : Frame)
  | fetch
  | send
  | stopListening
  | stopFetching
  | stopWriting
  deriving DecidableEq, Repr

/-- The session and its host after an event. -/
def step {σ : Type} (ask : Exchange σ) (s : σ × Poll) : Event → σ × Poll
  | .receive f => s.2.receive ask s.1 f
  | .fetch => s.2.fetch ask s.1
  | .send => (s.1, s.2.sendNext)
  | .stopListening => (s.1, s.2.stopListening)
  | .stopFetching => (s.1, s.2.stopFetching)
  | .stopWriting => (s.1, s.2.stopWriting)

/-- The session and its host after events in order. -/
def run {σ : Type} (ask : Exchange σ) (s : σ × Poll) (events : List Event) : σ × Poll :=
  events.foldl (step ask) s

/-- The writer sends up to `n` messages. -/
def sendMany (p : Poll) : Nat → Poll
  | 0 => p
  | n + 1 => p.sendNext.sendMany n

/-- Lets the writer send all that waits, and then every duty end that must. -/
def settle (p : Poll) : Poll :=
  (p.sendMany (p.queue.length + 1)).stopListening.stopFetching.stopWriting

/-- Whether the connection with the gate has been closed. -/
def isClosed (p : Poll) : Bool := !p.writing

end Poll
end TermLink.Edge
