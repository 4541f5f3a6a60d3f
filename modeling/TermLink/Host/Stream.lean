import TermLink.Host.Basic
import TermLink.Message.Wire

/-!
# Streams

A stream is a connection over which a terminal's output is pushed as it appears. It owns one
mailbox, which the terminal fills once the stream has subscribed and which the stream's own
replies share, so that one writer keeps all of them in order.

## Implementation notes

A stream has two duties. Its reader takes the peer's frames and ends when the peer leaves or says
`exit`, when the stream is evicted, or when the writer has ended; only the reader subscribes and
unsubscribes. Its writer sends what is in the mailbox and ends after an `exit`, or when the reader
has ended. `ending` is how each tells the other.
-/

namespace TermLink.Host

/-- A stream of a host. -/
structure Stream where
  mailbox : Address
  /-- The subscription that the stream holds. -/
  attachment : Option SubscriberId := none
  reading : Bool := true
  writing : Bool := true
  /-- Whether one duty has told the other to end. -/
  ending : Bool := false
  /-- The messages sent to the peer, oldest first. -/
  sent : List Message := []
  deriving DecidableEq, Repr

namespace Stream

/-- Subscribes the stream, unless it is subscribed or there is no terminal. -/
def attach (s : Stream) (h : Host) : Host × Stream :=
  match s.attachment with
  | some _ => (h, s)
  | none =>
    match h.attach? s.mailbox with
    | some (h, i) => (h, { s with attachment := some i })
    | none => (h, s)

/-- Opens a stream, which subscribes at once if there is a terminal. -/
def opened (h : Host) : Host × Stream :=
  let (room, address) := h.room.create h.queueDepth
  attach { mailbox := address } { h with room }

/-- Puts a message of the stream's own into its mailbox, where there is room for it. -/
def reply (s : Stream) (h : Host) (m : Message) : Host :=
  { h with room := h.room.offer s.mailbox m }

/-- The reader ends: it gives up the subscription and tells the writer. -/
def endReading (s : Stream) (h : Host) : Host × Stream :=
  let h := match s.attachment with
    | some i => h.detach i
    | none => h
  (h, { s with attachment := none, reading := false, ending := true })

/-- Asks the host for a terminal, and subscribes to it. -/
def establish (s : Stream) (h : Host) (env : Environment) (g : Geometry) (repo : Option String) :
    Host × Stream :=
  match h.establish env g repo with
  | (h, .ok started) =>
    let h := match started.warning with
      | some w => s.reply h (.status w.message)
      | none => h
    s.attach h
  | (h, .error e) => (s.reply h (.error e.message), s)

/-- Subscribes to the terminal, and gives it a message as input. -/
def input (s : Stream) (h : Host) (m : Message) : Host × Stream :=
  let (h, s) := s.attach h
  match h.write m with
  | (h, .ok ()) => (h, s)
  | (h, .error e) => (s.reply h (.error e.message), s)

/-- Acts on a message from the peer. -/
def act (s : Stream) (h : Host) (env : Environment) : Message → Host × Stream
  | .init size repo => s.establish h env size repo
  | .data payload => s.input h (.data payload)
  | .resize size => s.input h (.resize size)
  | .ping timestamp => (s.reply h (.pong timestamp), s)
  | .exit _ => s.endReading h
  | .pong _ | .error _ | .status _ => (h, s)

/-- The reader takes a frame from the peer. A frame that is no message is only counted. -/
def receive (s : Stream) (h : Host) (env : Environment) (frame : Bytes) : Host × Stream :=
  if s.reading then
    match Message.decode frame with
    | .ok m => s.act h env m
    | .error _ => ({ h with malformed := h.malformed + 1 }, s)
  else (h, s)

/-- The peer leaves. -/
def hangUp (s : Stream) (h : Host) : Host × Stream := if s.reading then s.endReading h else (h, s)

/-- Whether the stream's subscription was ended because it fell behind. -/
def isEvicted (s : Stream) (h : Host) : Bool :=
  match s.attachment, h.terminal with
  | some i, some t => t.subscribers.evicted.contains i
  | _, _ => false

/-- The reader ends if it has a reason to. -/
def notice (s : Stream) (h : Host) : Host × Stream :=
  if s.reading && (s.ending || s.isEvicted h) then s.endReading h else (h, s)

/-- The writer ends: it closes the mailbox and tells the reader. -/
def endWriting (s : Stream) (h : Host) : Host × Stream :=
  ({ h with room := h.room.close s.mailbox }, { s with writing := false, ending := true })

/-- The writer sends the oldest message in the mailbox, and ends after an `exit`. -/
def sendNext (s : Stream) (h : Host) : Host × Stream :=
  if s.writing then
    match h.room.take? s.mailbox with
    | some (m, room) =>
      let s := { s with sent := s.sent ++ [m] }
      match m with
      | .exit _ => s.endWriting { h with room }
      | _ => ({ h with room }, s)
    | none => (h, s)
  else (h, s)

/-- The writer ends if it has been told to. -/
def stopWriting (s : Stream) (h : Host) : Host × Stream :=
  if s.writing && s.ending then s.endWriting h else (h, s)

/-- The writer sends up to `n` messages. -/
def sendMany (s : Stream) (h : Host) : Nat → Host × Stream
  | 0 => (h, s)
  | n + 1 =>
    let (h, s) := s.sendNext h
    s.sendMany h n

/-- The number of messages in the mailbox. -/
def waiting (s : Stream) (h : Host) : Nat :=
  match h.room.box? s.mailbox with
  | some b => b.queued.length
  | none => 0

/-- Lets both duties do all they can: the writer sends what waits, and each ends if it must. -/
def settle (s : Stream) (h : Host) : Host × Stream :=
  let (h, s) := s.sendMany h (s.waiting h)
  let (h, s) := s.notice h
  s.stopWriting h

/-- Whether the stream has come to its end. -/
def isClosed (s : Stream) : Bool := !s.reading && !s.writing

end Stream
end TermLink.Host
