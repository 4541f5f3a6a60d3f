import TermLink.Gate.Session
import TermLink.Selector

/-!
# Connections

A client's connection carries any number of channels, and each channel at most one session. The
client asks for things by channel; what it asks for becomes orders to the channel's session.

## Implementation notes

A channel's terminal is known by its size, which a request for a terminal and a change of the window
both set. The orders to a session end when its channel is closed.
-/

namespace TermLink.Gate

/-- The name of a channel. -/
abbrev ChannelId := Nat

/-- An open channel. -/
structure Channel where
  /-- The size last told for the channel's terminal. -/
  size : Option Geometry := none
  /-- Whether a session has been started on the channel. -/
  started : Bool := false
  /-- Whether the client may still send input. -/
  typing : Bool := true
  deriving DecidableEq, Repr

/-- A client's connection. -/
structure Connection where
  /-- The key with which the client was admitted, and what was decided about it. -/
  identity : Option (String × Verdict) := none
  channels : List (ChannelId × Channel) := []
  deriving DecidableEq, Repr

/-- What a client may ask for or tell on a channel. -/
inductive Call where
  | openChannel
  | terminal (size : Geometry)
  | window (size : Geometry)
  | shell
  | exec (command : Bytes)
  | data (chunk : Bytes)
  | endOfInput
  | close
  deriving DecidableEq, Repr

/-- What a channel's session is to do. -/
inductive Order where
  | start (request : SessionRequest)
  | input (chunk : Bytes)
  | resize (size : Geometry)
  | endInput
  | leave
  deriving DecidableEq, Repr

/-- The answer to a call, where one is given. -/
inductive Reply where
  | success
  | failure
  deriving DecidableEq, Repr

namespace Connection

/-- The connection after the client's key was decided about. A client that is not admitted may try
another key. -/
def authenticate (c : Connection) (fingerprint : String) (verdict : Verdict) : Connection :=
  if verdict.admits then { c with identity := some (fingerprint, verdict) } else c

/-- An open channel by its name. -/
def channel? (c : Connection) (i : ChannelId) : Option Channel := c.channels.lookup i

/-- The connection without a channel. -/
def drop (c : Connection) (i : ChannelId) : Connection :=
  { c with channels := c.channels.filter fun e => e.1 ≠ i }

/-- The connection with a channel in the place of the one of its name. -/
def put (c : Connection) (i : ChannelId) (ch : Channel) : Connection :=
  { c with channels := (i, ch) :: (c.drop i).channels }

/-- What is known of the client when it asks for a session on a channel. -/
def request (c : Connection) (ch : Channel) (repo : Option String) : SessionRequest where
  fingerprint := c.identity.map Prod.fst
  verdict := c.identity.map Prod.snd
  size := ch.size
  repo := repo

/-- What comes of a call. -/
structure Step where
  next : Connection
  reply : Option Reply := none
  /-- What the channel's session is to do, if it is to do something. -/
  order : Option Order := none
  deriving DecidableEq, Repr

/-- Starts a session on a channel, unless one was started before. -/
def start (c : Connection) (i : ChannelId) (repo : Option String) : Step :=
  match c.channel? i with
  | none => { next := c, reply := some .failure }
  | some ch =>
    if ch.started then { next := c, reply := some .failure }
    else
      { next := c.put i { ch with started := true }
        reply := some .success
        order := some (.start (c.request ch repo)) }

/-- Takes a call on a channel that is open. -/
def onChannel (c : Connection) (i : ChannelId) (ch : Channel) : Call → Step
  | .openChannel =>
    { next := c.put i {}, reply := some .success
      order := if ch.started then some .leave else none }
  | .terminal size => { next := c.put i { ch with size := some size }, reply := some .success }
  | .window size =>
    { next := c.put i { ch with size := some size }
      order := if ch.started then some (.resize size) else none }
  | .shell => c.start i none
  | .exec command => c.start i (Selector.ofCommand? (Utf8.decodeLossy command))
  | .data chunk =>
    { next := c, order := if ch.started && ch.typing then some (.input chunk) else none }
  | .endOfInput =>
    if ch.started && ch.typing then
      { next := c.put i { ch with typing := false }, order := some .endInput }
    else { next := c }
  | .close => { next := c.drop i, order := if ch.started then some .leave else none }

/-- Takes a call. On a channel that is not open nothing can be done but to open it. -/
def step (c : Connection) (i : ChannelId) (call : Call) : Step :=
  match c.channel? i, call with
  | some ch, _ => c.onChannel i ch call
  | none, .openChannel => { next := c.put i {}, reply := some .success }
  | none, .terminal _ | none, .shell | none, .exec _ => { next := c, reply := some .failure }
  | none, .window _ | none, .data _ | none, .endOfInput | none, .close => { next := c }

/-- Takes calls in order, and gives the orders to the channels' sessions in order. -/
def run (c : Connection) : List (ChannelId × Call) → Connection × List (ChannelId × Order)
  | [] => (c, [])
  | (i, call) :: rest =>
    let s := c.step i call
    let (last, orders) := s.next.run rest
    (last, (s.order.map fun o => (i, o)).toList ++ orders)

/-- The connection after the client has gone, and what that means for its sessions. -/
def hangUp (c : Connection) : Connection × List (ChannelId × Order) :=
  ({ c with channels := [] }, (c.channels.filter fun e => e.2.started).map fun e => (e.1, .leave))

end Connection

/-- The event that an order is for a session that streams. -/
def Order.event? : Order → Option Streaming.Event
  | .start _ => none
  | .input chunk => some (.input chunk)
  | .resize size => some (.resize size)
  | .endInput => some .endInput
  | .leave => some .leave

end TermLink.Gate
