import TermLink.Gate.Connection

/-!
# Clients

A client of a gate: its connection together with the sessions that run on the channels.
-/

namespace TermLink.Gate

/-- A connection and the sessions that were started on it, by channel. -/
structure Client where
  connection : Connection := {}
  sessions : List (ChannelId × Session) := []
  deriving Repr

namespace Client

/-- The session last started on a channel. -/
def session? (c : Client) (i : ChannelId) : Option Session := c.sessions.lookup i

/-- Changes the session of a channel. -/
def onSession (c : Client) (i : ChannelId) (f : Session → Session) : Client :=
  { c with sessions := c.sessions.map fun e => if e.1 = i then (i, f e.2) else e }

/-- Carries out an order, where `outcome` is what becomes of a dial. -/
def obey (c : Client) (backend : Backend) (outcome : Dial.Outcome) (i : ChannelId) (o : Order) :
    Client :=
  match o with
  | .start r =>
    let others := c.sessions.filter fun e => e.1 ≠ i
    { c with sessions := (i, Session.start backend r outcome {} {}) :: others }
  | other =>
    match other.event? with
    | some e => c.onSession i fun s => s.step e
    | none => c

/-- Takes a call on a channel, and answers it. -/
def call (c : Client) (backend : Backend) (outcome : Dial.Outcome) (i : ChannelId) (call : Call) :
    Client × Option Reply :=
  let s := c.connection.step i call
  let c := { c with connection := s.next }
  match s.order with
  | some o => (c.obey backend outcome i o, s.reply)
  | none => (c, s.reply)

/-- Takes a frame of the backend for the session of a channel. -/
def receive (c : Client) (i : ChannelId) (f : Frame) : Client :=
  c.onSession i fun s => s.step (.receive f)

/-- Lets every duty of every session do all it can. -/
def settle (c : Client) : Client :=
  { c with sessions := c.sessions.map fun e => (e.1, e.2.settle) }

end Client
end TermLink.Gate
