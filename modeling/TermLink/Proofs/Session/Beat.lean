import TermLink.Proofs.Edge.HostClient
import TermLink.Proofs.Edge.Poll
import TermLink.Proofs.Session.Rounds

/-!
# Beats of a session

What happens to a session, told so that it means the same in both modes, and when that is orderly:
output is fetched before the gate goes on, and neither the terminal's backlog nor the stream's
mailbox has to hold more than it can.

## Implementation notes

Every beat is done before the next one. What a beat prints may wait for a later one, in a stream as
much as in the backlog.
-/

namespace TermLink

/-- What happens to a session in either mode. -/
inductive Beat where
  /-- A frame of the gate arrives. -/
  | frame (f : Frame)
  | print (chunk : Bytes)
  | exit (code : Int32)
  /-- A stream sends what waits. -/
  | push
  /-- A stream sends what waits, and output that is fetched is fetched. -/
  | drain

/-- Whether a frame asks for an answer. -/
def Frame.isPing (f : Frame) : Bool :=
  match f.deed with
  | .answer _ => true
  | _ => false

/-- Whether the host reads the input in a frame, if the frame holds one. -/
def Frame.isSmall (f : Frame) : Bool :=
  match f.deed with
  | .input i => i.message.encode.length ≤ Http.bodyLimit
  | _ => true

/-- A session that opens a stream of the host and asks for its terminal. -/
def Leg.start (info : SessionInfo) (env : Environment) (h : Host) : Leg :=
  (opened info h).settle env

/-- A session that streams, after a beat. -/
def Leg.beat (l : Leg) (env : Environment) : Beat → Leg
  | .frame f => (l.step (.fromGate f)).settle env
  | .print chunk => l.step (.print chunk)
  | .exit code => l.step (.exit code)
  | .push | .drain => l.settle env

/-- A session that streams, after beats in order. -/
def Leg.beats (l : Leg) (env : Environment) (bs : List Beat) : Leg :=
  bs.foldl (fun l b => l.beat env b) l

/-- A session that polls, with its host. -/
structure Polling where
  host : Host
  poll : Edge.Poll

namespace Polling

/-- A session that asks the host for its terminal. -/
def start (settings : Edge.Settings) (info : SessionInfo) (ask : Edge.Exchange Host) (h : Host) :
    Polling :=
  let (host, poll) := Edge.Poll.start settings info ask h
  ⟨host, poll.settle⟩

/-- A session that polls, after a beat. -/
def beat (q : Polling) (ask : Edge.Exchange Host) : Beat → Polling
  | .frame f =>
    let (host, poll) := q.poll.receive ask q.host f
    ⟨host, poll.settle⟩
  | .print chunk => { q with host := q.host.publish chunk }
  | .exit code => { q with host := q.host.recordExit code }
  | .push => q
  | .drain =>
    let (host, poll) := q.poll.fetch ask q.host
    ⟨host, poll.settle⟩

/-- A session that polls, after beats in order. -/
def beats (q : Polling) (ask : Edge.Exchange Host) (bs : List Beat) : Polling :=
  bs.foldl (fun q b => q.beat ask b) q

end Polling

/-- What has happened since output was last fetched, and since a stream last sent what waited. -/
structure Span where
  /-- The number of bytes that were printed and not fetched. -/
  unread : Nat := 0
  /-- The number of messages that wait in a stream. -/
  waiting : Nat := 0
  /-- Whether the terminal has done something that was not fetched. -/
  pending : Bool := false
  /-- Whether a ping has asked for output that was not fetched. -/
  due : Bool := false
  /-- Whether an exit was ever reported. -/
  exited : Bool := false
  deriving DecidableEq, Repr

namespace Span

/-- The span after a beat. -/
def after (s : Span) (settings : Edge.Settings) : Beat → Span
  | .frame f => { s with waiting := 0, due := s.due || (settings.drainOnPing && f.isPing) }
  | .print chunk =>
    { s with unread := s.unread + chunk.length, waiting := s.waiting + 1, pending := true }
  | .exit _ => { s with waiting := s.waiting + 1, pending := true, exited := true }
  | .push => { s with waiting := 0 }
  | .drain => { s with unread := 0, waiting := 0, pending := false, due := false }

/-- The span after beats in order. -/
def run (s : Span) (settings : Edge.Settings) (beats : List Beat) : Span :=
  beats.foldl (fun s b => s.after settings b) s

/-- Whether a beat is in order. The gate goes on once all output has been fetched, a terminal prints
nothing after its exit, and output is fetched at regular times or when a ping has asked for it. -/
def Admits (s : Span) (settings : Edge.Settings) (h : Host) : Beat → Prop
  | .frame f => s.pending = false ∧ f.isSmall = true
  | .print chunk => chunk ≠ [] ∧ s.exited = false
    ∧ s.unread + chunk.length ≤ max h.backlogCeiling 1 ∧ s.waiting < h.queueDepth
  | .exit _ => s.exited = false ∧ s.waiting < h.queueDepth
  | .push => True
  | .drain => settings.pollMillis ≠ 0 ∨ s.due = true

instance (s : Span) (settings : Edge.Settings) (h : Host) (b : Beat) :
    Decidable (s.Admits settings h b) :=
  match b with
  | .frame _ | .print _ | .exit _ => inferInstanceAs (Decidable (_ ∧ _))
  | .push => inferInstanceAs (Decidable True)
  | .drain => inferInstanceAs (Decidable (_ ∨ _))

end Span

/-- Whether beats are in order, each after those before it. -/
def Orderly (settings : Edge.Settings) (h : Host) : Span → List Beat → Prop
  | _, [] => True
  | s, b :: rest => s.Admits settings h b ∧ Orderly settings h (s.after settings b) rest

theorem Orderly.of_append {settings : Edge.Settings} {h : Host} {s : Span} {early late : List Beat}
    (H : Orderly settings h s (early ++ late)) : Orderly settings h s early := by
  induction early generalizing s with
  | nil => trivial
  | cons b rest ih => exact ⟨H.1, ih H.2⟩

end TermLink
