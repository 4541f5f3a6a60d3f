import TermLink.Gate.Streaming

/-!
# Sessions

A session is either refused, with a notice for the client, or streams until one side ends it. In
the end the client gets an exit status.
-/

namespace TermLink.Gate

/-- A session that has been asked for. -/
inductive Session where
  | refused (cause : Refusal) (screen : Screen)
  | streaming (dial : Dial) (stream : Streaming)
  deriving DecidableEq, Repr

namespace Session

/-- A session that is refused, of which the client is told. -/
def refuse (cause : Refusal) (screen : Screen) : Session :=
  .refused cause (screen.notify cause.notice)

/-- The session that a request leads to, where `outcome` is what becomes of a dial. -/
def start (backend : Backend) (r : SessionRequest) (outcome : Dial.Outcome) (line : ClientLine)
    (screen : Screen) : Session :=
  match r.dial backend with
  | .error cause => refuse cause screen
  | .ok dial =>
    match outcome with
    | .failed => refuse .backendUnavailable screen
    | .lost => refuse .notBegun screen
    | .opened => .streaming dial (.ofDial backend dial line screen)

/-- The session after an event. Nothing happens to a session that was refused. -/
def step (s : Session) (e : Streaming.Event) : Session :=
  match s with
  | .refused .. => s
  | .streaming dial stream => .streaming dial (stream.step e)

/-- Lets every duty do all it can. -/
def settle : Session → Session
  | .refused cause screen => .refused cause screen
  | .streaming dial stream => .streaming dial stream.settle

/-- Whether the session is over. -/
def isOver : Session → Bool
  | .refused .. => true
  | .streaming _ stream => stream.isOver

/-- Whether a duty of the session has not ended. -/
def runs (s : Session) (d : Duty) : Bool :=
  match s with
  | .refused .. => false
  | .streaming _ stream => stream.runs d

/-- Whether input is still taken from the client. -/
def acceptsInput : Session → Bool
  | .refused .. => false
  | .streaming _ stream => stream.acceptsInput

/-- Whether changes of the window are still taken from the client. -/
def acceptsWindow : Session → Bool
  | .refused .. => false
  | .streaming _ stream => stream.acceptsWindow

/-- The client's screen. -/
def screen : Session → Screen
  | .refused _ screen => screen
  | .streaming _ stream => stream.screen

/-- The messages sent to the backend. -/
def sent : Session → List Message
  | .refused .. => []
  | .streaming _ stream => stream.sent

/-- The exit status for the client, once the session is over. -/
def status? : Session → Option Nat
  | .refused cause _ => some cause.status
  | .streaming _ stream => if stream.isOver then some stream.status else none

/-- The phases that the session has entered, in order. -/
def phases : Session → List Phase
  | .refused cause _ => cause.phases ++ [.terminated]
  | .streaming _ stream =>
    [.authenticated, .negotiating, .streaming] ++ (if stream.isOver then [.terminated] else [])

/-- The phase in which the session is. -/
def phase (s : Session) : Phase := s.phases.getLast?.getD .unauthenticated

end Session
end TermLink.Gate
