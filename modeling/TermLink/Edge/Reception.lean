import TermLink.Edge.Entrance
import TermLink.Edge.Pipe
import TermLink.Edge.Poll

/-!
# Receiving gates

What an edge does with a request for a session. A gate that is let in becomes the one end of a
session, for which the edge turns to the host in the mode that is set. Any other gets a response.
-/

namespace TermLink.Edge

/-- How an edge reaches a host of state `σ`: by single requests, or by a dial that opens a
stream. -/
structure HostLine (σ : Type) where
  ask : Exchange σ
  dial : σ → σ × HostDial

/-- What a request for a session comes to. -/
inductive Reception where
  | answered (response : Http.Response)
  | piped (pipe : Pipe)
  | polled (poll : Poll)
  deriving Repr

/-- Begins a session in the mode that is set. -/
def beginSession {σ : Type} (settings : Settings) (line : HostLine σ) (h : σ) (s : SessionInfo) :
    σ × Reception :=
  match settings.mode with
  | .stream =>
    let (h, outcome) := line.dial h
    (h, .piped (.start s outcome))
  | .poll =>
    let (h, poll) := Poll.start settings s line.ask h
    (h, .polled poll)

/-- Receives a request for a session with its header fields. `refusal` is why its connection cannot
be turned into that of a session, if it cannot. -/
def receive {σ : Type} (settings : Settings) (line : HostLine σ) (h : σ)
    (refusal : Option Http.UpgradeRefusal) (hs : Headers) : σ × Reception :=
  if admits settings.secret hs then
    match refusal with
    | some cause => (h, .answered cause.response)
    | none => beginSession settings line h (.ofHeaders hs)
  else (h, .answered unauthorized)

end TermLink.Edge
