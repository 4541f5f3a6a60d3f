import TermLink.Gate.Admission
import TermLink.Gate.Options
import TermLink.Gate.Screen
import TermLink.Network
import TermLink.SessionInfo

/-!
# Session requests

What a gate knows of a client that asks for a session, and what it makes of that: the dial to the
backend, or the refusal of which the client is told.

## Implementation notes

A request is refused at the first of these: no key was shown; the key is not admitted; the key
could not be verified; there is no terminal; the backend cannot be had.
-/

namespace TermLink.Gate

/-- What is known of a client that asks for a session. -/
structure SessionRequest where
  fingerprint : Option String
  verdict : Option Verdict
  /-- The size of the client's terminal, if it has one. -/
  size : Option Geometry
  repo : Option String
  deriving DecidableEq, Repr

/-- The phases of a session. -/
inductive Phase where
  | unauthenticated
  | authenticated
  | negotiating
  | streaming
  | terminated
  deriving DecidableEq, Repr

/-- Why there is no session. -/
inductive Refusal where
  | unauthenticated
  | unverified
  | terminalMissing
  | backendUnavailable
  /-- The backend was reached, but did not get the first message. -/
  | notBegun
  deriving DecidableEq, Repr

namespace Refusal

/-- What the client is told. -/
def notice : Refusal → String
  | .unauthenticated => "Authentication failed" ++ lineEnd
  | .unverified => "Could not verify your key right now. Please try again shortly." ++ lineEnd
  | .terminalMissing => "PTY required. Use: ssh -t ..." ++ lineEnd
  | .backendUnavailable => "Failed to connect to backend" ++ lineEnd
  | .notBegun => "Failed to initialize session" ++ lineEnd

/-- The exit status for the client. -/
def status : Refusal → Nat
  | .unauthenticated => 2
  | .unverified => 3
  | .terminalMissing => 1
  | .backendUnavailable => 4
  | .notBegun => 4

/-- The phases that were entered before the refusal. -/
def phases : Refusal → List Phase
  | .unauthenticated => []
  | .unverified => []
  | .terminalMissing => [.authenticated]
  | .backendUnavailable => [.authenticated, .negotiating]
  | .notBegun => [.authenticated, .negotiating]

end Refusal

/-- A dial to the backend: the header fields that go with it, and the message that is sent first
once the connection is open. -/
structure Dial where
  headers : Headers
  first : Message
  deriving DecidableEq, Repr

/-- What becomes of a dial. -/
inductive Dial.Outcome where
  /-- The backend was not reached, did not answer in time, or refused. -/
  | failed
  /-- The connection was opened, and lost before the first message was sent. -/
  | lost
  | opened
  deriving DecidableEq, Repr

/-- What becomes of a dial over a network, where `answer` is what a backend that is reached makes of
it. -/
def Dial.Outcome.across (network : Network) (answer : Dial.Outcome) : Dial.Outcome :=
  match network.dial with
  | .ok () => answer
  | .error _ => .failed

namespace SessionRequest

/-- The name of the session in logs. -/
def label (r : SessionRequest) : String :=
  match r.fingerprint with
  | none => "-"
  | some fingerprint => Label.ofFingerprint fingerprint

/-- The fingerprint of the client's key, if it is known to be admitted. -/
def identity (r : SessionRequest) : Except Refusal String :=
  match r.fingerprint, r.verdict with
  | none, _ => .error .unauthenticated
  | some _, none => .error .unauthenticated
  | some _, some .rejected => .error .unauthenticated
  | some _, some .indeterminate => .error .unverified
  | some fingerprint, some .accepted => .ok fingerprint
  | some fingerprint, some .registered => .ok fingerprint

/-- The dial that a request leads to. -/
def dial (backend : Backend) (r : SessionRequest) : Except Refusal Dial := do
  let id ← r.identity
  match r.size with
  | none => .error .terminalMissing
  | some size =>
    match SessionInfo.toHeaders? id size r.repo backend.secret with
    | some headers => .ok { headers, first := .request size r.repo }
    | none => .error .backendUnavailable

end SessionRequest
end TermLink.Gate
