import TermLink.Sequence

/-!
# Settings of an edge

Where the edge finds the terminal host and how it talks to it: over a stream, or by fetching the
output now and then.
-/

namespace TermLink.Edge

/-- How an edge talks to the terminal host. -/
inductive Mode where
  | stream
  | poll
  deriving DecidableEq, Repr

/-- The settings of an edge that do not concern its own address. -/
structure Settings where
  hostUrl : String
  mode : Mode
  /-- Whether a ping from the gate makes the edge fetch output. -/
  drainOnPing : Bool := true
  /-- The time between two fetches; none where it is zero. -/
  pollMillis : Nat := 50
  secret : Option String := none
  deriving DecidableEq, Repr

/-- Why settings cannot be used. -/
inductive Settings.Fault where
  | scheme (url : String)
  /-- Output would never be fetched. -/
  | neverFetches
  deriving DecidableEq, Repr

/-- The words for a fault. -/
def Settings.Fault.message : Settings.Fault → String
  | .scheme url => "bridge URL must be http:// or https://, got " ++ url
  | .neverFetches => "poll mode needs --drain-on-ping or a non-zero --poll-interval-ms"

/-- An address without slashes at its end. -/
def trimUrl (url : String) : String := String.ofList (trimEnd (· = '/') url.toList)

namespace Settings

/-- Checks that settings can be used. -/
def validate (s : Settings) : Except Fault Unit :=
  let url := s.hostUrl.toList
  if !beginsWith "http://".toList url && !beginsWith "https://".toList url then
    .error (.scheme s.hostUrl)
  else if s.mode = .poll && !s.drainOnPing && s.pollMillis = 0 then .error .neverFetches
  else .ok ()

/-- The address of the host's streams. -/
def streamUrl (s : Settings) : String :=
  let url := s.hostUrl.toList
  let base :=
    match afterLead? "https://".toList url, afterLead? "http://".toList url with
    | some rest, _ => "wss://".toList ++ rest
    | none, some rest => "ws://".toList ++ rest
    | none, none => url
  String.ofList base ++ "/ws"

end Settings
end TermLink.Edge
