import TermLink.CommandLine
import TermLink.Edge.Settings
import TermLink.SocketAddress

/-!
# The options of an edge

An edge is told where it listens, where the terminal host is, and how to talk to it.
-/

namespace TermLink.Edge

open CommandLine

/-- The settings of an edge with its own address. -/
structure ServerSettings where
  listen : SocketAddress
  settings : Settings
  timeoutSeconds : Nat
  deriving DecidableEq, Repr

namespace Options

def listen : Opt :=
  { name := "listen", variableName := "EDGE_PROXY_LISTEN", fallback := some (.text "0.0.0.0:8081") }

def hostUrl : Opt :=
  { name := "bridge-url", variableName := "BRIDGE_URL"
    fallback := some (.text "http://127.0.0.1:8080") }

def mode : Opt :=
  { name := "mode", variableName := "EDGE_PROXY_MODE", domain := .choice ["stream", "poll"]
    fallback := some (.text "stream") }

def drainOnPing : Opt :=
  { name := "drain-on-ping", variableName := "EDGE_PROXY_DRAIN_ON_PING", domain := .boolean
    fallback := some (.boolean true) }

def pollMillis : Opt :=
  { name := "poll-interval-ms", variableName := "EDGE_PROXY_POLL_INTERVAL_MS", domain := .number
    fallback := some (.number 50) }

def secret : Opt := { name := "auth-secret", variableName := "AUTH_SECRET" }

def timeoutSeconds : Opt :=
  { name := "bridge-timeout-secs", variableName := "EDGE_PROXY_BRIDGE_TIMEOUT_SECS"
    domain := .number, fallback := some (.number 30) }

end Options

/-- The command line of an edge. -/
def command : Command where
  options :=
    [Options.listen, Options.hostUrl, Options.mode, Options.drainOnPing, Options.pollMillis,
      Options.secret, Options.timeoutSeconds]
  hasVersion := true

/-- The command line of an edge as read. -/
def readOptions (args : List String) (env : Variables) : Except Usage Reading := do
  match ← CommandLine.read [] command args with
  | .ended r => r.finish command env
  | .command .. => .error .unknownCommand

/-- Why an edge's options are no settings. -/
inductive Fault where
  | address (text : String)
  | settings (cause : Settings.Fault)
  deriving DecidableEq, Repr

/-- The words for a fault. -/
def Fault.message : Fault → String
  | .address text => "invalid listen address: " ++ text
  | .settings cause => cause.message

/-- The word for a way to talk to the host. -/
def Mode.word : Mode → String
  | .stream => "stream"
  | .poll => "poll"

/-- The settings that options make. -/
def ServerSettings.ofReading (r : Reading) : Except Fault ServerSettings := do
  let address := r.text Options.listen
  let listen ← match SocketAddress.parse? address with
    | some a => .ok a
    | none => .error (.address address)
  let settings : Settings := {
    hostUrl := trimUrl (r.text Options.hostUrl)
    mode := if r.text Options.mode = "poll" then .poll else .stream
    drainOnPing := r.boolean Options.drainOnPing
    pollMillis := r.number Options.pollMillis
    secret := (r.text? Options.secret).filter (· ≠ "") }
  match settings.validate with
  | .ok () => .ok { listen, settings, timeoutSeconds := r.number Options.timeoutSeconds }
  | .error e => .error (.settings e)

end TermLink.Edge
