import TermLink.Edge.Options
import TermLink.Gate.Options
import TermLink.Host.Options
import TermLink.Json.Tree

/-!
# The programs

The three programs, and what each makes of its command line and its variables: the settings with
which it would run, as a JSON value, or why it cannot.
-/

namespace TermLink

/-- The programs. -/
inductive Program where
  | gate
  | host
  | edge
  deriving DecidableEq, Repr

/-- The settings of a gate as a JSON value. -/
def Gate.Settings.toJson (s : Gate.Settings) : Json := .object
  [("listen", .text s.listen.render), ("host_key", .text s.hostKey), ("key_db", .text s.keyStore),
    ("auto_register", .boolean s.autoRegister), ("worker_url", .text s.backend.url),
    ("auth_secret", .ofText? s.backend.secret), ("ping_interval_ms", .ofNat s.backend.pingMillis),
    ("dial_timeout_secs", .ofNat s.backend.dialSeconds)]

/-- The word for an action on the known keys, and the key that it is about. -/
def Gate.KeysAction.words : Gate.KeysAction → String × Option String
  | .list => ("list", none)
  | .remove fingerprint => ("remove", some fingerprint)
  | .count => ("count", none)

/-- An action on the known keys as a JSON value. -/
def Gate.KeysAction.toJson (a : Gate.KeysAction) (keyStore : String) : Json := .object
  [("keys", .text a.words.1), ("fingerprint", .ofText? a.words.2), ("key_db", .text keyStore)]

/-- The settings of a host as a JSON value. -/
def Host.Settings.toJson (s : Host.Settings) : Json := .object
  [("listen", .text s.listen.render), ("workspace_root", .text s.workspaceRoot),
    ("program", .text s.program), ("args", .array (s.arguments.map .text)),
    ("buffer_bytes", .ofNat s.backlogCeiling), ("broadcast_timeout_ms", .ofNat s.sendMillis),
    ("client_queue_depth", .ofNat s.queueDepth), ("exit_linger_secs", .ofNat s.lingerSeconds),
    ("git_base_url", .text s.gitBase)]

/-- The settings of an edge as a JSON value. -/
def Edge.ServerSettings.toJson (s : Edge.ServerSettings) : Json := .object
  [("listen", .text s.listen.render), ("bridge_url", .text s.settings.hostUrl),
    ("ws_url", .text s.settings.streamUrl), ("mode", .text s.settings.mode.word),
    ("drain_on_ping", .boolean s.settings.drainOnPing),
    ("poll_interval_ms", .ofNat s.settings.pollMillis),
    ("auth_secret", .ofText? s.settings.secret), ("bridge_timeout_secs", .ofNat s.timeoutSeconds)]

namespace Program

open CommandLine

/-- Why a program cannot run as it was told to. -/
inductive Fault where
  | usage (cause : CommandLine.Usage)
  | gate (cause : Gate.Fault)
  | host (cause : Host.Fault)
  | edge (cause : Edge.Fault)
  deriving DecidableEq, Repr

/-- The words for a fault. -/
def Fault.message : Fault → String
  | .usage cause => cause.message
  | .gate cause => cause.message
  | .host cause => cause.message
  | .edge cause => cause.message

/-- The settings of a gate, or the action on its keys that is asked for. -/
def configureGate (args : List String) (env : Variables) : Except Fault Json := do
  match ← (Gate.readOptions args env).mapError .usage with
  | (r, some action) => .ok (action.toJson (r.text Gate.Options.keyStore))
  | (r, none) => ((Gate.Settings.ofReading r).map Gate.Settings.toJson).mapError .gate

/-- The settings of a host. -/
def configureHost (args : List String) (env : Variables) : Except Fault Json := do
  let r ← (Host.readOptions args env).mapError .usage
  ((Host.Settings.ofReading r env).map Host.Settings.toJson).mapError .host

/-- The settings of an edge. -/
def configureEdge (args : List String) (env : Variables) : Except Fault Json := do
  let r ← (Edge.readOptions args env).mapError .usage
  ((Edge.ServerSettings.ofReading r).map Edge.ServerSettings.toJson).mapError .edge

/-- What a program is told by its command line and its variables. -/
def configure : Program → List String → Variables → Except Fault Json
  | .gate => configureGate
  | .host => configureHost
  | .edge => configureEdge

/-- The variables of which some program reads the value. -/
def variableNames : List String :=
  "SHELL" :: (Gate.command.options ++ Host.command.options ++ Edge.command.options).map
    CommandLine.Opt.variableName

end Program
end TermLink
