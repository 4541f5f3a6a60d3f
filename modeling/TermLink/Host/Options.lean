import TermLink.CommandLine
import TermLink.SocketAddress
import TermLink.Text.Blank

/-!
# The options of a terminal host

A host is told what to run in its terminal, where repositories go, and how much it may hold back.
-/

namespace TermLink.Host

open CommandLine

/-- The settings of a host. -/
structure Settings where
  listen : SocketAddress
  workspaceRoot : String
  program : String
  arguments : List String
  backlogCeiling : Nat
  sendMillis : Nat
  queueDepth : Nat
  lingerSeconds : Nat
  gitBase : String
  deriving DecidableEq, Repr

namespace Options

def listen : Opt :=
  { name := "listen", variableName := "PTY_BRIDGE_LISTEN", fallback := some (.text "0.0.0.0:8080") }

def workspaceRoot : Opt :=
  { name := "workspace-root", variableName := "PTY_BRIDGE_WORKSPACE_ROOT", domain := .path
    fallback := some (.text "/root/dev") }

def program : Opt := { name := "command", variableName := "PTY_BRIDGE_COMMAND" }

def backlogCeiling : Opt :=
  { name := "buffer-bytes", variableName := "PTY_BRIDGE_BUFFER_BYTES", domain := .number
    fallback := some (.number 1048576) }

def sendMillis : Opt :=
  { name := "broadcast-timeout-ms", variableName := "PTY_BRIDGE_BROADCAST_TIMEOUT_MS"
    domain := .number, fallback := some (.number 5000) }

def queueDepth : Opt :=
  { name := "client-queue", variableName := "PTY_BRIDGE_CLIENT_QUEUE", domain := .number
    fallback := some (.number 256) }

def lingerSeconds : Opt :=
  { name := "exit-linger-secs", variableName := "PTY_BRIDGE_EXIT_LINGER_SECS", domain := .number
    fallback := some (.number 5) }

def gitBase : Opt :=
  { name := "git-base-url", variableName := "PTY_BRIDGE_GIT_BASE_URL"
    fallback := some (.text "https://github.com/") }

end Options

/-- The command line of a host. -/
def command : Command where
  options :=
    [Options.listen, Options.workspaceRoot, Options.program, Options.backlogCeiling,
      Options.sendMillis, Options.queueDepth, Options.lingerSeconds, Options.gitBase]
  hasVersion := true
  operands := .rest

/-- The command line of a host as read. -/
def readOptions (args : List String) (env : Variables) : Except Usage Reading := do
  match ← CommandLine.read [] command args with
  | .ended r => r.finish command env
  | .command .. => .error .unknownCommand

/-- Why a host's options are no settings. -/
inductive Fault where
  | address (text : String)
  | noBacklog
  deriving DecidableEq, Repr

/-- The words for a fault. -/
def Fault.message : Fault → String
  | .address text => "invalid listen address: " ++ text
  | .noBacklog => "--buffer-bytes must be greater than zero"

/-- The shell where the user has none. -/
def commonShell : String := "/bin/bash"

/-- The user's shell. -/
def shellOf (env : Variables) : String :=
  match env.lookup "SHELL" with
  | some s => if Text.blank s then commonShell else s
  | none => commonShell

/-- The settings that options make. -/
def Settings.ofReading (r : Reading) (env : Variables) : Except Fault Settings := do
  let address := r.text Options.listen
  let listen ← match SocketAddress.parse? address with
    | some a => .ok a
    | none => .error (.address address)
  let backlogCeiling := r.number Options.backlogCeiling
  if backlogCeiling = 0 then .error .noBacklog
  else .ok {
    listen
    workspaceRoot := r.text Options.workspaceRoot
    program := (r.text? Options.program).getD (shellOf env)
    arguments := r.operands
    backlogCeiling
    sendMillis := r.number Options.sendMillis
    queueDepth := max (r.number Options.queueDepth) 1
    lingerSeconds := r.number Options.lingerSeconds
    gitBase := r.text Options.gitBase }

end TermLink.Host
