import TermLink.CommandLine
import TermLink.SocketAddress
import TermLink.Text.Blank

/-!
# The options of a gate

A gate either serves, or lists, counts or removes the keys that it knows.
-/

namespace TermLink.Gate

open CommandLine

/-- What is done with the known keys. -/
inductive KeysAction where
  | list
  | remove (fingerprint : String)
  | count
  deriving DecidableEq, Repr

/-- How a gate reaches its backend. -/
structure Backend where
  url : String
  secret : Option String := none
  /-- The time between two pings; none where it is zero. -/
  pingMillis : Nat := 0
  dialSeconds : Nat := 30
  deriving DecidableEq, Repr

/-- The settings of a gate. -/
structure Settings where
  listen : SocketAddress
  hostKey : String
  keyStore : String
  autoRegister : Bool
  backend : Backend
  deriving DecidableEq, Repr

namespace Options

def listen : Opt :=
  { name := "listen", variableName := "SSH_LISTEN_ADDR", fallback := some (.text "0.0.0.0:2222") }

def hostKey : Opt :=
  { name := "host-key", variableName := "SSH_HOST_KEY_PATH", domain := .path
    fallback := some (.text "/etc/ssh-relay/host_key") }

def keyStore : Opt :=
  { name := "key-db", variableName := "SSH_KEY_DB_PATH", domain := .path
    fallback := some (.text "/var/lib/ssh-relay/keys.db") }

def backendUrl : Opt := { name := "worker-url", variableName := "WORKER_URL" }

def secret : Opt := { name := "auth-secret", variableName := "AUTH_SECRET" }

def autoRegister : Opt :=
  { name := "auto-register", variableName := "AUTO_REGISTER", domain := .boolean
    fallback := some (.boolean true) }

def pingMillis : Opt :=
  { name := "ping-interval-ms", variableName := "PING_INTERVAL_MS", domain := .number
    fallback := some (.number 100) }

def dialSeconds : Opt :=
  { name := "dial-timeout-secs", variableName := "DIAL_TIMEOUT_SECS", domain := .number
    fallback := some (.number 30) }

end Options

/-- The paths of a gate's commands. -/
def menu : Menu :=
  [["keys"], ["help"], ["keys", "list"], ["keys", "remove"], ["keys", "count"], ["keys", "help"]]

/-- The command line of a gate. -/
def command : Command where
  options :=
    [Options.listen, Options.hostKey, Options.keyStore, Options.backendUrl, Options.secret,
      Options.autoRegister, Options.pingMillis, Options.dialSeconds]
  hasVersion := true

/-- What follows the word for the known keys. -/
def keysCommand : Command := { path := ["keys"] }

/-- What follows the word for an action on the known keys. -/
def actionCommand (word : String) : Command where
  path := ["keys", word]
  operands := if word = "remove" then .one else .none

/-- The action that a word and its operand ask for. -/
def actionOf (word : String) (operands : List String) : KeysAction :=
  match word, operands with
  | "remove", [fingerprint] => .remove fingerprint
  | "count", _ => .count
  | _, _ => .list

/-- Reads an action on the known keys. -/
def readAction (args : List String) : Except Usage KeysAction := do
  match ← CommandLine.read menu keysCommand args with
  | .ended _ => .error .commandExpected
  | .command _ word rest =>
    let c := actionCommand word
    match ← CommandLine.read menu c rest with
    | .ended r =>
      let r ← r.finish c []
      .ok (actionOf word r.operands)
    | .command .. => .error .unknownCommand

/-- The command line of a gate as read, with an action on the known keys if one is asked for. -/
def readOptions (args : List String) (env : Variables) :
    Except Usage (Reading × Option KeysAction) := do
  match ← CommandLine.read menu command args with
  | .ended r => .ok (← r.finish command env, none)
  | .command r _ rest =>
    let action ← readAction rest
    .ok (← r.finish command env, some action)

/-- Why a gate's options are no settings. -/
inductive Fault where
  | address (text : String)
  | backendMissing
  | backendScheme (url : String)
  deriving DecidableEq, Repr

/-- The words for a fault. -/
def Fault.message : Fault → String
  | .address text => "invalid listen address: " ++ text
  | .backendMissing => "worker URL is required: --worker-url or WORKER_URL"
  | .backendScheme url => "worker URL must be ws:// or wss://, got " ++ url

/-- The address of the backend, if it can be used. -/
def backendUrlOf (url : Option String) : Except Fault String :=
  match url.filter fun u => !Text.blank u with
  | none => .error .backendMissing
  | some u =>
    if beginsWith "ws://".toList u.toList || beginsWith "wss://".toList u.toList then .ok u
    else .error (.backendScheme u)

/-- The settings that options make. -/
def Settings.ofReading (r : Reading) : Except Fault Settings := do
  let address := r.text Options.listen
  let listen ← match SocketAddress.parse? address with
    | some a => .ok a
    | none => .error (.address address)
  let url ← backendUrlOf (r.text? Options.backendUrl)
  .ok {
    listen
    hostKey := r.text Options.hostKey
    keyStore := r.text Options.keyStore
    autoRegister := r.boolean Options.autoRegister
    backend := {
      url
      secret := (r.text? Options.secret).filter (· ≠ "")
      pingMillis := r.number Options.pingMillis
      dialSeconds := r.number Options.dialSeconds } }

end TermLink.Gate
