import TermLink.Host.Basic
import TermLink.Http.Upgrade

/-!
# A host's requests

The paths under which a host can be asked, what each does with its body, and how refusals are
answered. A refused request changes nothing, but that a write which fails may have written a part.

## Implementation notes

A request is refused at the first of these: its body is too large; its body is no message; the
message is of a kind that the path does not take; there is no terminal; the terminal refuses.
-/

namespace TermLink.Host

/-- Why a request is refused. -/
inductive Refusal where
  /-- The body holds a message of another kind than the path expects. -/
  | unexpected (expected : String) (kind : Message.Kind)
  | malformed (cause : Message.FrameError)
  | terminal (cause : TerminalError)
  deriving DecidableEq, Repr

namespace Refusal

/-- The words for a refusal. -/
def message : Refusal → String
  | .unexpected expected kind =>
    "expected " ++ expected ++ " message, got `" ++ kind.tag ++ "`"
  | .malformed cause => "malformed message: " ++ cause.message
  | .terminal cause => cause.message

/-- The status of a refusal: the request is wrong, or the terminal is not in a state for it, or
the host has failed. -/
def status : Refusal → Nat
  | .unexpected .. => 400
  | .malformed _ => 400
  | .terminal (.unsupported _) => 400
  | .terminal .notInitialized => 409
  | .terminal .notRunning => 409
  | .terminal (.spawnFailed _) => 500
  | .terminal (.writeFailed _) => 500
  | .terminal (.resizeFailed _) => 500

/-- The response to a refused request. -/
def response (r : Refusal) : Http.Response :=
  { status := r.status, content := .json (Message.error r.message).toJson }

end Refusal

/-- The answer to a request for a terminal as a JSON value. -/
def Started.toJson (s : Started) : Json :=
  .object (
    [("ok", .boolean true), ("resized", .boolean s.resized), ("pid", .ofNat s.pid),
      ("cols", .ofNat s.size.cols), ("rows", .ofNat s.size.rows), ("workdir", .text s.workdir)]
    ++ (s.warning.map fun w => ("warning", Json.text w.message)).toList)

/-- The status of a host as a JSON value. -/
def statusJson : Option Status → Json
  | none => .object [("exists", .boolean false), ("running", .boolean false), ("clients", .ofNat 0)]
  | some s => .object (
    [("exists", .boolean true), ("running", .boolean s.running)]
    ++ (s.exitCode.map fun c => ("exit_code", Json.ofInt c.toInt)).toList
    ++ [("workdir", .text s.workdir), ("clients", .ofNat s.clients), ("pid", .ofNat s.pid)])

/-- The message in a body. -/
def messageOf (body : Bytes) : Except Refusal Message :=
  (Message.decode body).mapError .malformed

/-- The terminal that a body asks for. A blank body asks for the default. -/
def requestOf (body : Bytes) : Except Refusal (Geometry × Option String) :=
  if body.all Bytes.isBlank then .ok (⟨0, 0⟩, none)
  else do
    match ← messageOf body with
    | .init size repo => .ok (size, repo)
    | .resize size => .ok (size, none)
    | other => .error (.unexpected "init" other.kind)

/-- The size that a body asks for. -/
def geometryOf (body : Bytes) : Except Refusal Geometry := do
  let m ← messageOf body
  match m.geometry? with
  | some size => .ok size
  | none => .error (.unexpected "resize" m.kind)

/-- The response to an accepted request, or to the refusal. -/
def respond {α : Type} (content : α → Http.Content) :
    Host × Except TerminalError α → Host × Http.Response
  | (h, .ok a) => (h, { status := 200, content := content a })
  | (h, .error e) => (h, (Refusal.terminal e).response)

/-- The answer where there is nothing to tell but that the request was accepted. -/
def accepted : Http.Content := .json (.object [("ok", .boolean true)])

/-- Starts or resizes the terminal as the body asks. -/
def postInit (h : Host) (env : Environment) (body : Bytes) : Host × Http.Response :=
  match requestOf body with
  | .ok (size, repo) => respond (fun s => .json s.toJson) (h.establish env size repo)
  | .error r => (h, r.response)

/-- Gives the terminal the body's message as input. -/
def postWrite (h : Host) (body : Bytes) : Host × Http.Response :=
  match messageOf body with
  | .ok m => respond (fun _ => accepted) (h.write m)
  | .error r => (h, r.response)

/-- Fetches the terminal's recent output. -/
def getRead (h : Host) : Host × Http.Response := respond .lines h.read

/-- Gives the terminal the body's message as input and fetches its recent output. -/
def postWriteRead (h : Host) (body : Bytes) : Host × Http.Response :=
  match messageOf body with
  | .ok m => respond .lines (h.writeRead m)
  | .error r => (h, r.response)

/-- Changes the terminal's size as the body asks. -/
def postResize (h : Host) (body : Bytes) : Host × Http.Response :=
  match geometryOf body with
  | .ok g =>
    respond
      (fun s : Size => .json (.object
        [("ok", .boolean true), ("cols", .ofNat s.cols), ("rows", .ofNat s.rows)]))
      (h.resize g)
  | .error r => (h, r.response)

/-- The paths of a host. -/
inductive Route where
  | health | init | write | read | writeRead | resize | status | stream | metrics
  deriving DecidableEq, Repr

/-- Every route. -/
def Route.all : List Route :=
  [.health, .init, .write, .read, .writeRead, .resize, .status, .stream, .metrics]

/-- The path of a route. -/
def Route.path : Route → String
  | .health => "/health"
  | .init => "/init"
  | .write => "/write"
  | .read => "/read"
  | .writeRead => "/write-read"
  | .resize => "/resize"
  | .status => "/status"
  | .stream => "/ws"
  | .metrics => "/metrics"

/-- The route at a path. -/
def Route.ofPath? (path : String) : Option Route := Route.all.find? (·.path = path)

/-- How a route is used. -/
def Route.access : Route → Http.Access
  | .init | .write | .writeRead | .resize => .post
  | .health | .read | .status | .stream | .metrics => .get

/-- The type of a metrics report. -/
def metricsType : String := "text/plain; version=0.0.4"

/-- The counts by the names under which they are reported. -/
def Counters.named (c : Counters) : List (String × Nat) :=
  [("pty_bridge_output_bytes_total", c.outputBytes),
    ("pty_bridge_output_trimmed_bytes_total", c.trimmedBytes),
    ("pty_bridge_clients_attached_total", c.clientsAttached),
    ("pty_bridge_clients_evicted_total", c.clientsEvicted),
    ("pty_bridge_messages_dropped_total", c.messagesDropped)]

/-- The report of the counts, one on each line. -/
def Counters.report (c : Counters) : String :=
  String.join (c.named.map fun (name, n) => name ++ " " ++ String.ofList (Text.digits n) ++ "\n")

/-- What a route answers, where `metrics` says whether counts are reported. A stream needs a
connection that can change its protocol, which a plain request is not. -/
def serve (h : Host) (env : Environment) (metrics : Bool) (r : Http.Request) :
    Route → Host × Http.Response
  | .health => (h, { status := 200, content := .text Http.plainText "OK" })
  | .init => h.postInit env r.body
  | .write => h.postWrite r.body
  | .read => h.getRead
  | .writeRead => h.postWriteRead r.body
  | .resize => h.postResize r.body
  | .status => (h, { status := 200, content := .json (statusJson h.status) })
  | .stream => (h, (Http.upgradeRefusal r).response)
  | .metrics =>
    if metrics then (h, { status := 200, content := .text metricsType h.counters.report })
    else (h, Http.notFound)

/-- The response to a body that is too large. -/
def tooLarge : Http.Response :=
  { status := 413
    content := .text Http.plainText "Failed to buffer the request body: length limit exceeded" }

/-- Answers a request for a route by a method that the route admits. -/
def handleRoute (h : Host) (env : Environment) (metrics : Bool) (r : Http.Request)
    (route : Route) : Host × Http.Response :=
  if route.access = .post && Http.bodyLimit < r.body.length then (h, tooLarge)
  else h.serve env metrics r route

/-- Answers a request. `HEAD` does what `GET` does and leaves the body out. -/
def handle (h : Host) (env : Environment) (metrics : Bool) (r : Http.Request) :
    Host × Http.Response :=
  match Route.ofPath? r.path with
  | none => (h, Http.notFound)
  | some route =>
    if route.access.admits r.method then
      let (next, response) := h.handleRoute env metrics r route
      (next, if r.method = "HEAD" then response.bodiless else response)
    else (h, Http.notAllowed route.access)

end TermLink.Host
