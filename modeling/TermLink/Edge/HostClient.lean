import TermLink.Http
import TermLink.SessionInfo

/-!
# Asking a host

What an edge asks a terminal host in single requests, and what it makes of the replies.

## Implementation notes

A request either gets a reply or fails on the way; how, is up to the exchange, which also carries
whatever the request changes at the other end.
-/

namespace TermLink.Edge

/-- Sends a request to a host of state `σ`. It fails with a reason where no reply comes back. -/
abbrev Exchange (σ : Type) := Http.Request → σ → σ × Except String Http.Reply

/-- Why the host did not do what it was asked. -/
inductive HostFault where
  /-- No usable reply came back. -/
  | unreached (detail : String)
  | refused (status : Nat) (text : String)
  deriving DecidableEq, Repr

namespace HostFault

/-- The words for a fault. -/
def message : HostFault → String
  | .unreached detail => "bridge request failed: " ++ detail
  | .refused status text =>
    "bridge returned HTTP " ++ String.ofList (Text.digits status) ++ ": " ++ text

/-- The words of the host itself where it gave any. -/
def brief : HostFault → String
  | .refused _ text => text
  | other => other.message

end HostFault

/-- What the body of a refusal says: the text of its error, or else the body itself. -/
def refusalText (body : Bytes) : String :=
  match Message.decode? body with
  | some (.error text) => text
  | _ => Text.trimmed (Utf8.decodeLossy body)

/-- The body of a reply to an accepted request. -/
def accepted : Except String Http.Reply → Except HostFault Bytes
  | .error detail => .error (.unreached detail)
  | .ok reply =>
    if reply.isSuccess then .ok reply.body
    else .error (.refused reply.status (refusalText reply.body))

/-- The request for a terminal. -/
def initRequest (m : Message) : Http.Request :=
  { method := "POST", path := "/init", body := m.encode }

/-- The request to give the terminal a message as input. -/
def writeRequest (m : Message) : Http.Request :=
  { method := "POST", path := "/write", body := m.encode }

/-- The request for the terminal's recent output. -/
def readRequest : Http.Request := { method := "GET", path := "/read" }

/-- The messages of a body. Lines that are no messages do not matter. -/
def messagesOf (body : Bytes) : List Message :=
  (Message.decodeLines body).filterMap Except.toOption

/-- What a host reports of a terminal that it was asked for. -/
structure InitReport where
  resized : Bool
  pid : Option UInt32
  warning : Option String
  deriving DecidableEq, Repr

namespace InitReport

/-- The fields of a report in order. -/
def fields : List Json.Field := [⟨"resized", []⟩, ⟨"pid", []⟩, ⟨"warning", []⟩]

/-- The report whose fields are given in these slots. -/
def ofSlots? : List Json.Slot → Option InitReport
  | [resized, pid, warning] => do
    some ⟨← Json.readBoolean? resized, ← Json.readOptionalUInt32? pid,
      ← Json.readOptionalText? warning⟩
  | _ => none

/-- The report that a JSON value is. -/
def ofJson? : Json → Option InitReport
  | .object given => (Json.slotsOfFields? fields given).bind ofSlots?
  | .array given => (Json.slotsOfItems? fields given).bind ofSlots?
  | _ => none

/-- The report in a body. -/
def decode? (body : Bytes) : Option InitReport := do
  let text ← Utf8.decode? body
  let value ← Json.parse? text.toList
  ofJson? value

end InitReport

/-- What is said of a reply that is no report. -/
def unreadableReport : String := "error decoding response body"

/-- Asks for a terminal. -/
def requestTerminal {σ : Type} (ask : Exchange σ) (h : σ) (m : Message) :
    σ × Except HostFault InitReport :=
  let (h, reply) := ask (initRequest m) h
  match accepted reply with
  | .error e => (h, .error e)
  | .ok body =>
    match InitReport.decode? body with
    | some report => (h, .ok report)
    | none => (h, .error (.unreached unreadableReport))

/-- Gives the terminal a message as input. -/
def submit {σ : Type} (ask : Exchange σ) (h : σ) (m : Message) : σ × Except HostFault Unit :=
  let (h, reply) := ask (writeRequest m) h
  (h, (accepted reply).map fun _ => ())

/-- Fetches the terminal's recent output. -/
def fetch {σ : Type} (ask : Exchange σ) (h : σ) : σ × Except HostFault (List Message) :=
  let (h, reply) := ask readRequest h
  (h, (accepted reply).map messagesOf)

end TermLink.Edge
