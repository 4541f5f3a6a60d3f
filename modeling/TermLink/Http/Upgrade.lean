import TermLink.Http

/-!
# Requests to change the protocol

A stream begins as a request that asks for its connection to be turned into one. The request must
say so in its header fields, and the connection must be one that can be turned.
-/

namespace TermLink.Http

/-- Why a request does not turn its connection into a stream. -/
inductive UpgradeRefusal where
  | method
  /-- The request does not ask for the connection to be turned. -/
  | connection
  /-- It asks for another protocol, or for another version of it. -/
  | protocol
  | version
  | keyMissing
  /-- The connection cannot be turned. -/
  | fixedConnection
  deriving DecidableEq, Repr

namespace UpgradeRefusal

/-- The words for a refusal. -/
def message : UpgradeRefusal → String
  | .method => "Request method must be `GET`"
  | .connection => "Connection header did not include 'upgrade'"
  | .protocol => "`Upgrade` header did not include 'websocket'"
  | .version => "`Sec-WebSocket-Version` header did not include '13'"
  | .keyMissing => "`Sec-WebSocket-Key` header missing"
  | .fixedConnection =>
    "WebSocket request couldn't be upgraded since no upgrade state was present"

/-- The status of a refusal. -/
def status : UpgradeRefusal → Nat
  | .method => 405
  | .fixedConnection => 426
  | _ => 400

/-- The response to a refused request. -/
def response (r : UpgradeRefusal) : Response :=
  { status := r.status, content := .text plainText r.message }

end UpgradeRefusal

/-- The text of the first field of a name, in lower case; the empty one if it is no text. -/
def lowered (hs : Headers) (name : String) : List Char :=
  match (hs.first? name).bind fun h => Utf8.decode? h.value with
  | some s => s.toList.map Char.toLower
  | none => []

/-- Why a request is refused on a connection that cannot be turned. What is wrong with the request
counts before that. -/
def upgradeRefusal (r : Request) : UpgradeRefusal :=
  if r.method ≠ "GET" then .method
  else if !occurs "upgrade".toList (lowered r.headers "connection") then .connection
  else if lowered r.headers "upgrade" ≠ "websocket".toList then .protocol
  else if lowered r.headers "sec-websocket-version" ≠ "13".toList then .version
  else if (r.headers.first? "sec-websocket-key").isNone then .keyMissing
  else .fixedConnection

end TermLink.Http
