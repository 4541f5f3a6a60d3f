import TermLink.Header
import TermLink.Message.Lines

/-!
# Requests and responses

The part of HTTP that a terminal host and those who ask it have in common.
-/

namespace TermLink.Http

/-- A request: its method, the path that it asks for, its header fields and its body. -/
structure Request where
  method : String
  path : String
  body : Bytes := []
  headers : Headers := []
  deriving DecidableEq, Repr

/-- What a response carries. -/
inductive Content where
  /-- No body, under the type that one would have had. -/
  | empty (type : String)
  | json (value : Json)
  /-- Messages, one on each line. -/
  | lines (messages : List Message)
  | text (type : String) (text : String)
  deriving Repr

/-- The type of plain text. -/
def plainText : String := "text/plain; charset=utf-8"

/-- The type of a body. -/
def Content.type : Content → String
  | .empty type => type
  | .json _ => "application/json"
  | .lines _ => "application/x-ndjson"
  | .text kind _ => kind

/-- The bytes of a body. -/
def Content.bytes : Content → Bytes
  | .empty _ => []
  | .json value => Utf8.encode (String.ofList value.render)
  | .lines messages => Message.encodeLines messages
  | .text _ words => Utf8.encode words

/-- A response. -/
structure Response where
  status : Nat
  content : Content := .empty ""
  /-- The methods that would have been accepted, where the request's was not. -/
  allow : Option String := none
  deriving Repr

/-- A response as the one who asked gets it. -/
structure Reply where
  status : Nat
  body : Bytes := []
  deriving DecidableEq, Repr

/-- The response as the one who asked gets it. -/
def Response.reply (r : Response) : Reply := ⟨r.status, r.content.bytes⟩

/-- Whether the request was accepted. -/
def Reply.isSuccess (r : Reply) : Bool := 200 ≤ r.status && r.status < 300

/-- The response without its body. -/
def Response.bodiless (r : Response) : Response := { r with content := .empty r.content.type }

/-- How a path can be used. -/
inductive Access where
  /-- By `GET`, and by `HEAD` for the same without the body. -/
  | get
  | post
  deriving DecidableEq, Repr

/-- The methods of an access, as a response names them. -/
def Access.allowed : Access → String
  | .get => "GET,HEAD"
  | .post => "POST"

/-- Whether a method has this access. -/
def Access.admits : Access → String → Bool
  | .get, m => m = "GET" || m = "HEAD"
  | .post, m => m = "POST"

/-- The response where a path cannot be used by the method. -/
def notAllowed (a : Access) : Response := { status := 405, allow := some a.allowed }

/-- The response where there is no such path. -/
def notFound : Response := { status := 404 }

/-- The largest body that is read. -/
def bodyLimit : Nat := 2097152

end TermLink.Http
