import TermLink.Geometry
import TermLink.Text.Blank

/-!
# Messages

What the three parties of a session say to each other. A gate asks for a terminal with `init`,
sends what its client types as `data` and its window as `resize`, and keeps the way open with
`ping`. A terminal answers with `data`, `status` and `error`, and with `exit` when its process has
ended.
-/

namespace TermLink

/-- A message of a session. -/
inductive Message where
  /-- Asks for a terminal of a size, in the workspace of a repository if one is named. -/
  | init (size : Geometry) (repo : Option String)
  /-- Terminal input or output. -/
  | data (payload : Bytes)
  | resize (size : Geometry)
  /-- The process has ended with this code. -/
  | exit (code : Int32)
  | ping (timestamp : Int64)
  | pong (timestamp : Int64)
  | error (text : String)
  | status (text : String)
  deriving DecidableEq, Repr, Inhabited

namespace Message

/-- The kinds of message. -/
inductive Kind where
  | init | data | resize | exit | ping | pong | error | status
  deriving DecidableEq, Repr

/-- The kind of a message. -/
def kind : Message → Kind
  | .init .. => .init
  | .data _ => .data
  | .resize _ => .resize
  | .exit _ => .exit
  | .ping _ => .ping
  | .pong _ => .pong
  | .error _ => .error
  | .status _ => .status

/-- Every kind. -/
def Kind.all : List Kind := [.init, .data, .resize, .exit, .ping, .pong, .error, .status]

/-- The tag of a kind on the wire. -/
def Kind.tag : Kind → String
  | .init => "init"
  | .data => "data"
  | .resize => "resize"
  | .exit => "exit"
  | .ping => "ping"
  | .pong => "pong"
  | .error => "error"
  | .status => "status"

/-- The kind that a tag names. -/
def Kind.ofTag? (tag : String) : Option Kind := Kind.all.find? (·.tag = tag)

/-- A request for a terminal. A blank selector is no selector. -/
def request (size : Geometry) (repo : Option String) : Message :=
  .init size (repo.filter fun r => !Text.blank r)

/-- The size that a message asks for. -/
def geometry? : Message → Option Geometry
  | .init size _ => some size
  | .resize size => some size
  | _ => none

/-- The messages with the payloads of neighbouring `data` put together. -/
def joinData : List Message → List Message
  | [] => []
  | .data a :: rest =>
    match joinData rest with
    | .data b :: more => .data (a ++ b) :: more
    | joined => .data a :: joined
  | m :: rest => m :: joinData rest

end Message
end TermLink
