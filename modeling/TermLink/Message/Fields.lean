import TermLink.Base64
import TermLink.Json.Record
import TermLink.Message.Basic

/-!
# The fields of a message

On the wire a message is a record with its tag in front: an object with the tag under `type`, or an
array that begins with the tag. `Kind.fields` says which fields a kind has, and `ofSlots?` reads a
message from their slots.
-/

namespace TermLink.Message

open Json

/-- The field that holds the tag. -/
def tagName : String := "type"

/-- The fields of a kind in order. -/
def Kind.fields : Kind → List Field
  | .init => [⟨"cols", []⟩, ⟨"rows", []⟩, ⟨"repo", []⟩]
  | .data => [⟨"data", []⟩]
  | .resize => [⟨"cols", []⟩, ⟨"rows", []⟩]
  | .exit => [⟨"code", []⟩]
  | .ping => [⟨"timestamp", []⟩]
  | .pong => [⟨"timestamp", []⟩]
  | .error => [⟨"message", ["error"]⟩]
  | .status => [⟨"message", []⟩]

/-- Bytes in base64; none by default. -/
def readPayload? : Slot → Option Bytes
  | none => some []
  | some (.text s) => Base64.decode? s.toList
  | some _ => none

/-- The message of a kind whose fields are given in these slots. -/
def ofSlots? : Kind → List Slot → Option Message
  | .init, [cols, rows, repo] => do
    some (.init ⟨← readInt64? cols, ← readInt64? rows⟩ (← readOptionalText? repo))
  | .data, [payload] => (readPayload? payload).map .data
  | .resize, [cols, rows] => do some (.resize ⟨← readInt64? cols, ← readInt64? rows⟩)
  | .exit, [code] => (readInt32? code).map .exit
  | .ping, [timestamp] => (readInt64? timestamp).map .ping
  | .pong, [timestamp] => (readInt64? timestamp).map .pong
  | .error, [words] => (readText? words).map .error
  | .status, [words] => (readText? words).map .status
  | _, _ => none

/-- The kind that a value names as a tag. -/
def Kind.ofJson? : Json → Option Kind
  | .text tag => Kind.ofTag? tag
  | _ => none

/-- The message that a JSON value is. -/
def ofJson? : Json → Option Message
  | .object given =>
    match fieldsNamed [tagName] given with
    | [tag] => do
      let k ← Kind.ofJson? tag
      let slots ← slotsOfFields? k.fields given
      ofSlots? k slots
    | _ => none
  | .array (tag :: given) => do
    let k ← Kind.ofJson? tag
    let slots ← slotsOfItems? k.fields given
    ofSlots? k slots
  | _ => none

/-- A number of 64 bits as a JSON value. -/
def int64Json (n : Int64) : Json := Json.ofInt n.toInt

/-- The values of a message's fields, in the order of `Kind.fields`. An absent selector has no
value. -/
def slots : Message → List Slot
  | .init size repo => [some (int64Json size.cols), some (int64Json size.rows), repo.map .text]
  | .data payload => [some (.text (String.ofList (Base64.encode payload)))]
  | .resize size => [some (int64Json size.cols), some (int64Json size.rows)]
  | .exit code => [some (Json.ofInt code.toInt)]
  | .ping timestamp => [some (int64Json timestamp)]
  | .pong timestamp => [some (int64Json timestamp)]
  | .error words => [some (.text words)]
  | .status words => [some (.text words)]

/-- The fields of a message that have a value, under the names by which they are written. -/
def namedFields (m : Message) : List (String × Json) :=
  (m.kind.fields.zip m.slots).filterMap fun (f, slot) => slot.map (f.name, ·)

/-- The object that a message is on the wire, with its tag first. -/
def toJson (m : Message) : Json :=
  .object ((tagName, .text m.kind.tag) :: m.namedFields)

end TermLink.Message
