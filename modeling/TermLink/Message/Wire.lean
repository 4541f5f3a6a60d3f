import TermLink.Message.Fields
import TermLink.Text.Utf8

/-!
# Messages on the wire

A message is written as the compact text of its object. A frame is read as one JSON text with
ASCII white space around it; a frame of nothing else is empty, and any other that is not a message
is malformed.
-/

namespace TermLink.Message

/-- Why a frame is not a message. -/
inductive FrameError where
  | empty
  | malformed
  deriving DecidableEq, Repr

/-- The words for a frame that is not a message. -/
def FrameError.message : FrameError → String
  | .empty => "empty frame"
  | .malformed => "malformed message"

/-- The text of a message. -/
def wire (m : Message) : String := String.ofList m.toJson.render

/-- The frame of a message. -/
def encode (m : Message) : Bytes := Utf8.encode m.wire

/-- The frame of a message and a line feed. -/
def encodeLine (m : Message) : Bytes := m.encode ++ [Bytes.lineFeed]

/-- The message that the bytes of a text spell. -/
def ofText? (bytes : Bytes) : Option Message := do
  let text ← Utf8.decode? bytes
  let value ← Json.parse? text.toList
  ofJson? value

/-- The message in a frame. -/
def decode (frame : Bytes) : Except FrameError Message :=
  let text := frame.trimmed
  if text = [] then .error .empty
  else match ofText? text with
    | some m => .ok m
    | none => .error .malformed

/-- The message in a frame, if it holds one. -/
def decode? (frame : Bytes) : Option Message := (decode frame).toOption

end TermLink.Message
