import TermLink.Message.Wire

/-!
# Messages in lines

Bodies that hold several messages have one on each line. Blank lines do not count, and a line that
is no message does not hide those after it. `LineReader` reads such a body from chunks cut
anywhere.
-/

namespace TermLink.Message

/-- A message, or why a line is none. -/
abbrev Item := Except FrameError Message

/-- What a line holds; nothing where it is blank. -/
def itemOfLine? (line : Bytes) : Option Item :=
  if line.trimmed = [] then none else some (decode line)

/-- The items of a body. What follows the last line feed is a line too. -/
def decodeLines (body : Bytes) : List Item :=
  (body.lines.filter fun line => line.trimmed ≠ []).map decode

/-- The messages of a body, one on each line. -/
def encodeLines (ms : List Message) : Bytes := ms.flatMap encodeLine

/-- A reader of lines: the bytes of the line not yet ended, latest first. -/
structure LineReader where
  held : Bytes := []

namespace LineReader

/-- The number of bytes after the last line feed. -/
def pending (r : LineReader) : Nat := r.held.length

/-- Reads one byte, and gives the item of the line that it ends. -/
def feed (r : LineReader) (b : UInt8) : LineReader × Option Item :=
  if b = Bytes.lineFeed then ({}, itemOfLine? (b :: r.held).reverse) else (⟨b :: r.held⟩, none)

/-- Reads bytes after items already read, which are held latest first. -/
def feedAll (r : LineReader) (done : List Item) : Bytes → LineReader × List Item
  | [] => (r, done.reverse)
  | b :: rest =>
    match r.feed b with
    | (next, some item) => feedAll next (item :: done) rest
    | (next, none) => feedAll next done rest

/-- Reads a chunk, and gives the items of the lines that end in it. -/
def push (r : LineReader) (chunk : Bytes) : LineReader × List Item := feedAll r [] chunk

/-- Reads chunks one after another, and gives the items of each. -/
def pushAll (r : LineReader) : List Bytes → LineReader × List (List Item)
  | [] => (r, [])
  | chunk :: rest =>
    let (next, items) := r.push chunk
    let (last, more) := next.pushAll rest
    (last, items :: more)

end LineReader
end TermLink.Message
