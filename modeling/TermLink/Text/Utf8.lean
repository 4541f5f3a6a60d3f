import TermLink.Bytes

/-!
# Text as bytes

The bytes of a text, the strict reading of bytes as text, and the forgiving reading that puts
U+FFFD in the place of what is not text.

## Implementation notes

The forgiving reader is a machine over single bytes. It replaces the longest part of a sequence
that could still have become a character by one U+FFFD, and then looks at the offending byte
afresh.
-/

namespace TermLink.Utf8

/-- The bytes of a text. -/
def encode (text : String) : Bytes := text.toByteArray.data.toList

/-- The text that the bytes spell, if they spell one. -/
def decode? (bytes : Bytes) : Option String :=
  String.fromUTF8? ⟨bytes.toArray⟩

/-- A character of which some bytes have been read: its value so far, the number of bytes still
missing, and the range in which the next of them must lie. -/
structure Partial where
  value : Nat
  missing : Nat
  low : UInt8 := 0x80
  high : UInt8 := 0xBF

/-- What a byte means where a character may begin. -/
inductive Lead where
  | character (c : Char)
  | opens (p : Partial)
  | invalid

/-- Reads the first byte of a character. The ranges leave out overlong forms, surrogates and
values above U+10FFFF. -/
def Lead.ofByte (b : UInt8) : Lead :=
  let v := b.toNat
  if v < 0x80 then .character (Char.ofNat v)
  else if v < 0xC2 then .invalid
  else if v < 0xE0 then .opens { value := v - 0xC0, missing := 1 }
  else if v = 0xE0 then .opens { value := 0, missing := 2, low := 0xA0 }
  else if v = 0xED then .opens { value := 0xD, missing := 2, high := 0x9F }
  else if v < 0xF0 then .opens { value := v - 0xE0, missing := 2 }
  else if v = 0xF0 then .opens { value := 0, missing := 3, low := 0x90 }
  else if v < 0xF4 then .opens { value := v - 0xF0, missing := 3 }
  else if v = 0xF4 then .opens { value := 4, missing := 3, high := 0x8F }
  else .invalid

/-- The mark that stands for bytes that are not text. -/
def replacement : Char := Char.ofNat 0xFFFD

/-- The state of the forgiving reader: the characters read, latest first, and the one begun. -/
structure Reader where
  done : List Char := []
  begun : Option Partial := none

/-- Reads a byte where a character may begin. -/
def Reader.start (r : Reader) (b : UInt8) : Reader :=
  match Lead.ofByte b with
  | .character c => ⟨c :: r.done, none⟩
  | .opens p => ⟨r.done, some p⟩
  | .invalid => ⟨replacement :: r.done, none⟩

/-- Reads one byte. -/
def Reader.step (r : Reader) (b : UInt8) : Reader :=
  match r.begun with
  | none => r.start b
  | some p =>
    if p.low ≤ b && b ≤ p.high then
      let value := p.value * 64 + (b.toNat - 0x80)
      if p.missing ≤ 1 then ⟨Char.ofNat value :: r.done, none⟩
      else ⟨r.done, some { value, missing := p.missing - 1 }⟩
    else Reader.start ⟨replacement :: r.done, none⟩ b

/-- The characters read when no byte is left. -/
def Reader.finish (r : Reader) : List Char :=
  match r.begun with
  | none => r.done.reverse
  | some _ => (replacement :: r.done).reverse

/-- The text that the bytes spell, with U+FFFD for what is not text. -/
def decodeLossy (bytes : Bytes) : String :=
  String.ofList (bytes.foldl Reader.step {}).finish

end TermLink.Utf8
