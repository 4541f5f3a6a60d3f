import TermLink.Sequence

/-!
# Bytes

Terminals exchange bytes that need not be text, so every payload of the library is a list of
bytes. Frames and bodies made of bytes have ASCII white space at their ends and line feeds inside.
-/

namespace TermLink

/-- Bytes in the order in which they are sent. -/
abbrev Bytes := List UInt8

namespace Bytes

/-- The byte that ends a line. -/
def lineFeed : UInt8 := 10

/-- ASCII white space: tab, line feed, form feed, carriage return and space. -/
def isBlank (b : UInt8) : Bool :=
  b = 9 || b = 10 || b = 12 || b = 13 || b = 32

/-- The bytes without ASCII white space at either end. -/
def trimmed (bs : Bytes) : Bytes := trim isBlank bs

/-- The pieces between line feeds. -/
def lines (bs : Bytes) : List Bytes := pieces (fun b => b = lineFeed) bs

end Bytes
end TermLink
