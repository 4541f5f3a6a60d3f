import TermLink.Text.Hex

/-!
# Percent escapes

In an address a byte may be written as a percent sign and its two hexadecimal digits.
-/

namespace TermLink.Percent

/-- The percent sign. -/
def sign : UInt8 := 37

/-- The byte that two digits stand for. A zero byte cannot be written in this way. -/
def byte? (a b : UInt8) : Option UInt8 :=
  match Hex.pair? (Char.ofNat a.toNat) (Char.ofNat b.toNat) with
  | some 0 => none
  | some v => some (UInt8.ofNat v)
  | none => none

/-- Replaces the escapes by the bytes that they stand for. What is no escape stays. -/
def decode : Bytes → Bytes
  | c :: a :: b :: rest =>
    if c = sign then
      match byte? a b with
      | some v => v :: decode rest
      | none => c :: decode (a :: b :: rest)
    else c :: decode (a :: b :: rest)
  | bs => bs

end TermLink.Percent
