import TermLink.Bytes

/-!
# Hexadecimal digits

Bytes and code units are written with two or four digits to the base sixteen. They are written in
lower case and read in either.
-/

namespace TermLink.Hex

/-- The digit of a value below sixteen. -/
def digit (v : Nat) : Char := Nat.digitChar v

/-- The value of a digit. -/
def value? (c : Char) : Option Nat :=
  let n := c.toNat
  if 48 ≤ n ∧ n ≤ 57 then some (n - 48)
  else if 97 ≤ n ∧ n ≤ 102 then some (n - 87)
  else if 65 ≤ n ∧ n ≤ 70 then some (n - 55)
  else none

/-- The value of two digits. -/
def pair? (a b : Char) : Option Nat := do some ((← value? a) * 16 + (← value? b))

/-- The digits of bytes. -/
def encode (bs : Bytes) : List Char :=
  bs.flatMap fun b => [digit (b.toNat / 16), digit (b.toNat % 16)]

/-- The bytes that digits spell. -/
def decode? : List Char → Option Bytes
  | [] => some []
  | a :: b :: rest => do some (UInt8.ofNat (← pair? a b) :: (← decode? rest))
  | [_] => none

end TermLink.Hex
