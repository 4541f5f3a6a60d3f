import TermLink.Bytes

/-!
# Base64

The standard alphabet with padding. Reading accepts exactly the texts that writing produces: the
padding must be there and the bits that carry no payload must be zero.

## Implementation notes

Both directions collect their result in reverse, so that payloads of any size run in constant
stack space.
-/

namespace TermLink.Base64

/-- The character that stands for a six-bit value. -/
def symbol (v : Nat) : Char :=
  if v < 26 then Char.ofNat (65 + v)
  else if v < 52 then Char.ofNat (97 + (v - 26))
  else if v < 62 then Char.ofNat (48 + (v - 52))
  else if v = 62 then '+' else '/'

/-- The six-bit value for which a character stands. -/
def value? (c : Char) : Option Nat :=
  let n := c.toNat
  if 65 ≤ n ∧ n ≤ 90 then some (n - 65)
  else if 97 ≤ n ∧ n ≤ 122 then some (n - 97 + 26)
  else if 48 ≤ n ∧ n ≤ 57 then some (n - 48 + 52)
  else if c = '+' then some 62
  else if c = '/' then some 63
  else none

/-- Writes the bytes after the characters of `done`, which are held latest first. -/
def encodeOnto (done : List Char) : Bytes → List Char
  | a :: b :: c :: rest =>
    encodeOnto
      (symbol (c.toNat % 64) :: symbol (b.toNat % 16 * 4 + c.toNat / 64)
        :: symbol (a.toNat % 4 * 16 + b.toNat / 16) :: symbol (a.toNat / 4) :: done) rest
  | [a, b] =>
    ('=' :: symbol (b.toNat % 16 * 4) :: symbol (a.toNat % 4 * 16 + b.toNat / 16)
      :: symbol (a.toNat / 4) :: done).reverse
  | [a] => ('=' :: '=' :: symbol (a.toNat % 4 * 16) :: symbol (a.toNat / 4) :: done).reverse
  | [] => done.reverse

/-- The padded text of a payload. -/
def encode (payload : Bytes) : List Char := encodeOnto [] payload

/-- The only byte that a group of two characters and two padding marks carries. -/
def lastOne? (c d : Char) : Option UInt8 := do
  let p ← value? c
  let q ← value? d
  if q % 16 = 0 then some (UInt8.ofNat (p * 4 + q / 16)) else none

/-- The two bytes that a group of three characters and one padding mark carries. -/
def lastTwo? (c d e : Char) : Option (UInt8 × UInt8) := do
  let p ← value? c
  let q ← value? d
  let r ← value? e
  if r % 4 = 0 then
    some (UInt8.ofNat (p * 4 + q / 16), UInt8.ofNat (q % 16 * 16 + r / 4))
  else none

/-- The three bytes that a group of four characters carries. -/
def group? (c d e f : Char) : Option (UInt8 × UInt8 × UInt8) := do
  let p ← value? c
  let q ← value? d
  let r ← value? e
  let s ← value? f
  some (UInt8.ofNat (p * 4 + q / 16), UInt8.ofNat (q % 16 * 16 + r / 4),
    UInt8.ofNat (r % 4 * 64 + s))

/-- Reads the characters after the payload bytes of `done`, which are held latest first. Padding
can only stand in the last group. -/
def decodeOnto? (done : Bytes) : List Char → Option Bytes
  | [] => some done.reverse
  | [c, d, '=', '='] => (lastOne? c d).map fun a => (a :: done).reverse
  | [c, d, e, '='] => (lastTwo? c d e).map fun (a, b) => (b :: a :: done).reverse
  | c :: d :: e :: f :: rest =>
    match group? c d e f with
    | some (x, y, z) => decodeOnto? (z :: y :: x :: done) rest
    | none => none
  | _ => none

/-- The payload that a padded text carries, if it carries one. -/
def decode? (text : List Char) : Option Bytes := decodeOnto? [] text

end TermLink.Base64
