/-!
# Integers in text

Decimal digits, the sign in front of them, and the ranges in which a number is accepted.
-/

namespace TermLink.Text

/-- The decimal digits of a number, without leading zeros. -/
def digits (n : Nat) : List Char := Nat.toDigits 10 n

/-- The digits of an integer, after a minus sign where it is negative. -/
def signedDigits : Int → List Char
  | .ofNat n => digits n
  | .negSucc n => '-' :: digits (n + 1)

/-- The number that the digits spell. Leading zeros do not matter; other characters and the empty
text are refused. -/
def natural? (cs : List Char) : Option Nat :=
  if cs ≠ [] && cs.all Char.isDigit then some (Nat.ofDigitChars 10 cs 0) else none

/-- The number that the digits spell, after an optional plus sign. -/
def unsigned? : List Char → Option Nat
  | '+' :: cs => natural? cs
  | cs => natural? cs

/-- The integer that the digits spell, after an optional sign. -/
def signed? : List Char → Option Int
  | '-' :: cs => (natural? cs).map (fun n => -(n : Int))
  | cs => (unsigned? cs).map Int.ofNat

/-- An unsigned number of at most 64 bits. -/
def word64? (text : String) : Option Nat :=
  (unsigned? text.toList).filter (· < UInt64.size)

/-- A signed number of 64 bits. -/
def int64? (text : String) : Option Int64 :=
  match signed? text.toList with
  | some z =>
    if Int64.minValue.toInt ≤ z ∧ z ≤ Int64.maxValue.toInt then some (Int64.ofInt z) else none
  | none => none

end TermLink.Text
