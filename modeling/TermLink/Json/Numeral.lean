import TermLink.Text.Integer

/-!
# Numerals of a JSON text

A numeral keeps its digits as written, because an integer, a fraction and an exponent are told
apart by their spelling and not by their value. A numeral is refused where its value, computed in
double precision, would be infinite.

## Implementation notes

`Scan` reads one character at a time and holds the digits of each part latest first.
-/

namespace TermLink.Json

/-- The part of a numeral after its exponent mark. -/
structure Exponent where
  negative : Bool
  digits : List Char
  deriving DecidableEq, Repr, Inhabited

/-- A numeral: its sign and the digits before the point, after it, and after the exponent mark. -/
structure Numeral where
  negative : Bool
  whole : List Char
  fraction : List Char := []
  exponent : Option Exponent := none
  deriving DecidableEq, Repr, Inhabited

namespace Numeral

/-- The numeral that spells an integer. -/
def ofInt (z : Int) : Numeral :=
  { negative := decide (z < 0), whole := Text.digits z.natAbs }

/-- The integer that a numeral spells. A point, an exponent or a negative zero make it a number of
another kind. -/
def toInt? (n : Numeral) : Option Int :=
  if n.fraction = [] ∧ n.exponent = none then
    let size := Nat.ofDigitChars 10 n.whole 0
    if n.negative then (if size = 0 then none else some (-(size : Int))) else some size
  else none

/-- The leading digits that fit into 64 bits, and the power of ten that goes with them. -/
structure Significand where
  value : Nat := 0
  scale : Int := 0
  full : Bool := false

/-- Takes a digit before the point. Once one has not fitted, the rest only count. -/
def Significand.takeWhole (s : Significand) (c : Char) : Significand :=
  let next := s.value * 10 + (c.toNat - 48)
  if s.full || UInt64.size ≤ next then { s with scale := s.scale + 1, full := true }
  else { s with value := next }

/-- Takes a digit after the point. Once one has not fitted, the rest are dropped. -/
def Significand.takeFraction (s : Significand) (c : Char) : Significand :=
  let next := s.value * 10 + (c.toNat - 48)
  if s.full || UInt64.size ≤ next then { s with full := true }
  else { s with value := next, scale := s.scale - 1 }

/-- The significand of a numeral, whose scale includes the exponent. -/
def significand (n : Numeral) : Significand :=
  let whole := n.whole.foldl Significand.takeWhole {}
  let all := n.fraction.foldl Significand.takeFraction { whole with full := false }
  match n.exponent with
  | none => all
  | some e =>
    let size : Int := Nat.ofDigitChars 10 e.digits 0
    { all with scale := if e.negative then all.scale - size else all.scale + size }

/-- The nearest number of 53 significant bits, the even one where two are equally near. -/
def roundSignificant (n : Nat) : Nat :=
  let bits := n.log2 + 1
  if bits ≤ 53 then n
  else
    let unit := 1 <<< (bits - 53)
    let (q, r) := (n / unit, n % unit)
    if unit < 2 * r || (2 * r = unit && q % 2 = 1) then (q + 1) * unit else q * unit

/-- Whether the value in double precision is finite: the significand times the power of ten, each
of the three rounded to 53 bits. A power above `10 ^ 308` is infinite by itself. -/
def isFinite (n : Numeral) : Bool :=
  let s := n.significand
  if s.value = 0 || s.scale < 0 then true
  else if 308 < s.scale then false
  else
    roundSignificant (roundSignificant s.value * roundSignificant (Nat.pow 10 s.scale.toNat))
      < 1 <<< 1024

/-- How far a numeral has been read. -/
inductive Stage where
  | sign | zero | whole | point | fraction | mark | markSign | exponent
  deriving DecidableEq, Repr

/-- A numeral being read. -/
structure Scan where
  stage : Stage
  negative : Bool
  whole : List Char := []
  fraction : List Char := []
  exponentNegative : Bool := false
  exponent : List Char := []

/-- The reading that begins with a character, if a numeral can begin with it. -/
def Scan.start? (c : Char) : Option Scan :=
  if c = '-' then some { stage := .sign, negative := true }
  else if c = '0' then some { stage := .zero, negative := false, whole := [c] }
  else if c.isDigit then some { stage := .whole, negative := false, whole := [c] }
  else none

/-- The reading after the point or the exponent mark, where `c` is one of them. -/
def Scan.divide? (s : Scan) (c : Char) : Option Scan :=
  if c = '.' && s.stage ≠ .fraction then some { s with stage := .point }
  else if c = 'e' || c = 'E' then some { s with stage := .mark }
  else none

/-- The reading after one more character, if the character continues the numeral. -/
def Scan.step? (s : Scan) (c : Char) : Option Scan :=
  match s.stage with
  | .sign =>
    if c = '0' then some { s with stage := .zero, whole := [c] }
    else if c.isDigit then some { s with stage := .whole, whole := [c] }
    else none
  | .zero => s.divide? c
  | .whole => if c.isDigit then some { s with whole := c :: s.whole } else s.divide? c
  | .point | .fraction =>
    if c.isDigit then some { s with stage := .fraction, fraction := c :: s.fraction }
    else if s.stage = .point then none
    else s.divide? c
  | .mark =>
    if c = '+' || c = '-' then
      some { s with stage := .markSign, exponentNegative := decide (c = '-') }
    else if c.isDigit then some { s with stage := .exponent, exponent := [c] }
    else none
  | .markSign | .exponent =>
    if c.isDigit then some { s with stage := .exponent, exponent := c :: s.exponent } else none

/-- The numeral read, unless it stops where a digit must follow or is too large. -/
def Scan.finish? (s : Scan) : Option Numeral :=
  let n : Numeral :=
    { negative := s.negative
      whole := s.whole.reverse
      fraction := s.fraction.reverse
      exponent :=
        if s.stage = .exponent then some ⟨s.exponentNegative, s.exponent.reverse⟩ else none }
  match s.stage with
  | .zero | .whole | .fraction | .exponent => if n.isFinite then some n else none
  | .sign | .point | .mark | .markSign => none

end Numeral
end TermLink.Json
