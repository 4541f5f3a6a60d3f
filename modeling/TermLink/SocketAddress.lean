import TermLink.Sequence
import TermLink.Text.Integer

/-!
# Socket addresses

The addresses on which a program listens: an address of version 4 or 6 and the number of a service
there. Reading is strict about the digits of each part; writing gives the canonical form, in which
the longest run of zero groups of a version 6 address is left out and a mapped version 4 address
shows as such.

## Implementation notes

A reader takes characters and gives a value with the characters that are left. Where it fails,
nothing has been read.
-/

namespace TermLink

/-- An address and the number of a service there. -/
inductive SocketAddress where
  | v4 (octets : List Nat) (service : Nat)
  | v6 (groups : List Nat) (scope service : Nat)
  deriving DecidableEq, Repr

namespace SocketAddress

/-- Reads one given character. -/
def char? (c : Char) : List Char → Option (Unit × List Char)
  | d :: rest => if c = d then some ((), rest) else none
  | [] => none

/-- The value of a digit in a base of at most sixteen. -/
def digit? (base : Nat) (c : Char) : Option Nat :=
  let n := c.toNat
  let v? :=
    if 48 ≤ n ∧ n ≤ 57 then some (n - 48)
    else if 97 ≤ n ∧ n ≤ 102 then some (n - 87)
    else if 65 ≤ n ∧ n ≤ 70 then some (n - 55)
    else none
  v?.filter (· < base)

/-- The number that digits spell. -/
def value (base : Nat) (ds : List Char) : Nat :=
  ds.foldl (fun v c => v * base + (digit? base c).getD 0) 0

/-- Reads all digits that follow. There must be one, at most `most` if that is given, and the
number must be below `bound`. -/
def number? (base : Nat) (most : Option Nat) (bound : Nat) (cs : List Char) :
    Option (Nat × List Char) :=
  let (ds, rest) := cs.span fun c => (digit? base c).isSome
  let short : Bool := match most with
    | some m => decide (ds.length ≤ m)
    | none => true
  if ds ≠ [] && short && value base ds < bound then some (value base ds, rest) else none

/-- Reads an octet, which has no zero in front of other digits. -/
def octet? (cs : List Char) : Option (Nat × List Char) := do
  let (v, rest) ← number? 10 (some 3) 256 cs
  if cs.head? = some '0' ∧ cs.length - rest.length ≠ 1 then none else some (v, rest)

/-- Reads four octets with points between them. -/
def octets? (cs : List Char) : Option (List Nat × List Char) := do
  let (a, cs) ← octet? cs
  let (_, cs) ← char? '.' cs
  let (b, cs) ← octet? cs
  let (_, cs) ← char? '.' cs
  let (c, cs) ← octet? cs
  let (_, cs) ← char? '.' cs
  let (d, cs) ← octet? cs
  some ([a, b, c, d], cs)

/-- Reads a colon, unless what follows comes first. -/
def separator? (first : Bool) (cs : List Char) : Option (Unit × List Char) :=
  if first then some ((), cs) else char? ':' cs

/-- Groups read from the front, whether the last two came from octets, and what follows. -/
structure Groups where
  read : List Nat
  fromOctets : Bool
  rest : List Char

/-- Reads up to `room` groups of at most four digits with colons between them. Where two groups
have room, four octets may stand for them and end the groups. -/
def groups (room : Nat) (read : List Nat) (cs : List Char) : Groups :=
  match room with
  | 0 => ⟨read, false, cs⟩
  | room + 1 =>
    let after := separator? (read = []) cs
    let four : Option (List Nat × List Char) :=
      if room = 0 then none else after.bind fun (_, cs) => octets? cs
    match four with
    | some ([a, b, c, d], rest) => ⟨read ++ [a * 256 + b, c * 256 + d], true, rest⟩
    | _ =>
      match after.bind fun (_, cs) => number? 16 (some 4) 65536 cs with
      | some (g, rest) => groups room (read ++ [g]) rest
      | none => ⟨read, false, cs⟩

/-- Reads the eight groups of a version 6 address, of which `::` leaves out one or more zeros. -/
def address6? (cs : List Char) : Option (List Nat × List Char) :=
  let head := groups 8 [] cs
  if head.read.length = 8 then some (head.read, head.rest)
  else if head.fromOctets then none
  else do
    let (_, cs) ← char? ':' head.rest
    let (_, cs) ← char? ':' cs
    let tail := groups (7 - head.read.length) [] cs
    let zeros := List.replicate (8 - head.read.length - tail.read.length) 0
    some (head.read ++ zeros ++ tail.read, tail.rest)

/-- Reads a colon and the number of a service. -/
def service? (cs : List Char) : Option (Nat × List Char) := do
  let (_, cs) ← char? ':' cs
  number? 10 none 65536 cs

/-- Reads the number of a version 6 address's scope, if one follows. -/
def scope (cs : List Char) : Nat × List Char :=
  match (char? '%' cs).bind fun (_, cs) => number? 10 none UInt32.size cs with
  | some (n, rest) => (n, rest)
  | none => (0, cs)

/-- Reads a version 4 address with its service. -/
def v4? (cs : List Char) : Option (SocketAddress × List Char) := do
  let (octets, cs) ← octets? cs
  let (service, cs) ← service? cs
  some (.v4 octets service, cs)

/-- Reads a version 6 address in brackets with its service. -/
def v6? (cs : List Char) : Option (SocketAddress × List Char) := do
  let (_, cs) ← char? '[' cs
  let (groups, cs) ← address6? cs
  let (scope, cs) := scope cs
  let (_, cs) ← char? ']' cs
  let (service, cs) ← service? cs
  some (.v6 groups scope service, cs)

/-- The address that a text spells. -/
def parse? (text : String) : Option SocketAddress :=
  let cs := text.toList
  match (v4? cs).orElse fun _ => v6? cs with
  | some (a, []) => some a
  | _ => none

/-- A decimal number as text. -/
def decimal (n : Nat) : String := String.ofList (Text.digits n)

/-- A group as text: lower-case hexadecimal without zeros in front. -/
def groupText (n : Nat) : String := String.ofList (Nat.toDigits 16 n)

/-- Octets with points between them. -/
def octetsText (octets : List Nat) : String := ".".intercalate (octets.map decimal)

/-- Groups with colons between them. -/
def groupsText (groups : List Nat) : String := ":".intercalate (groups.map groupText)

/-- Where a run of zeros begins and how long it is. -/
structure Run where
  start : Nat
  length : Nat
  deriving DecidableEq, Repr

/-- The zeros at the front of the groups. -/
def leadingZeros (groups : List Nat) : Nat := (groups.takeWhile (· = 0)).length

/-- The longest run of zeros, the first of them where several are as long. -/
def longestRun (groups : List Nat) : Run :=
  (List.range groups.length).foldl
    (fun best k =>
      let n := leadingZeros (groups.drop k)
      if best.length < n then ⟨k, n⟩ else best)
    ⟨0, 0⟩

/-- The text of a version 6 address. A lone zero group is not left out. -/
def address6Text (groups : List Nat) : String :=
  match groups with
  | [0, 0, 0, 0, 0, 0xFFFF, a, b] =>
    "::ffff:" ++ octetsText [a / 256, a % 256, b / 256, b % 256]
  | _ =>
    let run := longestRun groups
    if 1 < run.length then
      groupsText (groups.take run.start) ++ "::"
        ++ groupsText (groups.drop (run.start + run.length))
    else groupsText groups

/-- The canonical text of an address. -/
def render : SocketAddress → String
  | .v4 octets service => octetsText octets ++ ":" ++ decimal service
  | .v6 groups scope service =>
    let scopeText := if scope = 0 then "" else "%" ++ decimal scope
    "[" ++ address6Text groups ++ scopeText ++ "]:" ++ decimal service

end SocketAddress
end TermLink
