import TermLink.Text.Blank
import TermLink.Text.Utf8

/-!
# Header fields

The fields in front of a request. Names do not depend on case, a name may occur several times, and
the first occurrence is the one that counts. A value is bytes, which are read as text only if all
of them are visible ASCII characters, spaces or tabs.

## Implementation notes

`ofText?` is two checks in one. A text with a control character is refused when it is made a value,
and a value with any other byte that is not visible is refused when the request that it belongs to
is written. Nothing is sent in either case, so a single predicate stands for both.
-/

namespace TermLink

/-- A header field. -/
structure Header where
  name : String
  value : Bytes
  deriving DecidableEq, Repr

namespace Header

/-- The bytes that may not stand in a value: control characters other than the tab. -/
def isForbidden (b : UInt8) : Bool := (b < 32 && b ≠ 9) || b = 127

/-- The bytes that a value may hold to be read as text. -/
def isVisible (b : UInt8) : Bool := (32 ≤ b && b < 127) || b = 9

/-- The characters of a name. -/
def isNameChar (c : Char) : Bool :=
  c.isAlphanum || "!#$%&'*+-.^_\x60|~".toList.contains c

/-- The longest name. -/
def longestName : Nat := 65535

/-- Why a field cannot be sent. -/
inductive Invalid where
  | name
  | value
  deriving DecidableEq, Repr

/-- A field with these parts, if it can be sent. A bad name counts before a bad value. -/
def make? (name : String) (value : Bytes) : Except Invalid Header :=
  let cs := name.toList
  if cs = [] ∨ longestName < cs.length ∨ !cs.all isNameChar then .error .name
  else if value.any isForbidden then .error .value
  else .ok ⟨String.ofList (cs.map Char.toLower), value⟩

/-- A field with a text as its value, if it can be made and written. -/
def ofText? (name text : String) : Option Header :=
  let value := Utf8.encode text
  if value.all isVisible then some ⟨name, value⟩ else none

/-- The value as text, if it can be read as such. -/
def text? (h : Header) : Option String :=
  if h.value.all isVisible then
    some (String.ofList (h.value.map fun b => Char.ofNat b.toNat))
  else none

/-- Spaces and tabs, which a value loses at its ends on the way. -/
def isPadding (b : UInt8) : Bool := b = 32 || b = 9

/-- The field as its receiver gets it. -/
def delivered (h : Header) : Header := { h with value := trim isPadding h.value }

end Header

/-- Header fields in order. -/
abbrev Headers := List Header

namespace Headers

/-- The first field of a name, which is given in lower case. -/
def first? (hs : Headers) (name : String) : Option Header := hs.find? fun h => h.name = name

/-- The text of the first field of a name. -/
def text? (hs : Headers) (name : String) : Option String := (hs.first? name).bind Header.text?

end Headers
end TermLink
