import TermLink.Json.Tree

/-!
# Records

A record is written as an object with its fields, or as an array of their values in order. Both
forms fill the same slots, one for each field, from which the record is then read.

## Implementation notes

An empty slot takes the field's default. A field with several names is still one slot, so it may
be given only once under all of them together.
-/

namespace TermLink.Json

/-- A field of a record: the name under which it is written and the others under which it is
read. -/
structure Field where
  name : String
  aliases : List String := []
  deriving DecidableEq, Repr

/-- The names under which a field is read. -/
def Field.names (f : Field) : List String := f.name :: f.aliases

/-- The value given for a field, if one is given. -/
abbrev Slot := Option Json

/-- The values of the fields that have one of the given names, in order. -/
def fieldsNamed (names : List String) (fields : List (String × Json)) : List Json :=
  (fields.filter fun f => names.contains f.1).map Prod.snd

/-- The slot that holds the values of a field, of which there may be at most one. -/
def slotOf? : List Json → Option Slot
  | [] => some none
  | [value] => some (some value)
  | _ => none

/-- The slots of a record as an object fills them. Fields of other names do not matter. -/
def slotsOfFields? (fields : List Field) (given : List (String × Json)) : Option (List Slot) :=
  fields.mapM fun f => slotOf? (fieldsNamed f.names given)

/-- The slots of a record as the values of an array fill them, of which there may be fewer. -/
def slotsOfItems? (fields : List Field) (given : List Json) : Option (List Slot) :=
  if given.length ≤ fields.length then
    some (given.map some ++ List.replicate (fields.length - given.length) none)
  else none

/-- A truth value; false by default. -/
def readBoolean? : Slot → Option Bool
  | none => some false
  | some (.boolean b) => some b
  | some _ => none

/-- A signed number of 64 bits; zero by default. -/
def readInt64? : Slot → Option Int64
  | none => some 0
  | some (.number n) =>
    match n.toInt? with
    | some z =>
      if Int64.minValue.toInt ≤ z ∧ z ≤ Int64.maxValue.toInt then some (Int64.ofInt z) else none
    | none => none
  | some _ => none

/-- A signed number of 32 bits; zero by default. -/
def readInt32? : Slot → Option Int32
  | none => some 0
  | some (.number n) =>
    match n.toInt? with
    | some z =>
      if Int32.minValue.toInt ≤ z ∧ z ≤ Int32.maxValue.toInt then some (Int32.ofInt z) else none
    | none => none
  | some _ => none

/-- An unsigned number of 32 bits that may be left out or null. -/
def readOptionalUInt32? : Slot → Option (Option UInt32)
  | none => some none
  | some .null => some none
  | some (.number n) =>
    match n.toInt? with
    | some z =>
      if 0 ≤ z ∧ z.toNat < UInt32.size then some (some (UInt32.ofNat z.toNat)) else none
    | none => none
  | some _ => none

/-- A text; the empty one by default. -/
def readText? : Slot → Option String
  | none => some ""
  | some (.text s) => some s
  | some _ => none

/-- A text that may be left out or null. -/
def readOptionalText? : Slot → Option (Option String)
  | none => some none
  | some .null => some none
  | some (.text s) => some (some s)
  | some _ => none

end TermLink.Json
