import TermLink.Json.Token

/-!
# JSON values

The values of JSON, the tokens that spell a value, and the reading of tokens into a value.

## Implementation notes

`Build` is a machine over single tokens with the containers still open as its stack, so that
reading needs no bound but the one on nesting. Fields keep their order and may repeat: whether a
repeated name is an error is for the reader of the value to say.
-/

namespace TermLink

/-- A JSON value. -/
inductive Json where
  | null
  | boolean (value : Bool)
  | number (value : Json.Numeral)
  | text (value : String)
  | array (items : List Json)
  | object (fields : List (String × Json))
  deriving Repr, Inhabited

namespace Json

/-- The numeral of an integer as a value. -/
def ofInt (z : Int) : Json := .number (.ofInt z)

/-- The numeral of a natural number as a value. -/
def ofNat (n : Nat) : Json := ofInt n

/-- A text that may be absent as a value. -/
def ofText? : Option String → Json
  | some s => .text s
  | none => .null

mutual

/-- The tokens that spell a value. -/
def tokens : Json → List Token
  | .null => [.null]
  | .boolean b => [.boolean b]
  | .number n => [.number n]
  | .text s => [.text s]
  | .array items => .openArray :: itemTokens items ++ [.closeArray]
  | .object fields => .openObject :: fieldTokens fields ++ [.closeObject]

/-- The tokens of the items of an array. -/
def itemTokens : List Json → List Token
  | [] => []
  | [item] => tokens item
  | item :: next :: rest => tokens item ++ .comma :: itemTokens (next :: rest)

/-- The tokens of the fields of an object. -/
def fieldTokens : List (String × Json) → List Token
  | [] => []
  | [(name, value)] => .text name :: .colon :: tokens value
  | (name, value) :: next :: rest =>
    .text name :: .colon :: tokens value ++ .comma :: fieldTokens (next :: rest)

end

/-- The compact text of a value. -/
def render (value : Json) : List Char := value.tokens.flatMap Token.spelling

/-- The largest number of containers around a value, its own included. -/
def maxDepth : Nat := 127

/-- A container that is still open, with what it holds so far, latest first. -/
inductive Container where
  | array (items : List Json)
  /-- An object in which the value of `name` is being read. -/
  | object (fields : List (String × Json)) (name : String)

/-- The reading of a value from tokens: what may come next, inside the open containers. -/
inductive Build where
  /-- A value. -/
  | value (within : List Container)
  /-- The first item of an array, or its end. -/
  | firstItem (within : List Container)
  /-- The first name of an object, or its end. -/
  | firstName (within : List Container)
  /-- A name. -/
  | name (fields : List (String × Json)) (within : List Container)
  /-- A colon. -/
  | colon (fields : List (String × Json)) (name : String) (within : List Container)
  /-- A comma or the end of an array. -/
  | afterItem (items : List Json) (within : List Container)
  /-- A comma or the end of an object. -/
  | afterField (fields : List (String × Json)) (within : List Container)
  /-- Nothing: the value is complete. -/
  | done (value : Json)

namespace Build

/-- Puts a complete value into the innermost open container. -/
def complete (value : Json) : List Container → Build
  | [] => .done value
  | .array items :: within => .afterItem (value :: items) within
  | .object fields key :: within => .afterField ((key, value) :: fields) within

/-- Reads the first token of a value. -/
def start? (within : List Container) : Token → Option Build
  | .null => some (complete .null within)
  | .boolean b => some (complete (.boolean b) within)
  | .number n => some (complete (.number n) within)
  | .text s => some (complete (.text s) within)
  | .openArray => if within.length < maxDepth then some (.firstItem within) else none
  | .openObject => if within.length < maxDepth then some (.firstName within) else none
  | .closeArray | .closeObject | .colon | .comma => none

/-- Reads one token. -/
def step? : Build → Token → Option Build
  | .value within, t => start? within t
  | .firstItem within, .closeArray => some (complete (.array []) within)
  | .firstItem within, t => start? (.array [] :: within) t
  | .firstName within, .closeObject => some (complete (.object []) within)
  | .firstName within, .text s => some (.colon [] s within)
  | .name fields within, .text s => some (.colon fields s within)
  | .colon fields key within, .colon => some (.value (.object fields key :: within))
  | .afterItem items within, .comma => some (.value (.array items :: within))
  | .afterItem items within, .closeArray => some (complete (.array items.reverse) within)
  | .afterField fields within, .comma => some (.name fields within)
  | .afterField fields within, .closeObject => some (complete (.object fields.reverse) within)
  | _, _ => none

/-- Reads tokens in order. -/
def run? (b : Build) : List Token → Option Build
  | [] => some b
  | t :: rest =>
    match b.step? t with
    | some next => run? next rest
    | none => none

end Build

/-- The value that the tokens spell, if they spell exactly one. -/
def ofTokens? (tokens : List Token) : Option Json :=
  match Build.run? (.value []) tokens with
  | some (.done value) => some value
  | _ => none

/-- The value that a text spells. -/
def parse? (text : List Char) : Option Json := do
  let tokens ← Token.scan? text
  ofTokens? tokens

end Json
end TermLink
