import TermLink.Json.Numeral
import TermLink.Text.Hex

/-!
# Tokens of a JSON text

The marks, words, numerals and texts of which a JSON text is made, how each is spelled, and the
reading of characters into tokens.

## Implementation notes

`Lexer` is a machine over single characters, so that what it does with a text followed by another
is what it does with the second after the first. A numeral ends at the first character that does
not continue it; that character is then read afresh.
-/

namespace TermLink.Json

/-- A token of a JSON text. -/
inductive Token where
  | openObject | closeObject | openArray | closeArray | colon | comma
  | null
  | boolean (value : Bool)
  | number (value : Numeral)
  | text (value : String)
  deriving DecidableEq, Repr

/-- The white space that may stand between tokens: tab, line feed, carriage return and space. -/
def isSpace (c : Char) : Bool := c = ' ' || c = '\t' || c = '\n' || c = '\r'

/-- How a character is written inside a text: the quote, the backslash and the control characters
are escaped, by a letter where there is one, and all else stands for itself. -/
def escaped (c : Char) : List Char :=
  if c = '"' then ['\\', '"']
  else if c = '\\' then ['\\', '\\']
  else if c = '\n' then ['\\', 'n']
  else if c = '\r' then ['\\', 'r']
  else if c = '\t' then ['\\', 't']
  else if c.toNat = 8 then ['\\', 'b']
  else if c.toNat = 12 then ['\\', 'f']
  else if c.toNat < 32 then
    ['\\', 'u', '0', '0', Hex.digit (c.toNat / 16), Hex.digit (c.toNat % 16)]
  else [c]

/-- The character that a letter after a backslash stands for. -/
def unescaped? (c : Char) : Option Char :=
  if c = '"' ∨ c = '\\' ∨ c = '/' then some c
  else if c = 'n' then some '\n'
  else if c = 'r' then some '\r'
  else if c = 't' then some '\t'
  else if c = 'b' then some (Char.ofNat 8)
  else if c = 'f' then some (Char.ofNat 12)
  else none

/-- The characters of a numeral. -/
def Numeral.spelling (n : Numeral) : List Char :=
  (if n.negative then ['-'] else []) ++ n.whole
    ++ (if n.fraction = [] then [] else '.' :: n.fraction)
    ++ match n.exponent with
      | none => []
      | some e => 'e' :: (if e.negative then ['-'] else []) ++ e.digits

/-- The shortest spelling of a token. -/
def Token.spelling : Token → List Char
  | .openObject => ['\x7b']
  | .closeObject => ['\x7d']
  | .openArray => ['[']
  | .closeArray => [']']
  | .colon => [':']
  | .comma => [',']
  | .null => ['n', 'u', 'l', 'l']
  | .boolean true => ['t', 'r', 'u', 'e']
  | .boolean false => ['f', 'a', 'l', 's', 'e']
  | .number n => n.spelling
  | .text s => '"' :: s.toList.flatMap escaped ++ ['"']

/-- What the lexer is in the middle of. The characters of a text are held latest first. -/
inductive Mode where
  /-- Between two tokens. -/
  | between
  /-- In a word, of which `rest` must follow. -/
  | word (rest : List Char) (token : Token)
  | number (scan : Numeral.Scan)
  | text (done : List Char)
  /-- After a backslash. -/
  | escape (done : List Char)
  /-- In the four digits of a code unit, after the unit `high` where that was half a character. -/
  | code (done : List Char) (high : Option Nat) (value missing : Nat)
  /-- After the first half of a character, whose second half must follow. -/
  | half (done : List Char) (high : Nat)
  /-- After the backslash of a second half. -/
  | halfEscape (done : List Char) (high : Nat)

/-- The lexer: the tokens read, latest first, and what it is in the middle of. -/
structure Lexer where
  tokens : List Token := []
  mode : Mode := .between

namespace Lexer

/-- The lexer after a token has been read. -/
def emit (tokens : List Token) (t : Token) : Option Lexer := some ⟨t :: tokens, .between⟩

/-- Reads a character between two tokens. -/
def begin? (tokens : List Token) (c : Char) : Option Lexer :=
  if isSpace c then some ⟨tokens, .between⟩
  else if c = '\x7b' then emit tokens .openObject
  else if c = '\x7d' then emit tokens .closeObject
  else if c = '[' then emit tokens .openArray
  else if c = ']' then emit tokens .closeArray
  else if c = ':' then emit tokens .colon
  else if c = ',' then emit tokens .comma
  else if c = '"' then some ⟨tokens, .text []⟩
  else if c = 'n' then some ⟨tokens, .word ['u', 'l', 'l'] .null⟩
  else if c = 't' then some ⟨tokens, .word ['r', 'u', 'e'] (.boolean true)⟩
  else if c = 'f' then some ⟨tokens, .word ['a', 'l', 's', 'e'] (.boolean false)⟩
  else (Numeral.Scan.start? c).map fun scan => ⟨tokens, .number scan⟩

/-- The mode after a whole code unit. A first half waits for the second; a second half must follow
a first. -/
def closeCode? (done : List Char) (high : Option Nat) (unit : Nat) : Option Mode :=
  let isHigh : Bool := 0xD800 ≤ unit && unit < 0xDC00
  let isLow : Bool := 0xDC00 ≤ unit && unit < 0xE000
  match high with
  | none =>
    if isHigh then some (.half done unit)
    else if isLow then none
    else some (.text (Char.ofNat unit :: done))
  | some h =>
    if isLow then
      some (.text (Char.ofNat (0x10000 + (h - 0xD800) * 0x400 + (unit - 0xDC00)) :: done))
    else none

/-- Reads one character. -/
def step? (l : Lexer) (c : Char) : Option Lexer :=
  match l.mode with
  | .between => begin? l.tokens c
  | .word rest token =>
    match rest with
    | [] => none
    | [d] => if c = d then emit l.tokens token else none
    | d :: more => if c = d then some ⟨l.tokens, .word more token⟩ else none
  | .number scan =>
    match scan.step? c with
    | some next => some ⟨l.tokens, .number next⟩
    | none =>
      match scan.finish? with
      | some n => begin? (.number n :: l.tokens) c
      | none => none
  | .text done =>
    if c = '"' then emit l.tokens (.text (String.ofList done.reverse))
    else if c = '\\' then some ⟨l.tokens, .escape done⟩
    else if c.toNat < 32 then none
    else some ⟨l.tokens, .text (c :: done)⟩
  | .escape done =>
    if c = 'u' then some ⟨l.tokens, .code done none 0 4⟩
    else (unescaped? c).map fun d => ⟨l.tokens, .text (d :: done)⟩
  | .code done high value missing =>
    match Hex.value? c with
    | none => none
    | some v =>
      if missing ≤ 1 then (closeCode? done high (value * 16 + v)).map fun m => ⟨l.tokens, m⟩
      else some ⟨l.tokens, .code done high (value * 16 + v) (missing - 1)⟩
  | .half done high => if c = '\\' then some ⟨l.tokens, .halfEscape done high⟩ else none
  | .halfEscape done high =>
    if c = 'u' then some ⟨l.tokens, .code done (some high) 0 4⟩ else none

/-- Reads characters in order. -/
def run? (l : Lexer) : List Char → Option Lexer
  | [] => some l
  | c :: rest =>
    match l.step? c with
    | some next => run? next rest
    | none => none

/-- The tokens read, if the text can end here. -/
def finish? (l : Lexer) : Option (List Token) :=
  match l.mode with
  | .between => some l.tokens.reverse
  | .number scan => scan.finish?.map fun n => (.number n :: l.tokens).reverse
  | _ => none

end Lexer

/-- The tokens of a text, if it is made of tokens and white space. -/
def Token.scan? (text : List Char) : Option (List Token) := do
  let l ← Lexer.run? {} text
  l.finish?

end TermLink.Json
