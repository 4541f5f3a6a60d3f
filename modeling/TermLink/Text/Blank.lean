import TermLink.Bytes

/-!
# White space in text

The characters that count as white space, and the words that they separate.
-/

namespace TermLink.Text

/-- The characters with the Unicode property `White_Space`. -/
def isBlank (c : Char) : Bool :=
  let v := c.toNat
  (9 ≤ v && v ≤ 13) || v = 0x20 || v = 0x85 || v = 0xA0 || v = 0x1680
    || (0x2000 ≤ v && v ≤ 0x200A) || v = 0x2028 || v = 0x2029 || v = 0x202F || v = 0x205F
    || v = 0x3000

/-- The text without white space at either end. -/
def trimmed (text : String) : String :=
  String.ofList (trim isBlank text.toList)

/-- Whether nothing but white space is in the text. -/
def blank (text : String) : Bool := text.toList.all isBlank

/-- The text up to the first white space that follows its first other character. -/
def firstWord (text : String) : String :=
  String.ofList ((text.toList.dropWhile isBlank).takeWhile (fun c => !isBlank c))

/-- The trimmed text, unless nothing is left of it. -/
def content? (text : String) : Option String :=
  let inner := trimmed text
  if inner = "" then none else some inner

end TermLink.Text
