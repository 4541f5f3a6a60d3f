import TermLink.Json.Tree

/-!
# The grammar of JSON texts

In how many ways a value may be written: a character of a text as itself or in any of its escapes, a
numeral with either exponent mark and a sign or none, and blanks wherever two tokens meet. Nothing
here depends on how a text is read.
-/

namespace TermLink.Json.Grammar

/-- The letters that may follow a backslash, each with the character that the two stand for. -/
def letters : List (Char × Char) :=
  [('"', '"'), ('\\', '\\'), ('/', '/'), ('b', Char.ofNat 8), ('f', Char.ofNat 12), ('n', '\n'),
    ('r', '\r'), ('t', '\t')]

/-- Four hexadecimal digits in either case spell a code unit. -/
inductive CodeUnit : Nat → List Char → Prop
  | digits {a b c d : Char} {v w x y : Nat} (ha : Hex.value? a = some v)
      (hb : Hex.value? b = some w) (hc : Hex.value? c = some x) (hd : Hex.value? d = some y) :
    CodeUnit (((v * 16 + w) * 16 + x) * 16 + y) [a, b, c, d]

/-- The ways to write a character inside a text. A character above the first plane takes two code
units. -/
inductive Character (c : Char) : List Char → Prop
  | plain (hc : 32 ≤ c.toNat) (hquote : c ≠ '"') (hback : c ≠ '\\') : Character c [c]
  | letter {l : Char} (h : (l, c) ∈ letters) : Character c ['\\', l]
  | code {unit : List Char} (h : CodeUnit c.toNat unit) : Character c ('\\' :: 'u' :: unit)
  | pair {high low : List Char} (hc : 0x10000 ≤ c.toNat)
      (hhigh : CodeUnit (0xD800 + (c.toNat - 0x10000) / 0x400) high)
      (hlow : CodeUnit (0xDC00 + (c.toNat - 0x10000) % 0x400) low) :
    Character c ('\\' :: 'u' :: high ++ '\\' :: 'u' :: low)

/-- The ways to write characters one after another. -/
inductive Characters : List Char → List Char → Prop
  | nil : Characters [] []
  | cons {c : Char} {cs written rest : List Char} (h : Character c written)
      (hrest : Characters cs rest) : Characters (c :: cs) (written ++ rest)

/-- The sign in front of a numeral. -/
inductive Sign : Bool → List Char → Prop
  | plus : Sign false []
  | minus : Sign true ['-']

/-- The digits before the point: a zero alone, or no zero in front. -/
inductive Whole : List Char → Prop
  | zero : Whole ['0']
  | digits {c : Char} {ds : List Char} (hc : c ≠ '0') (h : ∀ d ∈ c :: ds, d.isDigit) :
    Whole (c :: ds)

/-- The digits after the point, which is there only with them. -/
inductive Fraction : List Char → List Char → Prop
  | none : Fraction [] []
  | digits {c : Char} {ds : List Char} (h : ∀ d ∈ c :: ds, d.isDigit) :
    Fraction (c :: ds) ('.' :: c :: ds)

/-- The sign after an exponent mark, where a plus may be left out. -/
inductive PowerSign : Bool → List Char → Prop
  | none : PowerSign false []
  | plus : PowerSign false ['+']
  | minus : PowerSign true ['-']

/-- The exponent of a numeral after either mark. -/
inductive Power : Option Exponent → List Char → Prop
  | none : Power none []
  | marked {mark : Char} {negative : Bool} {sign : List Char} {c : Char} {ds : List Char}
      (hmark : mark = 'e' ∨ mark = 'E') (hsign : PowerSign negative sign)
      (h : ∀ d ∈ c :: ds, d.isDigit) :
    Power (some ⟨negative, c :: ds⟩) (mark :: sign ++ c :: ds)

/-- The ways to write a numeral. -/
inductive Number : Numeral → List Char → Prop
  | parts {negative : Bool} {sign whole fraction point power : List Char}
      {exponent : Option Exponent} (hsign : Sign negative sign) (hwhole : Whole whole)
      (hpoint : Fraction fraction point) (hpower : Power exponent power) :
    Number ⟨negative, whole, fraction, exponent⟩ (sign ++ whole ++ point ++ power)

/-- The ways to write a token. -/
inductive Spells : Token → List Char → Prop
  | openObject : Spells .openObject ['\x7b']
  | closeObject : Spells .closeObject ['\x7d']
  | openArray : Spells .openArray ['[']
  | closeArray : Spells .closeArray [']']
  | colon : Spells .colon [':']
  | comma : Spells .comma [',']
  | null : Spells .null ['n', 'u', 'l', 'l']
  | true : Spells (.boolean true) ['t', 'r', 'u', 'e']
  | false : Spells (.boolean false) ['f', 'a', 'l', 's', 'e']
  | number {n : Numeral} {written : List Char} (h : Number n written) : Spells (.number n) written
  | text {s : String} {written : List Char} (h : Characters s.toList written) :
    Spells (.text s) ('"' :: written ++ ['"'])

/-- The ways to write tokens one after another, with blanks between them. -/
inductive Spaced : List Token → List Char → Prop
  | one {t : Token} {written : List Char} (h : Spells t written) : Spaced [t] written
  | more {t u : Token} {ts : List Token} {written gap rest : List Char} (h : Spells t written)
      (hgap : ∀ c ∈ gap, isSpace c) (hrest : Spaced (u :: ts) rest) :
    Spaced (t :: u :: ts) (written ++ gap ++ rest)

/-- The ways to write a value. -/
def Writes (value : Json) (text : List Char) : Prop := Spaced value.tokens text

/-- More than one token: the first, blanks, and the others. -/
theorem Spaced.exists_cons {t : Token} {ts : List Token} {text : List Char}
    (h : Spaced (t :: ts) text) (hts : ts ≠ []) :
    ∃ written gap rest, Spells t written ∧ Spaced ts rest ∧ text = written ++ (gap ++ rest) := by
  cases h with
  | one => exact absurd rfl hts
  | more h _ hrest => exact ⟨_, _, _, h, hrest, List.append_assoc _ _ _⟩

theorem Spaced.exists_append {ts : List Token} {t : Token} {text : List Char}
    (h : Spaced (ts ++ [t]) text) : ∃ rest written, Spells t written ∧ text = rest ++ written := by
  induction ts generalizing text with
  | nil =>
    cases h with
    | one h => exact ⟨[], _, h, rfl⟩
  | cons u ts ih =>
    obtain ⟨first, gap, _, -, hrest, rfl⟩ := h.exists_cons (by simp)
    obtain ⟨rest, written, hspells, rfl⟩ := ih hrest
    exact ⟨first ++ (gap ++ rest), written, hspells, by simp⟩

/-- Tokens with something between them: the first and the last stand around the rest. -/
theorem Spaced.exists_ends {t u : Token} {ts : List Token} {text : List Char}
    (h : Spaced (t :: ts ++ [u]) text) :
    ∃ first mid last, Spells t first ∧ Spells u last ∧ text = first ++ mid ++ last := by
  obtain ⟨first, gap, _, hfirst, hrest, rfl⟩ := h.exists_cons (by simp)
  obtain ⟨rest, last, hlast, rfl⟩ := hrest.exists_append
  exact ⟨first, gap ++ rest, last, hfirst, hlast, by simp⟩

/-- However an object is written, its braces stand around the rest. -/
theorem Writes.braces {fields : List (String × Json)} {text : List Char}
    (h : Writes (.object fields) text) : ∃ mid, text = '\x7b' :: mid ++ ['\x7d'] := by
  obtain ⟨first, mid, last, hfirst, hlast, rfl⟩ := Spaced.exists_ends h
  cases hfirst
  cases hlast
  exact ⟨mid, rfl⟩

/-- However an array is written, its brackets stand around the rest. -/
theorem Writes.brackets {items : List Json} {text : List Char} (h : Writes (.array items) text) :
    ∃ mid, text = '[' :: mid ++ [']'] := by
  obtain ⟨first, mid, last, hfirst, hlast, rfl⟩ := Spaced.exists_ends h
  cases hfirst
  cases hlast
  exact ⟨mid, rfl⟩

end TermLink.Json.Grammar
