import TermLink.Message.Lines
import TermLink.Proofs.Message.Fields
import TermLink.Proofs.Sequence
import TermLink.Proofs.Text.Utf8
import Mathlib.Tactic.SplitIfs

/-!
# The wire round trip

The frame of a message is decoded as that message, and a body of lines as the messages on them.
-/

namespace TermLink

namespace Json

theorem newline_not_mem_escaped (c : Char) : '\n' ∉ escaped c := by
  have hex (v : Nat) (hv : v < 16) : '\n' ≠ Hex.digit v := by
    have all : ∀ v : Fin 16, '\n' ≠ Hex.digit v := by decide
    exact all ⟨v, hv⟩
  rw [escaped]
  split_ifs with hquote hback hline
  iterate 7 · decide
  · have high := hex (c.toNat / 16) (by omega)
    have low := hex (c.toNat % 16) (by omega)
    simp [high, low]
  · simpa using Ne.symm hline

theorem newline_not_mem_spelling {t : Token} (ht : ∀ n, t ≠ .number n) : '\n' ∉ t.spelling := by
  cases t with
  | text s => simp [Token.spelling, newline_not_mem_escaped]
  | number n => exact absurd rfl (ht n)
  | boolean b => cases b <;> decide
  | _ => decide

theorem newline_not_mem_integer (z : Int) : '\n' ∉ (Numeral.ofInt z).spelling := by
  have digits : '\n' ∉ Text.digits z.natAbs := by
    intro h
    exact absurd (Nat.isDigit_of_mem_toDigits (by omega) (by omega) h) (by decide)
  by_cases hz : z < 0 <;> simp [Numeral.spelling, Numeral.ofInt, hz, digits]

/-- No token of the value is spelled with a line feed. -/
def OneLine (v : Json) : Prop := ∀ t ∈ v.tokens, '\n' ∉ t.spelling

theorem oneLine {n : Nat} {v : Json} (h : Plain n v) : OneLine v := by
  refine h.within.forall_tokens (fun t ht => newline_not_mem_spelling ht) ?_
  rintro x ⟨z, -, rfl⟩
  exact newline_not_mem_integer z

/-- The bytes of a plain value's text hold no line feed. -/
theorem lineFeed_not_mem_encode {n : Nat} {v : Json} (h : Plain n v) :
    Bytes.lineFeed ∉ Utf8.encode (String.ofList v.render) := by
  rw [Utf8.encode_ofList]
  intro hmem
  obtain ⟨c, hc, hb⟩ := List.mem_flatMap.mp hmem
  have newline : c = '\n' := Char.toNat_inj.mp (Utf8.eq_of_mem_utf8EncodeChar (by decide) hb)
  subst newline
  obtain ⟨t, ht, hc⟩ := List.mem_flatMap.mp hc
  exact oneLine h t ht hc

/-- The bytes of a text begin and end with those of its marks. -/
theorem encode_marks {opening closing : Char} (hopening : opening.toNat < 128)
    (hclosing : closing.toNat < 128) (mid : List Char) :
    Utf8.encode (String.ofList (opening :: mid ++ [closing])) =
      UInt8.ofNat opening.toNat :: mid.flatMap String.utf8EncodeChar
        ++ [UInt8.ofNat closing.toNat] := by
  rw [Utf8.encode_ofList]
  simp [Utf8.utf8EncodeChar_eq hopening, Utf8.utf8EncodeChar_eq hclosing]

/-- The bytes of an object, however it is written, begin and end with its braces. -/
theorem encode_braces {fields : List (String × Json)} {text : List Char}
    (h : Grammar.Writes (.object fields) text) :
    ∃ mid, Utf8.encode (String.ofList text) = 123 :: mid ++ [125] := by
  obtain ⟨mid, rfl⟩ := h.braces
  exact ⟨_, encode_marks (by decide) (by decide) mid⟩

/-- The bytes of an array, however it is written, begin and end with its brackets. -/
theorem encode_brackets {items : List Json} {text : List Char}
    (h : Grammar.Writes (.array items) text) :
    ∃ mid, Utf8.encode (String.ofList text) = 91 :: mid ++ [93] := by
  obtain ⟨mid, rfl⟩ := h.brackets
  exact ⟨_, encode_marks (by decide) (by decide) mid⟩

end Json

namespace Message

/-- The object of a message is written as a frame. -/
theorem writes_toJson (m : Message) : Json.Grammar.Writes m.toJson m.toJson.render :=
  Json.writes_render (plain_toJson m)

/-- A frame begins and ends with the braces of its object. -/
theorem encode_braces (m : Message) : ∃ mid, m.encode = 123 :: mid ++ [125] :=
  Json.encode_braces m.writes_toJson

theorem trimmed_encode (m : Message) : Bytes.trimmed m.encode = m.encode := by
  obtain ⟨mid, hmid⟩ := m.encode_braces
  rw [hmid]
  exact trim_eq_self (by decide) (by decide) mid

theorem encode_ne_nil (m : Message) : m.encode ≠ [] := by
  obtain ⟨mid, hmid⟩ := m.encode_braces
  rw [hmid]
  simp

/-- A text that begins and ends with something else than blanks is decoded as the value that it
spells, whatever blanks are around it. -/
theorem decode_surrounded {text : List Char} {first last : UInt8} {mid : Bytes}
    (htext : Utf8.encode (String.ofList text) = first :: mid ++ [last])
    (hfirst : Bytes.isBlank first = false) (hlast : Bytes.isBlank last = false)
    {before after : Bytes} (hbefore : ∀ b ∈ before, Bytes.isBlank b)
    (hafter : ∀ b ∈ after, Bytes.isBlank b) :
    decode (before ++ Utf8.encode (String.ofList text) ++ after) =
      ((Json.parse? text).bind ofJson?).elim (.error .malformed) .ok := by
  have inside : Bytes.trimmed (Utf8.encode (String.ofList text)) =
      Utf8.encode (String.ofList text) := by
    rw [htext]
    exact trim_eq_self hfirst hlast mid
  have trimmed : Bytes.trimmed (before ++ Utf8.encode (String.ofList text) ++ after) =
      Utf8.encode (String.ofList text) := by
    rw [← inside, Bytes.trimmed, trim_append_right hafter, trim_append_left hbefore, inside]
    exact inside
  have filled : Utf8.encode (String.ofList text) ≠ [] := by
    rw [htext]
    simp
  have read : ofText? (Utf8.encode (String.ofList text)) = (Json.parse? text).bind ofJson? := by
    simp only [ofText?, Utf8.decode?_encode, Option.bind_eq_bind, Option.bind_some,
      String.toList_ofList]
  rw [decode, trimmed, if_neg filled, read]
  cases (Json.parse? text).bind ofJson? <;> rfl

/-- However an object that is a message is written, and whatever blanks are around it, that message
is read from it. -/
theorem decode_of_writes {fields : List (String × Json)} {m : Message}
    (hm : ofJson? (.object fields) = some m)
    {n : Nat} (hfields : Json.Within (·.isFinite) n (.object fields)) (hn : n ≤ Json.maxDepth)
    {text : List Char} (htext : Json.Grammar.Writes (.object fields) text)
    {before after : Bytes} (hbefore : ∀ b ∈ before, Bytes.isBlank b)
    (hafter : ∀ b ∈ after, Bytes.isBlank b) :
    decode (before ++ Utf8.encode (String.ofList text) ++ after) = .ok m := by
  obtain ⟨mid, hmid⟩ := Json.encode_braces htext
  rw [decode_surrounded hmid (by decide) (by decide) hbefore hafter,
    Json.parse?_of_writes hfields hn htext, Option.bind_some, hm, Option.elim_some]

/-- What is written as a frame is read from it. -/
theorem decode_encode (m : Message) : decode m.encode = .ok m := by
  have blank : ∀ b ∈ ([] : Bytes), Bytes.isBlank b := by simp
  have plain := (plain_toJson m).finite
  have read := decode_of_writes (ofJson?_toJson m) plain (by decide) m.writes_toJson blank blank
  rw [List.nil_append, List.append_nil] at read
  exact read

theorem decode?_encode (m : Message) : decode? m.encode = some m := by
  simp [decode?, decode_encode, Except.toOption]

theorem lines_encodeLines (ms : List Message) :
    (encodeLines ms).lines = ms.map encode ++ [[]] := by
  induction ms with
  | nil => rfl
  | cons m ms ih =>
    have line : ∀ b ∈ m.encode, decide (b = Bytes.lineFeed) = false := by
      intro b hb
      apply decide_eq_false
      rintro rfl
      exact Json.lineFeed_not_mem_encode (plain_toJson m) hb
    simp only [Bytes.lines, encodeLines, List.flatMap_cons, encodeLine] at ih ⊢
    rw [List.append_assoc, List.singleton_append,
      pieces_append_cons line (decide_eq_true rfl), ih]
    rfl

/-- What is written in lines is read from them. -/
theorem decodeLines_encodeLines (ms : List Message) :
    decodeLines (encodeLines ms) = ms.map .ok := by
  have kept : ((ms.map encode).filter fun line => line.trimmed ≠ []) = ms.map encode := by
    rw [List.filter_eq_self]
    intro line hline
    obtain ⟨m, -, rfl⟩ := List.mem_map.mp hline
    simp [trimmed_encode, encode_ne_nil]
  have blank : Bytes.trimmed [] = [] := rfl
  rw [decodeLines, lines_encodeLines, List.filter_append, kept]
  simp [blank, decode_encode]

end Message
end TermLink
