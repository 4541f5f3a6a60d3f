import TermLink.Proofs.Json.Grammar
import TermLink.Proofs.Json.Numeral
import Mathlib.Data.List.Chain

/-!
# Reading tokens

However tokens are written, the lexer reads them. A numeral is the only token whose end shows only
in what follows it.
-/

namespace TermLink.Json

open Grammar

namespace Numeral

/-- Whether a numeral can end at a stage. -/
def Stage.isEnd : Stage → Bool
  | .zero | .whole | .fraction | .exponent => true
  | .sign | .point | .mark | .markSign => false

/-- The numeral that has been read so far. -/
def Scan.numeral (s : Scan) : Numeral where
  negative := s.negative
  whole := s.whole.reverse
  fraction := s.fraction.reverse
  exponent := if s.stage = .exponent then some ⟨s.exponentNegative, s.exponent.reverse⟩ else none

theorem Scan.finish?_eq {s : Scan} (hs : s.stage.isEnd) (h : s.numeral.isFinite) :
    s.finish? = some s.numeral := by
  rw [numeral] at h ⊢
  cases hstage : s.stage <;> simp_all [finish?, Stage.isEnd]

/-- The scan after more digits of the part that is being read. -/
def Scan.more (s : Scan) (ds : List Char) : Scan :=
  match s.stage with
  | .whole => { s with whole := ds.reverse ++ s.whole }
  | .fraction => { s with fraction := ds.reverse ++ s.fraction }
  | .exponent => { s with exponent := ds.reverse ++ s.exponent }
  | _ => s

/-- The characters at which a numeral ends inside a text. -/
def endsNumeral (c : Char) : Bool := isSpace c || c = ',' || c = ']' || c = '\x7d'

theorem Scan.step?_ends {s : Scan} (hs : s.stage.isEnd) {c : Char} (hc : endsNumeral c) :
    s.step? c = none := by
  have cases : c = ' ' ∨ c = '\t' ∨ c = '\n' ∨ c = '\r' ∨ c = ',' ∨ c = ']' ∨ c = '\x7d' := by
    simpa [endsNumeral, isSpace, or_assoc] using hc
  have divided : s.divide? c = none := by
    rcases cases with rfl | rfl | rfl | rfl | rfl | rfl | rfl <;> simp [divide?]
  have notDigit : c.isDigit = false := by
    rcases cases with rfl | rfl | rfl | rfl | rfl | rfl | rfl <;> decide
  cases hstage : s.stage <;> simp_all [step?, Stage.isEnd]

end Numeral

namespace Lexer

open Numeral

variable (tokens : List Token)

/-- Digits continue the part of a numeral that is being read. -/
theorem run?_digits {ds : List Char} (hds : ∀ d ∈ ds, d.isDigit) {s : Scan}
    (hs : s.stage = .whole ∨ s.stage = .fraction ∨ s.stage = .exponent) (rest : List Char) :
    run? ⟨tokens, .number s⟩ (ds ++ rest) = run? ⟨tokens, .number (s.more ds)⟩ rest := by
  induction ds generalizing s with
  | nil =>
    have same : s.more [] = s := by
      obtain ⟨⟩ := s
      rcases hs with rfl | rfl | rfl <;> rfl
    rw [same]
    rfl
  | cons d ds ih =>
    have step : s.step? d = some (s.more [d]) := by
      have hd := hds d (by simp)
      rcases hs with hs | hs | hs <;> simp [Scan.step?, Scan.more, hs, hd]
    have stage : (s.more [d]).stage = s.stage := by
      rcases hs with hs | hs | hs <;> simp [Scan.more, hs]
    have both : (s.more [d]).more ds = s.more (d :: ds) := by
      rcases hs with hs | hs | hs <;> simp [Scan.more, hs]
    simp only [List.cons_append, run?, step?, step]
    rw [ih (fun e he => hds e (by simp [he])) (stage ▸ hs), both]

theorem begin?_of_start? {c : Char} {s : Scan} (h : Scan.start? c = some s) :
    begin? tokens c = some ⟨tokens, .number s⟩ := by
  have ne (d : Char) (hd : Scan.start? d = none) : c ≠ d := by
    rintro rfl
    simp [h] at hd
  simp [begin?, isSpace, ne ' ' rfl, ne '\t' rfl, ne '\n' rfl, ne '\r' rfl, ne '\x7b' rfl,
    ne '\x7d' rfl, ne '[' rfl, ne ']' rfl, ne ':' rfl, ne ',' rfl, ne '"' rfl, ne 'n' rfl,
    ne 't' rfl, ne 'f' rfl, h]

/-- The scan of a numeral after its sign and the digits before the point. -/
theorem run?_whole {negative : Bool} {sign whole : List Char} (hsign : Sign negative sign)
    (hwhole : Whole whole) :
    ∃ stage, (stage = .zero ∨ stage = .whole) ∧ ∀ tokens rest,
      run? ⟨tokens, .between⟩ (sign ++ whole ++ rest) =
        run? ⟨tokens, .number ⟨stage, negative, whole.reverse, [], false, []⟩⟩ rest := by
  cases hwhole with
  | zero =>
    refine ⟨.zero, .inl rfl, fun tokens rest => ?_⟩
    cases hsign <;> rfl
  | @digits c ds hc h =>
    refine ⟨.whole, .inr rfl, fun tokens rest => ?_⟩
    have hdigit : c.isDigit := h c (by simp)
    have hds : ∀ d ∈ ds, d.isDigit := fun d hd => h d (by simp [hd])
    have first : run? ⟨tokens, .between⟩ (sign ++ c :: ds ++ rest) =
        run? ⟨tokens, .number ⟨.whole, negative, [c], [], false, []⟩⟩ (ds ++ rest) := by
      cases hsign with
      | plus =>
        have hminus : c ≠ '-' := by
          rintro rfl
          simp at hdigit
        have start : Scan.start? c = some ⟨.whole, false, [c], [], false, []⟩ := by
          simp [Scan.start?, hminus, hc, hdigit]
        simp only [List.nil_append, List.cons_append, run?, step?, begin?_of_start? tokens start]
      | minus =>
        have minus : step? ⟨tokens, .between⟩ '-' =
            some ⟨tokens, .number ⟨.sign, true, [], [], false, []⟩⟩ := rfl
        simp only [List.cons_append, List.nil_append, run?, minus]
        simp [step?, Scan.step?, hc, hdigit]
    rw [first, run?_digits tokens hds (.inl rfl)]
    simp [Scan.more]

/-- The scan of a numeral after the point and the digits after it. -/
theorem run?_point {stage : Stage} (hstage : stage = .zero ∨ stage = .whole)
    {fraction point : List Char} (h : Fraction fraction point) (negative : Bool)
    (whole : List Char) :
    ∃ next, (next = .zero ∨ next = .whole ∨ next = .fraction) ∧ ∀ tokens rest,
      run? ⟨tokens, .number ⟨stage, negative, whole, [], false, []⟩⟩ (point ++ rest) =
        run? ⟨tokens, .number ⟨next, negative, whole, fraction.reverse, false, []⟩⟩ rest := by
  cases h with
  | none => exact ⟨stage, hstage.imp_right .inl, fun tokens rest => rfl⟩
  | @digits c ds h =>
    refine ⟨.fraction, .inr (.inr rfl), fun tokens rest => ?_⟩
    have hdigit : c.isDigit := h c (by simp)
    have hds : ∀ d ∈ ds, d.isDigit := fun d hd => h d (by simp [hd])
    have point : step? ⟨tokens, .number ⟨stage, negative, whole, [], false, []⟩⟩ '.' =
        some ⟨tokens, .number ⟨.point, negative, whole, [], false, []⟩⟩ := by
      rcases hstage with rfl | rfl <;> rfl
    have first : step? ⟨tokens, .number ⟨.point, negative, whole, [], false, []⟩⟩ c =
        some ⟨tokens, .number ⟨.fraction, negative, whole, [c], false, []⟩⟩ := by
      simp [step?, Scan.step?, hdigit]
    simp only [List.cons_append, run?, point, first]
    rw [run?_digits tokens hds (.inr (.inl rfl))]
    simp [Scan.more]

/-- The scan of a numeral after its exponent. -/
theorem run?_power {stage : Stage} (hstage : stage = .zero ∨ stage = .whole ∨ stage = .fraction)
    {exponent : Option Exponent} {power : List Char} (h : Power exponent power) (negative : Bool)
    (whole fraction : List Char) :
    ∃ s : Scan, s.stage.isEnd
      ∧ s.numeral = ⟨negative, whole.reverse, fraction.reverse, exponent⟩ ∧ ∀ tokens rest,
        run? ⟨tokens, .number ⟨stage, negative, whole, fraction, false, []⟩⟩ (power ++ rest) =
          run? ⟨tokens, .number s⟩ rest := by
  cases h with
  | none =>
    refine ⟨_, ?_, ?_, fun tokens rest => rfl⟩ <;>
      rcases hstage with rfl | rfl | rfl <;> rfl
  | @marked mark minus sign c ds hmark hsign h =>
    refine ⟨⟨.exponent, negative, whole, fraction, minus, (c :: ds).reverse⟩, rfl, ?_, ?_⟩
    · simp [Scan.numeral]
    intro tokens rest
    have hdigit : c.isDigit := h c (by simp)
    have hds : ∀ d ∈ ds, d.isDigit := fun d hd => h d (by simp [hd])
    have marked : step? ⟨tokens, .number ⟨stage, negative, whole, fraction, false, []⟩⟩ mark =
        some ⟨tokens, .number ⟨.mark, negative, whole, fraction, false, []⟩⟩ := by
      rcases hstage with rfl | rfl | rfl <;> rcases hmark with rfl | rfl <;> rfl
    have first : run? ⟨tokens, .number ⟨.mark, negative, whole, fraction, false, []⟩⟩
          (sign ++ c :: ds ++ rest) =
        run? ⟨tokens, .number ⟨.exponent, negative, whole, fraction, minus, [c]⟩⟩
          (ds ++ rest) := by
      cases hsign with
      | none =>
        have hplus : c ≠ '+' := by
          rintro rfl
          simp at hdigit
        have hminus : c ≠ '-' := by
          rintro rfl
          simp at hdigit
        simp [run?, step?, Scan.step?, hplus, hminus, hdigit]
      | plus | minus => simp [run?, step?, Scan.step?, hdigit]
    simp only [List.cons_append, run?, marked]
    rw [first, run?_digits tokens hds (.inr (.inr rfl))]
    simp [Scan.more]

/-- However a numeral is written, the lexer is after it in a scan of it that may end. -/
theorem run?_number {n : Numeral} {written : List Char} (h : Number n written) :
    ∃ s : Scan, s.stage.isEnd ∧ s.numeral = n ∧ ∀ tokens rest,
      run? ⟨tokens, .between⟩ (written ++ rest) = run? ⟨tokens, .number s⟩ rest := by
  cases h with
  | @parts negative sign whole fraction point power exponent hsign hwhole hpoint hpower =>
    obtain ⟨first, hfirst, afterWhole⟩ := run?_whole hsign hwhole
    obtain ⟨second, hsecond, afterPoint⟩ := run?_point hfirst hpoint negative whole.reverse
    obtain ⟨s, hs, numeral, afterPower⟩ :=
      run?_power hsecond hpower negative whole.reverse fraction.reverse
    refine ⟨s, hs, by simpa using numeral, fun tokens rest => ?_⟩
    rw [List.append_assoc, List.append_assoc, afterWhole, afterPoint, afterPower]

/-- A numeral ends where a character follows that cannot continue one. -/
theorem run?_number_end {s : Scan} (hs : s.stage.isEnd) (h : s.numeral.isFinite) {c : Char}
    (hc : endsNumeral c) (rest : List Char) :
    run? ⟨tokens, .number s⟩ (c :: rest) =
      run? ⟨.number s.numeral :: tokens, .between⟩ (c :: rest) := by
  simp only [run?, step?, Scan.step?_ends hs hc, Scan.finish?_eq hs h]

/-- Four digits are read as their code unit. -/
theorem run?_codeUnit {unit : Nat} {ds : List Char} (h : CodeUnit unit ds) {done : List Char}
    {high : Option Nat} {m : Mode} (hm : closeCode? done high unit = some m) (rest : List Char) :
    run? ⟨tokens, .code done high 0 4⟩ (ds ++ rest) = run? ⟨tokens, m⟩ rest := by
  cases h with
  | digits ha hb hc hd => simp [run?, step?, ha, hb, hc, hd, hm]

theorem closeCode?_toNat (done : List Char) (c : Char) :
    closeCode? done none c.toNat = some (.text (c :: done)) := by
  have valid : c.toNat < 0xD800 ∨ 0xDFFF < c.toNat ∧ c.toNat < 0x110000 := c.valid
  have notHigh : ¬ (0xD800 ≤ c.toNat ∧ c.toNat < 0xDC00) := by omega
  have notLow : ¬ (0xDC00 ≤ c.toNat ∧ c.toNat < 0xE000) := by omega
  simp [closeCode?, notHigh, notLow]

/-- However a character is written, it is read. -/
theorem run?_character {c : Char} {written : List Char} (h : Character c written)
    (done rest : List Char) :
    run? ⟨tokens, .text done⟩ (written ++ rest) = run? ⟨tokens, .text (c :: done)⟩ rest := by
  cases h with
  | plain hc hquote hback =>
    have visible : ¬ c.toNat < 32 := by omega
    simp [run?, step?, hquote, hback, visible]
  | letter h =>
    simp only [letters, List.mem_cons, Prod.mk.injEq, List.not_mem_nil, or_false] at h
    rcases h with ⟨rfl, rfl⟩ | ⟨rfl, rfl⟩ | ⟨rfl, rfl⟩ | ⟨rfl, rfl⟩ | ⟨rfl, rfl⟩ | ⟨rfl, rfl⟩ |
      ⟨rfl, rfl⟩ | ⟨rfl, rfl⟩ <;> rfl
  | @code unit hunit =>
    have opened : run? ⟨tokens, .text done⟩ ('\\' :: 'u' :: unit ++ rest) =
        run? ⟨tokens, .code done none 0 4⟩ (unit ++ rest) := rfl
    rw [opened, run?_codeUnit tokens hunit (closeCode?_toNat done c)]
  | @pair high low hc hhigh hlow =>
    have valid : c.toNat < 0xD800 ∨ 0xDFFF < c.toNat ∧ c.toNat < 0x110000 := c.valid
    have first : closeCode? done none (0xD800 + (c.toNat - 0x10000) / 0x400) =
        some (.half done (0xD800 + (c.toNat - 0x10000) / 0x400)) := by
      have isHigh : (c.toNat - 0x10000) / 0x400 < 0x400 := by omega
      simp [closeCode?]
      omega
    have second : closeCode? done (some (0xD800 + (c.toNat - 0x10000) / 0x400))
        (0xDC00 + (c.toNat - 0x10000) % 0x400) = some (.text (c :: done)) := by
      have joined : 0x10000 + (0xD800 + (c.toNat - 0x10000) / 0x400 - 0xD800) * 0x400
          + (0xDC00 + (c.toNat - 0x10000) % 0x400 - 0xDC00) = c.toNat := by omega
      have isLow : 0xDC00 + (c.toNat - 0x10000) % 0x400 < 0xE000 := by omega
      simp only [closeCode?, joined, isLow, Char.ofNat_toNat]
      simp
    have opened : run? ⟨tokens, .text done⟩ (('\\' :: 'u' :: high ++ '\\' :: 'u' :: low) ++ rest) =
        run? ⟨tokens, .code done none 0 4⟩ (high ++ '\\' :: 'u' :: (low ++ rest)) := by
      simp [run?, step?]
    have again (high : Nat) : run? ⟨tokens, .half done high⟩ ('\\' :: 'u' :: (low ++ rest)) =
        run? ⟨tokens, .code done (some high) 0 4⟩ (low ++ rest) := rfl
    rw [opened, run?_codeUnit tokens hhigh first, again, run?_codeUnit tokens hlow second]

theorem run?_characters {cs written : List Char} (h : Characters cs written)
    (done rest : List Char) :
    run? ⟨tokens, .text done⟩ (written ++ rest) =
      run? ⟨tokens, .text (cs.reverse ++ done)⟩ rest := by
  induction h generalizing done with
  | nil => rfl
  | cons hc _ ih =>
    rw [List.append_assoc, run?_character tokens hc, ih]
    simp

/-- However a token other than a numeral is written, it is read whatever follows. -/
theorem run?_spells {t : Token} {written : List Char} (h : Spells t written)
    (ht : ∀ n, t ≠ .number n) (rest : List Char) :
    run? ⟨tokens, .between⟩ (written ++ rest) = run? ⟨t :: tokens, .between⟩ rest := by
  cases h with
  | number => exact absurd rfl (ht _)
  | @text s written h =>
    have opened : run? ⟨tokens, .between⟩ ('"' :: written ++ ['"'] ++ rest) =
        run? ⟨tokens, .text []⟩ (written ++ '"' :: rest) := by
      simp [run?, step?, begin?, isSpace]
    rw [opened, run?_characters tokens h]
    simp [run?, step?, emit]
  | _ => rfl

theorem run?_gap {gap : List Char} (hgap : ∀ c ∈ gap, isSpace c) (rest : List Char) :
    run? ⟨tokens, .between⟩ (gap ++ rest) = run? ⟨tokens, .between⟩ rest := by
  induction gap with
  | nil => rfl
  | cons c gap ih =>
    have hc := hgap c (by simp)
    simp only [List.cons_append, run?, step?, begin?, hc, if_true]
    exact ih fun d hd => hgap d (by simp [hd])

end Lexer

/-- A numeral is followed by a token that ends it. -/
def Divides : Token → Token → Prop
  | .number _, t => t = .comma ∨ t = .closeArray ∨ t = .closeObject
  | _, _ => True

namespace Lexer

/-- What follows a numeral begins with a character that ends it. -/
theorem exists_endsNumeral {n : Numeral} {u : Token} (hu : Divides (.number n) u) {ts : List Token}
    {gap rest : List Char} (hgap : ∀ c ∈ gap, isSpace c) (h : Spaced (u :: ts) rest) :
    ∃ c more, gap ++ rest = c :: more ∧ Numeral.endsNumeral c := by
  have first : ∃ c more, rest = c :: more ∧ Numeral.endsNumeral c := by
    cases h with
    | one h =>
      rcases hu with rfl | rfl | rfl <;> cases h <;> exact ⟨_, _, rfl, rfl⟩
    | more h =>
      rcases hu with rfl | rfl | rfl <;> cases h <;> exact ⟨_, _, rfl, rfl⟩
  cases gap with
  | nil => exact first
  | cons c gap => exact ⟨c, gap ++ rest, rfl, by simp [Numeral.endsNumeral, hgap c]⟩

/-- However a token is written, it is read before another that divides it from what follows. -/
theorem run?_more (tokens : List Token) {t u : Token} {ts : List Token}
    {written gap rest : List Char} (h : Spells t written) (hgap : ∀ c ∈ gap, isSpace c)
    (hrest : Spaced (u :: ts) rest) (hdivides : Divides t u)
    (hfinite : ∀ n, t = .number n → n.isFinite) :
    run? ⟨tokens, .between⟩ (written ++ gap ++ rest) = run? ⟨t :: tokens, .between⟩ rest := by
  rw [List.append_assoc, ← run?_gap (t :: tokens) hgap]
  by_cases ht : ∃ n, t = .number n
  · obtain ⟨n, rfl⟩ := ht
    cases h with
    | number h =>
      obtain ⟨s, hs, rfl, read⟩ := run?_number h
      obtain ⟨c, more, hnext, hc⟩ := exists_endsNumeral hdivides hgap hrest
      rw [hnext, read, run?_number_end tokens hs (hfinite _ rfl) hc]
  · exact run?_spells tokens h (fun n hn => ht ⟨n, hn⟩) _

/-- However tokens are written and spaced, they are read. -/
theorem run?_spaced (tokens : List Token) {ts : List Token} {text : List Char}
    (h : Spaced ts text) (hdivided : ts.IsChain Divides)
    (hfinite : ∀ n, .number n ∈ ts → n.isFinite) :
    ∃ l, run? ⟨tokens, .between⟩ text = some l ∧ l.finish? = some (tokens.reverse ++ ts) := by
  induction h generalizing tokens with
  | @one t written h =>
    by_cases ht : ∃ n, t = .number n
    · obtain ⟨n, rfl⟩ := ht
      cases h with
      | number h =>
        obtain ⟨s, hs, rfl, read⟩ := run?_number h
        refine ⟨⟨tokens, .number s⟩, ?_, ?_⟩
        · simpa [run?] using read tokens []
        · simp [finish?, Numeral.Scan.finish?_eq hs (hfinite _ (by simp))]
    · refine ⟨⟨t :: tokens, .between⟩, ?_, by simp [finish?]⟩
      simpa [run?] using run?_spells tokens h (fun n hn => ht ⟨n, hn⟩) []
  | @more t u ts written gap rest h hgap hrest ih =>
    obtain ⟨hdivides, hmore⟩ := List.isChain_cons_cons.mp hdivided
    obtain ⟨l, hl, hfinish⟩ := ih (t :: tokens) hmore fun n hn => hfinite n (by simp [hn])
    refine ⟨l, ?_, by simpa using hfinish⟩
    rw [← hl]
    apply run?_more tokens h hgap hrest hdivides
    rintro n rfl
    exact hfinite n (by simp)

end Lexer

/-- However tokens are written and spaced, a text of them has these tokens. -/
theorem scan?_of_spaced {ts : List Token} {text : List Char} (h : Spaced ts text)
    (hdivided : ts.IsChain Divides) (hfinite : ∀ n, .number n ∈ ts → n.isFinite) :
    Token.scan? text = some ts := by
  obtain ⟨l, hl, hfinish⟩ := Lexer.run?_spaced [] h hdivided hfinite
  simpa [Token.scan?, hl] using hfinish

end TermLink.Json
