import TermLink.Text.Utf8
import Mathlib.Tactic.SplitIfs

/-!
# Text as bytes and back

The bytes of a text spell that text again, also for the forgiving reader, and an ASCII byte occurs
among them only where its character does.
-/

namespace TermLink.Utf8

theorem decode?_encode (text : String) : decode? (encode text) = some text := by
  have bytes : (⟨(encode text).toArray⟩ : ByteArray) = text.toByteArray := rfl
  rw [decode?, bytes, String.fromUTF8?, dif_pos text.isValidUTF8]
  rfl

@[simp] theorem encode_append (s t : String) : encode (s ++ t) = encode s ++ encode t := by
  simp [encode]

theorem encode_ofList (cs : List Char) :
    encode (String.ofList cs) = cs.flatMap String.utf8EncodeChar := by
  simp [encode, List.utf8Encode]

/-- A byte below 128 is the only byte of its character. -/
theorem eq_of_mem_utf8EncodeChar {c : Char} {b : UInt8} (hb : b.toNat < 128)
    (h : b ∈ String.utf8EncodeChar c) : c.toNat = b.toNat := by
  have hc : c.toNat = c.val.toNat := rfl
  simp only [String.utf8EncodeChar] at h
  split at h
  · have same := List.mem_singleton.mp h
    subst same
    simp [UInt8.toNat_ofNat'] at hb ⊢
    omega
  · split at h
    · simp at h
      rcases h with rfl | rfl <;> simp at hb <;> omega
    · split at h
      · simp at h
        rcases h with rfl | rfl | rfl <;> simp at hb <;> omega
      · simp at h
        rcases h with rfl | rfl | rfl | rfl <;> simp at hb <;> omega

/-- A character all of whose bytes are below 128 has one byte, which is its number. -/
theorem utf8EncodeChar_of_lt {c : Char} (h : ∀ b ∈ String.utf8EncodeChar c, b.toNat < 128) :
    String.utf8EncodeChar c = [UInt8.ofNat c.toNat] ∧ c.toNat < 128 := by
  have hc : c.toNat = c.val.toNat := rfl
  simp only [String.utf8EncodeChar] at h ⊢
  split_ifs at h ⊢
  · exact ⟨rfl, by omega⟩
  all_goals
    have first := h _ List.mem_cons_self
    simp at first
    omega

/-- A character below 128 has one byte, which is its number. -/
theorem utf8EncodeChar_eq {c : Char} (h : c.toNat < 128) :
    String.utf8EncodeChar c = [UInt8.ofNat c.toNat] := by
  have hc : c.val.toNat ≤ 127 := Nat.lt_succ_iff.mp h
  rw [String.utf8EncodeChar]
  simp only [hc, if_true]
  rfl

/-- Bytes below 128 are the characters of the text. -/
theorem map_encode {text : String} (h : ∀ b ∈ encode text, b.toNat < 128) :
    (encode text).map (fun b => Char.ofNat b.toNat) = text.toList := by
  have bytes : encode text = text.toList.flatMap String.utf8EncodeChar := by
    rw [← encode_ofList, String.ofList_toList]
  rw [bytes] at h ⊢
  generalize text.toList = cs at h
  induction cs with
  | nil => rfl
  | cons c cs ih =>
    rw [List.flatMap_cons] at h ⊢
    obtain ⟨byte, small⟩ := utf8EncodeChar_of_lt fun b hb => h b (List.mem_append_left _ hb)
    have number : (UInt8.ofNat c.toNat).toNat = c.toNat := by
      rw [UInt8.toNat_ofNat']
      omega
    rw [byte, List.map_append, ih fun b hb => h b (List.mem_append_right _ hb), List.map_singleton,
      number, Char.ofNat_toNat]
    rfl

/-- A byte that goes on with a character. -/
theorem Reader.step_continued {done : List Char} {p : Partial} {x : Nat} (hx : x < 64)
    (hlow : p.low.toNat ≤ x + 128) (hhigh : x + 128 ≤ p.high.toNat) :
    Reader.step ⟨done, some p⟩ (UInt8.ofNat (x + 128)) =
      if p.missing ≤ 1 then ⟨Char.ofNat (p.value * 64 + x) :: done, none⟩
      else ⟨done, some { value := p.value * 64 + x, missing := p.missing - 1 }⟩ := by
  have byte : (UInt8.ofNat (x + 128)).toNat = x + 128 := by
    rw [UInt8.toNat_ofNat']
    exact Nat.mod_eq_of_lt (by omega)
  have within : (p.low ≤ UInt8.ofNat (x + 128) && UInt8.ofNat (x + 128) ≤ p.high) = true := by
    rw [Bool.and_eq_true, decide_eq_true_eq, decide_eq_true_eq, UInt8.le_iff_toNat_le,
      UInt8.le_iff_toNat_le, byte]
    exact ⟨hlow, hhigh⟩
  simp only [Reader.step, within, if_true, byte, Nat.add_sub_cancel]

/-- A byte that goes on with a character, past the second one. -/
theorem Reader.step_inner {done : List Char} {value missing x : Nat} (hx : x < 64) :
    Reader.step ⟨done, some { value, missing }⟩ (UInt8.ofNat (x + 128)) =
      if missing ≤ 1 then ⟨Char.ofNat (value * 64 + x) :: done, none⟩
      else ⟨done, some { value := value * 64 + x, missing := missing - 1 }⟩ := by
  have high : x + 128 ≤ (0xBF : UInt8).toNat := by
    show x + 128 ≤ 191
    omega
  exact step_continued hx (Nat.le_add_left 128 x) high

/-- A byte that begins a character of several bytes. -/
theorem Reader.step_lead {done : List Char} {n : Nat} {p : Partial}
    (hp : Lead.ofByte (UInt8.ofNat n) = .opens p) :
    Reader.step ⟨done, none⟩ (UInt8.ofNat n) = ⟨done, some p⟩ := by
  simp only [Reader.step, Reader.start, hp]

/-- What begins a character of two bytes. -/
theorem Lead.ofByte_two {b : UInt8} (hlow : 0xC2 ≤ b.toNat) (hhigh : b.toNat < 0xE0) :
    Lead.ofByte b = .opens { value := b.toNat - 0xC0, missing := 1 } := by
  rw [Lead.ofByte, if_neg (by omega), if_neg (by omega), if_pos hhigh]

/-- What begins a character of three bytes. The bound for the next byte is looser than it may be at
the ends of the range. -/
theorem Lead.ofByte_three {b : UInt8} (hlow : 0xE0 ≤ b.toNat) (hhigh : b.toNat < 0xF0) :
    ∃ p : Partial, Lead.ofByte b = .opens p ∧ p.value = b.toNat - 0xE0 ∧ p.missing = 2
      ∧ p.low.toNat = (if b.toNat = 0xE0 then 0xA0 else 0x80)
      ∧ p.high.toNat = (if b.toNat = 0xED then 0x9F else 0xBF) := by
  by_cases first : b.toNat = 0xE0
  · refine ⟨{ value := 0, missing := 2, low := 0xA0 }, ?_, by simp [first]⟩
    rw [Lead.ofByte, if_neg (by omega), if_neg (by omega), if_neg (by omega), if_pos first]
  · by_cases last : b.toNat = 0xED
    · refine ⟨{ value := 0xD, missing := 2, high := 0x9F }, ?_, by simp [last]⟩
      rw [Lead.ofByte, if_neg (by omega), if_neg (by omega), if_neg (by omega), if_neg first,
        if_pos last]
    · refine ⟨{ value := b.toNat - 0xE0, missing := 2 }, ?_, by simp [first, last]⟩
      rw [Lead.ofByte, if_neg (by omega), if_neg (by omega), if_neg (by omega), if_neg first,
        if_neg last, if_pos hhigh]

/-- What begins a character of four bytes. -/
theorem Lead.ofByte_four {b : UInt8} (hlow : 0xF0 ≤ b.toNat) (hhigh : b.toNat < 0xF5) :
    ∃ p : Partial, Lead.ofByte b = .opens p ∧ p.value = b.toNat - 0xF0 ∧ p.missing = 3
      ∧ p.low.toNat = (if b.toNat = 0xF0 then 0x90 else 0x80)
      ∧ p.high.toNat = (if b.toNat = 0xF4 then 0x8F else 0xBF) := by
  have past : ¬ b.toNat < 0x80 ∧ ¬ b.toNat < 0xC2 ∧ ¬ b.toNat < 0xE0 ∧ ¬ b.toNat = 0xE0
      ∧ ¬ b.toNat = 0xED ∧ ¬ b.toNat < 0xF0 := by omega
  obtain ⟨h1, h2, h3, h4, h5, h6⟩ := past
  by_cases first : b.toNat = 0xF0
  · refine ⟨{ value := 0, missing := 3, low := 0x90 }, ?_, by simp [first]⟩
    rw [Lead.ofByte, if_neg h1, if_neg h2, if_neg h3, if_neg h4, if_neg h5, if_neg h6,
      if_pos first]
  · by_cases last : b.toNat = 0xF4
    · refine ⟨{ value := 4, missing := 3, high := 0x8F }, ?_, by simp [last]⟩
      rw [Lead.ofByte, if_neg h1, if_neg h2, if_neg h3, if_neg h4, if_neg h5, if_neg h6,
        if_neg first, if_neg (by omega), if_pos last]
    · refine ⟨{ value := b.toNat - 0xF0, missing := 3 }, ?_, by simp [first, last]⟩
      rw [Lead.ofByte, if_neg h1, if_neg h2, if_neg h3, if_neg h4, if_neg h5, if_neg h6,
        if_neg first, if_pos (by omega)]

/-- The forgiving reader reads the bytes of a character as that character. -/
theorem Reader.foldl_utf8EncodeChar (c : Char) (done : List Char) :
    (String.utf8EncodeChar c).foldl Reader.step ⟨done, none⟩ = ⟨c :: done, none⟩ := by
  have hc : Char.ofNat c.val.toNat = c := Char.ofNat_toNat c
  have hv : c.val.toNat < 0xD800 ∨ 0xDFFF < c.val.toNat ∧ c.val.toNat < 0x110000 := c.valid
  simp only [String.utf8EncodeChar]
  generalize c.val.toNat = v at hc hv ⊢
  have byte {n : Nat} (hn : n < 256) : (UInt8.ofNat n).toNat = n := by
    rw [UInt8.toNat_ofNat']
    exact Nat.mod_eq_of_lt hn
  split
  · next one =>
    have lead : Lead.ofByte (UInt8.ofNat v) = .character c := by
      rw [Lead.ofByte, byte (by omega), if_pos (by omega), hc]
    simp only [List.foldl_cons, List.foldl_nil, Reader.step, Reader.start, lead]
  split
  · next two =>
    have number := byte (n := v / 64 % 32 + 192) (by omega)
    have lead := Lead.ofByte_two (b := UInt8.ofNat (v / 64 % 32 + 192)) (by omega) (by omega)
    have whole : (v / 64 % 32 + 192 - 192) * 64 + v % 64 = v := by omega
    rw [number] at lead
    simp only [List.foldl_cons, List.foldl_nil, Reader.step_lead lead]
    rw [Reader.step_inner (by omega)]
    simp only [Nat.le_refl, if_true, whole, hc]
  split
  · next three =>
    have number := byte (n := v / 4096 % 16 + 224) (by omega)
    obtain ⟨p, lead, value, missing, lowest, highest⟩ :=
      Lead.ofByte_three (b := UInt8.ofNat (v / 4096 % 16 + 224)) (by omega) (by omega)
    rw [number] at value lowest highest
    have whole : (p.value * 64 + v / 64 % 64) * 64 + v % 64 = v := by omega
    simp only [List.foldl_cons, List.foldl_nil, Reader.step_lead lead]
    rw [Reader.step_continued (by omega) (by split at lowest <;> omega)
      (by split at highest <;> omega), if_neg (by omega), Reader.step_inner (by omega)]
    simp only [missing, Nat.reduceSub, Nat.le_refl, if_true, whole, hc]
  · next four =>
    have number := byte (n := v / 262144 % 8 + 240) (by omega)
    obtain ⟨p, lead, value, missing, lowest, highest⟩ :=
      Lead.ofByte_four (b := UInt8.ofNat (v / 262144 % 8 + 240)) (by omega) (by omega)
    rw [number] at value lowest highest
    have whole : ((p.value * 64 + v / 4096 % 64) * 64 + v / 64 % 64) * 64 + v % 64 = v := by omega
    simp only [List.foldl_cons, List.foldl_nil, Reader.step_lead lead]
    rw [Reader.step_continued (by omega) (by split at lowest <;> omega)
      (by split at highest <;> omega), if_neg (by omega), Reader.step_inner (by omega),
      if_neg (by omega), Reader.step_inner (by omega)]
    simp only [missing, Nat.reduceSub, Nat.le_refl, if_true, whole, hc]

/-- The forgiving reader reads the bytes of a text as that text. -/
theorem decodeLossy_encode (text : String) : decodeLossy (encode text) = text := by
  have bytes : encode text = text.toList.flatMap String.utf8EncodeChar := by
    rw [← encode_ofList, String.ofList_toList]
  have read (cs done : List Char) :
      (cs.flatMap String.utf8EncodeChar).foldl Reader.step ⟨done, none⟩ =
        ⟨cs.reverse ++ done, none⟩ := by
    induction cs generalizing done with
    | nil => rfl
    | cons c cs ih =>
      rw [List.flatMap_cons, List.foldl_append, Reader.foldl_utf8EncodeChar, ih]
      simp
  rw [decodeLossy, bytes, read]
  simp [Reader.finish]

end TermLink.Utf8
