import TermLink.Text.Blank
import TermLink.Text.Integer

/-!
# Integers and their texts

The text of an integer is read as that integer, and there is no white space in it.
-/

namespace TermLink.Text

theorem isDigit_of_mem_digits {n : Nat} {c : Char} (hc : c ∈ digits n) : c.isDigit :=
  Nat.isDigit_of_mem_toDigits (by decide) (by decide) hc

theorem natural?_digits (n : Nat) : natural? (digits n) = some n := by
  have all : (digits n).all Char.isDigit := by
    rw [List.all_eq_true]
    intro c hc
    exact isDigit_of_mem_digits hc
  have some : digits n ≠ [] := Nat.toDigits_ne_nil
  rw [natural?, if_pos (by simp [all, some]), digits, Nat.ofDigitChars_ten_toDigits]

/-- Digits begin with no sign. -/
theorem signed?_digits (n : Nat) : signed? (digits n) = some (n : Int) := by
  obtain ⟨c, cs, hcs⟩ := List.exists_cons_of_ne_nil (Nat.toDigits_ne_nil (n := n) (b := 10))
  have first : c ∈ digits n := by
    rw [digits, hcs]
    exact List.mem_cons_self
  have read := natural?_digits n
  rw [digits, hcs] at read ⊢
  have digit := isDigit_of_mem_digits first
  rw [signed?]
  · rw [unsigned?]
    · rw [read]
      rfl
    · rintro _ ⟨⟩
      cases digit
  · rintro _ ⟨⟩
    cases digit

theorem signed?_signedDigits (z : Int) : signed? (signedDigits z) = some z := by
  cases z with
  | ofNat n => exact signed?_digits n
  | negSucc n =>
    rw [signedDigits, signed?, natural?_digits]
    rfl

/-- A number of 64 bits is read from its text. -/
theorem int64?_signedDigits (n : Int64) :
    int64? (String.ofList (signedDigits n.toInt)) = some n := by
  have low := n.minValue_le_toInt
  have high := n.toInt_le
  rw [int64?, String.toList_ofList, signed?_signedDigits]
  dsimp only
  rw [if_pos ⟨low, high⟩, Int64.ofInt_toInt]

theorem isBlank_of_isDigit {c : Char} (hc : c.isDigit) : isBlank c = false := by
  have range : 48 ≤ c.toNat ∧ c.toNat ≤ 57 := by
    simpa [Char.isDigit, UInt32.le_iff_toNat_le] using hc
  simp [isBlank]
  omega

theorem isBlank_of_mem_signedDigits {z : Int} {c : Char} (hc : c ∈ signedDigits z) :
    isBlank c = false := by
  cases z with
  | ofNat n => exact isBlank_of_isDigit (isDigit_of_mem_digits hc)
  | negSucc n =>
    rcases List.mem_cons.mp hc with rfl | hc
    · decide
    · exact isBlank_of_isDigit (isDigit_of_mem_digits hc)

end TermLink.Text
