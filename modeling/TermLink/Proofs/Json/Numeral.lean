import TermLink.Json.Token
import Mathlib.Algebra.Order.Field.Power
import Mathlib.Algebra.Order.Field.Rat
import Mathlib.Tactic.Linarith
import Mathlib.Tactic.NormNum
import Mathlib.Tactic.Positivity
import Mathlib.Tactic.Ring

/-!
# Numerals and their numbers

An integer has a numeral that spells it again. The number of a numeral is finite up to `largest`,
which leaves room for the roundings of the computation.

## Implementation notes

The digits that are taken of a numeral, with the power of ten that goes with them, never spell more
than the numeral. `Significand.Whole` and `Significand.Part` say so of the digits read so far,
before the point and after it.
-/

namespace TermLink.Json.Numeral

theorem toInt?_ofInt (z : Int) : (ofInt z).toInt? = some z := by
  simp only [ofInt, toInt?, Text.digits, Nat.ofDigitChars_ten_toDigits, and_self, if_true]
  by_cases hz : z < 0
  · have hsize : z.natAbs ≠ 0 := by omega
    have value : -(z.natAbs : Int) = z := by omega
    rw [if_pos (decide_eq_true hz), if_neg hsize, value]
  · have value : (z.natAbs : Int) = z := by omega
    rw [if_neg (by simpa using hz), value]

theorem digits_eq (n : Nat) :
    Text.digits n = ['0'] ∧ n = 0 ∨
      ∃ c ds, Text.digits n = c :: ds ∧ c ≠ '0' ∧ ∀ d ∈ c :: ds, d.isDigit := by
  by_cases hn : n = 0
  · exact .inl ⟨by rw [hn, Text.digits, Nat.toDigits_zero], hn⟩
  · right
    induction n using Nat.strongRecOn with
    | _ n ih =>
      have hdigit : ∀ d ∈ Text.digits n, d.isDigit := by
        intro d hd
        exact Nat.isDigit_of_mem_toDigits (by omega) (by omega) hd
      rw [Text.digits, Nat.toDigits_eq_if (by omega)] at hdigit ⊢
      split
      · have all : ∀ k : Fin 10, k.val ≠ 0 → k.val.digitChar ≠ '0' := by decide
        refine ⟨_, _, rfl, all ⟨n, by omega⟩ hn, ?_⟩
        simp [*]
      · obtain ⟨c, ds, hcs, hc, -⟩ := ih (n / 10) (by omega) (by omega)
        rw [Text.digits] at hcs
        refine ⟨c, ds ++ [(n % 10).digitChar], by rw [hcs]; rfl, hc, ?_⟩
        rw [if_neg ‹_›, hcs] at hdigit
        simpa using hdigit

/-- The power of ten that an exponent stands for. -/
def power (n : Numeral) : Int :=
  match n.exponent with
  | none => 0
  | some e =>
    let size : Int := Nat.ofDigitChars 10 e.digits 0
    if e.negative then -size else size

/-- The exact size of the number that a numeral spells, whatever its sign. -/
def size (n : Numeral) : ℚ :=
  Nat.ofDigitChars 10 (n.whole ++ n.fraction) 0 * 10 ^ (n.power - n.fraction.length)

theorem ofDigitChars_cons_mul (c : Char) (ds : List Char) (v : Nat) :
    Nat.ofDigitChars 10 (c :: ds) v = Nat.ofDigitChars 10 ds (v * 10 + (c.toNat - 48)) := by
  rw [Nat.ofDigitChars_cons, Nat.mul_comm]
  rfl

/-- The digits before the point that were taken, which spell `read` together with those that only
count. -/
structure Significand.Whole (s : Significand) (read : Nat) : Prop where
  fits : s.value < UInt64.size
  le : (s.value : ℚ) * 10 ^ s.scale ≤ read
  scale : s.full = false → s.scale = 0
  full : s.full = true → (UInt64.size : ℚ) * 10 ^ (s.scale - 1) ≤ read

variable {s : Significand} {read : Nat}

theorem Significand.Whole.takeWhole (h : s.Whole read) (c : Char) :
    (s.takeWhole c).Whole (read * 10 + (c.toNat - 48)) := by
  have ten : (10 : ℚ) ≠ 0 := by norm_num
  have more : (0 : ℚ) ≤ (c.toNat - 48 : Nat) := Nat.cast_nonneg _
  simp only [Significand.takeWhole]
  split
  · next hfull =>
    refine ⟨h.fits, ?_, by simp, fun _ => ?_⟩
    · rw [zpow_add_one₀ ten, ← mul_assoc]
      push_cast
      linarith [h.le]
    · rw [add_sub_cancel_right]
      cases hf : s.full with
      | true =>
        have low := h.full hf
        have step : (UInt64.size : ℚ) * 10 ^ s.scale = UInt64.size * 10 ^ (s.scale - 1) * 10 := by
          rw [mul_assoc, ← zpow_add_one₀ ten, sub_add_cancel]
        rw [step]
        push_cast at low ⊢
        linarith
      | false =>
        rw [hf, Bool.false_or, decide_eq_true_eq] at hfull
        have zero := h.scale hf
        have le := h.le
        rw [zero, zpow_zero, mul_one] at le ⊢
        have value : s.value ≤ read := by exact_mod_cast le
        have : UInt64.size ≤ read * 10 + (c.toNat - 48) := by omega
        exact_mod_cast this
  · next hfits =>
    simp only [Bool.or_eq_true, decide_eq_true_eq, not_or, Nat.not_le, Bool.not_eq_true] at hfits
    have zero := h.scale hfits.1
    refine ⟨hfits.2, ?_, fun _ => zero, fun hf => absurd hf (by simp [hfits.1])⟩
    have le := h.le
    rw [zero, zpow_zero, mul_one] at le ⊢
    have value : s.value ≤ read := by exact_mod_cast le
    have : s.value * 10 + (c.toNat - 48) ≤ read * 10 + (c.toNat - 48) := by omega
    exact_mod_cast this

theorem Significand.Whole.foldl (h : s.Whole read) (ds : List Char) :
    (ds.foldl Significand.takeWhole s).Whole (Nat.ofDigitChars 10 ds read) := by
  induction ds generalizing s read with
  | nil => exact h
  | cons c ds ih =>
    rw [ofDigitChars_cons_mul]
    exact ih (h.takeWhole c)

/-- The digits that were taken, which spell `read` with `places` of them after the point. One more
digit is taken only where it fits or stands for no more than it does in the numeral. -/
structure Significand.Part (s : Significand) (read places : Nat) : Prop where
  le : (s.value : ℚ) * 10 ^ s.scale ≤ read * 10 ^ (-places : ℤ)
  room : s.full = true ∨ s.scale ≤ -places
    ∨ (UInt64.size : ℚ) * 10 ^ (s.scale - 1) ≤ read * 10 ^ (-places : ℤ)

variable {places : Nat}

theorem Significand.Whole.part (h : s.Whole read) : Part { s with full := false } read 0 := by
  refine ⟨by simpa using h.le, .inr ?_⟩
  cases hf : s.full with
  | false => exact .inl (by simp [h.scale hf])
  | true => exact .inr (by simpa using h.full hf)

theorem Significand.Part.takeFraction (h : s.Part read places) (c : Char) :
    (s.takeFraction c).Part (read * 10 + (c.toNat - 48)) (places + 1) := by
  have ten : (10 : ℚ) ≠ 0 := by norm_num
  have next : ((read * 10 + (c.toNat - 48) : Nat) : ℚ) * 10 ^ (-(places + 1 : Nat) : ℤ) =
      read * 10 ^ (-places : ℤ) + (c.toNat - 48 : Nat) * 10 ^ (-places - 1 : ℤ) := by
    have place : (-(places + 1 : Nat) : ℤ) = -places - 1 := by omega
    rw [place, zpow_sub_one₀ ten]
    push_cast
    ring
  have more : (0 : ℚ) ≤ (c.toNat - 48 : Nat) * 10 ^ (-places - 1 : ℤ) := by positivity
  simp only [Significand.takeFraction]
  split
  · exact ⟨by rw [next]; linarith [h.le], .inl rfl⟩
  · next hfits =>
    simp only [Bool.or_eq_true, decide_eq_true_eq, not_or, Nat.not_le, Bool.not_eq_true] at hfits
    rcases h.room with hfull | hscale | hlarge
    · rw [hfits.1] at hfull
      cases hfull
    · refine ⟨?_, .inr (.inl (by dsimp only; omega))⟩
      have digit : ((c.toNat - 48 : Nat) : ℚ) * 10 ^ (s.scale - 1) ≤
          (c.toNat - 48 : Nat) * 10 ^ (-places - 1 : ℤ) := by
        gcongr
        norm_num
      have taken : ((s.value * 10 + (c.toNat - 48) : Nat) : ℚ) * 10 ^ (s.scale - 1) =
          s.value * 10 ^ s.scale + (c.toNat - 48 : Nat) * 10 ^ (s.scale - 1) := by
        rw [zpow_sub_one₀ ten]
        push_cast
        ring
      rw [next, taken]
      linarith [h.le]
    · have low : (10 : ℚ) ^ (s.scale - 1 - 1) ≤ 10 ^ (s.scale - 1) :=
        zpow_le_zpow_right₀ (by norm_num) (by omega)
      refine ⟨?_, .inr (.inr ?_)⟩
      · have value : ((s.value * 10 + (c.toNat - 48) : Nat) : ℚ) ≤ UInt64.size := by
          exact_mod_cast hfits.2.le
        have small : ((s.value * 10 + (c.toNat - 48) : Nat) : ℚ) * 10 ^ (s.scale - 1) ≤
            UInt64.size * 10 ^ (s.scale - 1) := by gcongr
        rw [next]
        linarith
      · have lower : (UInt64.size : ℚ) * 10 ^ (s.scale - 1 - 1) ≤
            UInt64.size * 10 ^ (s.scale - 1) := by gcongr
        rw [next]
        linarith

theorem Significand.Part.foldl (h : s.Part read places) (ds : List Char) :
    (ds.foldl Significand.takeFraction s).Part (Nat.ofDigitChars 10 ds read)
      (places + ds.length) := by
  induction ds generalizing s read places with
  | nil => exact h
  | cons c ds ih =>
    have rest := ih (h.takeFraction c)
    rw [ofDigitChars_cons_mul, List.length_cons]
    rwa [Nat.add_assoc, Nat.add_comm 1] at rest

/-- The digits that are taken spell no more than the numeral. -/
theorem significand_le (n : Numeral) :
    (n.significand.value : ℚ) * 10 ^ n.significand.scale ≤ n.size := by
  have ten : (10 : ℚ) ≠ 0 := by norm_num
  have none : Significand.Whole {} 0 := ⟨by decide, by simp, by simp, by simp⟩
  have all := (none.foldl n.whole).part.foldl n.fraction
  have digits : Nat.ofDigitChars 10 n.fraction (Nat.ofDigitChars 10 n.whole 0) =
      Nat.ofDigitChars 10 (n.whole ++ n.fraction) 0 := by
    simp [Nat.ofDigitChars]
  have le := all.le
  rw [digits, Nat.zero_add] at le
  have shifted : (n.significand.value : ℚ) * 10 ^ n.significand.scale =
      (n.fraction.foldl Significand.takeFraction
        { n.whole.foldl Significand.takeWhole {} with full := false }).value *
      10 ^ (n.fraction.foldl Significand.takeFraction
        { n.whole.foldl Significand.takeWhole {} with full := false }).scale * 10 ^ n.power := by
    rw [mul_assoc, ← zpow_add₀ ten]
    simp only [significand, power]
    cases n.exponent with
    | none => simp
    | some e => cases he : e.negative <;> simp [he, sub_eq_add_neg]
  have size : n.size = Nat.ofDigitChars 10 (n.whole ++ n.fraction) 0 *
      10 ^ (-n.fraction.length : ℤ) * 10 ^ n.power := by
    rw [Numeral.size, mul_assoc, ← zpow_add₀ ten, neg_add_eq_sub]
  rw [shifted, size]
  gcongr

/-- Rounding to 53 bits adds no more than one part in `2 ^ 53`. -/
theorem roundSignificant_mul_le (n : Nat) : roundSignificant n * 2 ^ 53 ≤ n * (2 ^ 53 + 1) := by
  simp only [roundSignificant]
  split
  · omega
  · next hbits =>
    have half : 1 <<< (n.log2 + 1 - 53) * 2 ^ 52 ≤ n := by
      have hn : n ≠ 0 := by
        rintro rfl
        simp at hbits
      have bits : n.log2 + 1 - 53 + 52 = n.log2 := by omega
      rw [Nat.one_shiftLeft, ← Nat.pow_add, bits]
      exact Nat.log2_self_le hn
    generalize 1 <<< (n.log2 + 1 - 53) = unit at half ⊢
    have parts := Nat.div_add_mod n unit
    split
    · next hup =>
      have nearest : unit ≤ 2 * (n % unit) := by
        simp only [Bool.or_eq_true, Bool.and_eq_true, decide_eq_true_eq] at hup
        omega
      have rounded : (n / unit + 1) * unit * 2 ≤ n * 2 + unit := by
        rw [Nat.add_mul, Nat.mul_comm (n / unit)]
        omega
      calc
        (n / unit + 1) * unit * 2 ^ 53 = (n / unit + 1) * unit * 2 * 2 ^ 52 := by
          rw [Nat.pow_succ' (n := 52), Nat.mul_assoc _ 2]
        _ ≤ (n * 2 + unit) * 2 ^ 52 := Nat.mul_le_mul_right _ rounded
        _ = n * 2 ^ 53 + unit * 2 ^ 52 := by
          rw [Nat.add_mul, Nat.mul_assoc n 2, ← Nat.pow_succ' (n := 52)]
        _ ≤ n * (2 ^ 53 + 1) := by
          rw [Nat.mul_add, Nat.mul_one]
          exact Nat.add_le_add_left half _
    · calc
        n / unit * unit * 2 ^ 53 ≤ n * 2 ^ 53 :=
          Nat.mul_le_mul_right _ (Nat.div_mul_le_self n unit)
        _ ≤ n * (2 ^ 53 + 1) := Nat.mul_le_mul_left n (Nat.le_succ _)

/-- Three units of the last place below the largest number of double precision. -/
def largest : Nat := 2 ^ 1024 - 2 ^ 973

/-- A product that is not too large is finite when both factors and then it are rounded. -/
theorem rounded_mul_lt {v p : Nat} (h : v * p ≤ largest) :
    roundSignificant (roundSignificant v * roundSignificant p) < 1 <<< 1024 := by
  have bound : largest * (2 ^ 53 + 1) ^ 3 < 1 <<< 1024 * (2 ^ 53) ^ 3 := by decide +kernel
  have left := roundSignificant_mul_le v
  have right := roundSignificant_mul_le p
  have product := roundSignificant_mul_le (roundSignificant v * roundSignificant p)
  generalize roundSignificant v = a at *
  generalize roundSignificant p = b at *
  generalize roundSignificant (a * b) = r at *
  generalize 2 ^ 53 = unit at *
  have cubes : r * unit ^ 3 < 1 <<< 1024 * unit ^ 3 := by
    calc
      r * unit ^ 3 = r * unit * unit ^ 2 := by ring
      _ ≤ a * b * (unit + 1) * unit ^ 2 := Nat.mul_le_mul_right _ product
      _ = a * unit * (b * unit) * (unit + 1) := by ring
      _ ≤ v * (unit + 1) * (p * (unit + 1)) * (unit + 1) :=
        Nat.mul_le_mul_right _ (Nat.mul_le_mul left right)
      _ = v * p * (unit + 1) ^ 3 := by ring
      _ ≤ largest * (unit + 1) ^ 3 := Nat.mul_le_mul_right _ h
      _ < 1 <<< 1024 * unit ^ 3 := bound
  exact Nat.lt_of_mul_lt_mul_right cubes

/-- A number up to `largest` is finite, however it is spelled. Above it, the roundings of the
computation may add up to an infinite value. -/
theorem isFinite_of_size_le {n : Numeral} (h : n.size ≤ largest) : n.isFinite := by
  have le := (significand_le n).trans h
  simp only [isFinite]
  split
  · rfl
  · next hsome =>
    simp only [Bool.or_eq_true, decide_eq_true_eq, not_or, Int.not_lt] at hsome
    obtain ⟨places, hplaces⟩ := Int.eq_ofNat_of_zero_le hsome.2
    rw [hplaces, zpow_natCast] at le
    have product : n.significand.value * 10 ^ places ≤ largest := by exact_mod_cast le
    have few : ¬ 308 < places := by
      intro hmany
      have many : 10 ^ 309 ≤ 10 ^ places := pow_le_pow_right₀ (by decide) hmany
      have positive : 0 < n.significand.value := Nat.pos_of_ne_zero hsome.1
      have high : 10 ^ places ≤ n.significand.value * 10 ^ places :=
        Nat.le_mul_of_pos_left _ positive
      have low : largest < 10 ^ 309 := by decide +kernel
      exact absurd (many.trans (high.trans product)) (Nat.not_le.mpr low)
    rw [if_neg (by omega), hplaces, Int.toNat_natCast]
    exact decide_eq_true (rounded_mul_lt product)

theorem isFinite_ofInt {z : Int} (h : z.natAbs < UInt64.size) : (ofInt z).isFinite := by
  apply isFinite_of_size_le
  have size : (ofInt z).size = z.natAbs := by
    simp [Numeral.size, ofInt, power, Text.digits]
  have small : UInt64.size ≤ largest := by decide +kernel
  rw [size]
  exact_mod_cast h.le.trans small

end TermLink.Json.Numeral
