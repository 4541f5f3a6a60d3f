import Mathlib.Data.String.Basic
import Mathlib.Tactic.SplitIfs
import TermLink.Proofs.Text.Utf8

/-!
# The order of texts and of their bytes

Texts are ordered as their bytes are, byte by byte.
-/

namespace TermLink.Utf8

theorem toNat_lt (c : Char) : c.val.toNat < 0x110000 := by
  rcases c.valid with h | ⟨-, h⟩
  · exact Nat.lt_trans h (by decide)
  · exact h

/-- The bytes of two characters differ before either ends, so what follows does not matter. -/
theorem encodeChar_append_lt {c d : Char} (h : c < d) (u w : Bytes) :
    String.utf8EncodeChar c ++ u < String.utf8EncodeChar d ++ w := by
  have before : c.val.toNat < d.val.toNat := h
  have bound := toNat_lt d
  simp only [String.utf8EncodeChar]
  generalize c.val.toNat = m at *
  generalize d.val.toNat = n at *
  -- Four lengths on each side; the remainders that cut to a byte are gone before arithmetic starts.
  split_ifs <;>
    simp only [List.cons_append, List.nil_append, List.cons_lt_cons_iff, UInt8.lt_iff_toNat_lt,
      ← UInt8.toNat_inj, UInt8.toNat_ofNat'] <;>
    simp (disch := omega) only [Nat.mod_eq_of_lt] <;>
    omega

theorem flatMap_encodeChar_lt {a b : List Char} (h : a < b) :
    a.flatMap String.utf8EncodeChar < b.flatMap String.utf8EncodeChar := by
  induction h with
  | @nil d ds =>
    obtain ⟨x, xs, hx⟩ := List.exists_cons_of_ne_nil (String.utf8EncodeChar_ne_nil (c := d))
    simp [hx]
  | rel h => exact encodeChar_append_lt h _ _
  | cons _ ih => exact List.append_left_lt ih

theorem encode_lt_of_lt {a b : String} (h : a < b) : encode a < encode b := by
  rw [← String.ofList_toList (s := a), ← String.ofList_toList (s := b), encode_ofList,
    encode_ofList]
  exact flatMap_encodeChar_lt (String.lt_iff_toList_lt.mp h)

/-- One text comes before another just when its bytes do. -/
theorem encode_lt_iff {a b : String} : encode a < encode b ↔ a < b := by
  constructor
  · intro h
    rcases lt_trichotomy a b with hlt | rfl | hgt
    · exact hlt
    · exact absurd h (List.lt_irrefl _)
    · exact absurd h (List.lt_asymm (encode_lt_of_lt hgt))
  · exact encode_lt_of_lt

end TermLink.Utf8
