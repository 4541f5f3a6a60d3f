import TermLink.Proofs.Json.Tree

/-!
# Compact texts

The compact text of a value is one of the ways to write it, and so that value is read from it.
-/

namespace TermLink.Json

open Grammar

theorem codeUnit_digits {v : Nat} (hv : v < 256) :
    CodeUnit v ['0', '0', Hex.digit (v / 16), Hex.digit (v % 16)] := by
  have value (v : Nat) (hv : v < 16) : Hex.value? (Hex.digit v) = some v := by
    have all : ∀ v : Fin 16, Hex.value? (Hex.digit v) = some v.val := by decide
    exact all ⟨v, hv⟩
  have zero : Hex.value? '0' = some 0 := rfl
  have unit := CodeUnit.digits zero zero (value (v / 16) (by omega)) (value (v % 16) (by omega))
  have whole : ((0 * 16 + 0) * 16 + v / 16) * 16 + v % 16 = v := by omega
  rwa [whole] at unit

/-- An escape is one of the ways to write a character. -/
theorem character_escaped (c : Char) : Character c (escaped c) := by
  unfold escaped
  split
  · subst_vars
    exact .letter (by decide)
  split
  · subst_vars
    exact .letter (by decide)
  split
  · subst_vars
    exact .letter (by decide)
  split
  · subst_vars
    exact .letter (by decide)
  split
  · subst_vars
    exact .letter (by decide)
  split
  · have hc : c = Char.ofNat 8 := by rw [← Char.ofNat_toNat c, ‹c.toNat = 8›]
    subst hc
    exact .letter (by decide)
  split
  · have hc : c = Char.ofNat 12 := by rw [← Char.ofNat_toNat c, ‹c.toNat = 12›]
    subst hc
    exact .letter (by decide)
  split
  · exact .code (codeUnit_digits (by omega))
  · exact .plain (by omega) ‹_› ‹_›

theorem characters_escaped (cs : List Char) : Characters cs (cs.flatMap escaped) := by
  induction cs with
  | nil => exact .nil
  | cons c cs ih => exact .cons (character_escaped c) ih

theorem whole_digits (n : Nat) : Whole (Text.digits n) := by
  rcases Numeral.digits_eq n with ⟨hd, -⟩ | ⟨c, ds, hd, hc, hdigit⟩
  · rw [hd]
    exact .zero
  · rw [hd]
    exact .digits hc hdigit

theorem number_ofInt (z : Int) : Number (.ofInt z) (Numeral.ofInt z).spelling := by
  have sign : Sign (decide (z < 0)) (if (decide (z < 0)) = true then ['-'] else []) := by
    by_cases hz : z < 0
    · simpa [hz] using Sign.minus
    · simpa [hz] using Sign.plus
  exact .parts sign (whole_digits _) .none .none

/-- The shortest spelling is one of the ways to write a token. -/
theorem spells_spelling (t : Token) (ht : ∀ x, t ≠ .number x) : Spells t t.spelling := by
  cases t with
  | number x => exact absurd rfl (ht x)
  | text s => exact .text (characters_escaped s.toList)
  | boolean b =>
    cases b with
    | true => exact .true
    | false => exact .false
  | openObject => exact .openObject
  | closeObject => exact .closeObject
  | openArray => exact .openArray
  | closeArray => exact .closeArray
  | colon => exact .colon
  | comma => exact .comma
  | null => exact .null

theorem spaced_flatMap {ts : List Token} (hts : ts ≠ []) (h : ∀ t ∈ ts, Spells t t.spelling) :
    Spaced ts (ts.flatMap Token.spelling) := by
  induction ts with
  | nil => exact absurd rfl hts
  | cons t ts ih =>
    have head := h t (by simp)
    cases ts with
    | nil => simpa using Spaced.one head
    | cons u ts =>
      have tail := ih (by simp) fun v hv => h v (List.mem_cons_of_mem _ hv)
      have noGap : ∀ c ∈ [], isSpace c := by simp
      simpa using Spaced.more head noGap tail

/-- The compact text of a value writes it. -/
theorem writes_render {n : Nat} {v : Json} (h : Plain n v) : Writes v v.render := by
  obtain ⟨t, ts, hts, -⟩ := Build.tokens_head v
  refine spaced_flatMap (by simp [hts]) (h.within.forall_tokens spells_spelling ?_)
  rintro x ⟨z, -, rfl⟩
  exact .number (number_ofInt z)

/-- The compact text of a plain value spells that value. -/
theorem parse?_render {n : Nat} {v : Json} (h : Plain n v) (hn : n ≤ maxDepth) :
    parse? v.render = some v :=
  parse?_of_writes h.finite hn (writes_render h)

end TermLink.Json
