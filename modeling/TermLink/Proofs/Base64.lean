import TermLink.Base64
import Mathlib.Data.Nat.Digits.Defs

/-!
# Base64 round trip

What `encode` writes is the standard text of a payload; `decode?` reads it back, and it reads
nothing else.
-/

namespace TermLink.Base64

theorem value?_symbol {v : Nat} (h : v < 64) : value? (symbol v) = some v := by
  have all : ∀ v : Fin 64, value? (symbol v) = some v.val := by decide
  exact all ⟨v, h⟩

theorem symbol_ne_pad {v : Nat} (h : v < 64) : symbol v ≠ '=' := by
  have all : ∀ v : Fin 64, symbol v ≠ '=' := by decide
  exact all ⟨v, h⟩

/-- The padded text of a payload, group by group from the front. -/
def spell : Bytes → List Char
  | a :: b :: c :: rest =>
    symbol (a.toNat / 4) :: symbol (a.toNat % 4 * 16 + b.toNat / 16)
      :: symbol (b.toNat % 16 * 4 + c.toNat / 64) :: symbol (c.toNat % 64) :: spell rest
  | [a, b] =>
    [symbol (a.toNat / 4), symbol (a.toNat % 4 * 16 + b.toNat / 16),
      symbol (b.toNat % 16 * 4), '=']
  | [a] => [symbol (a.toNat / 4), symbol (a.toNat % 4 * 16), '=', '=']
  | [] => []

theorem encodeOnto_eq (done : List Char) (payload : Bytes) :
    encodeOnto done payload = done.reverse ++ spell payload := by
  fun_induction encodeOnto done payload with
  | case1 done a b c rest ih => simp [ih, spell]
  | case2 done a b => simp [spell]
  | case3 done a => simp [spell]
  | case4 done => simp [spell]

theorem encode_eq_spell (payload : Bytes) : encode payload = spell payload := by
  simp [encode, encodeOnto_eq]

theorem group?_symbols (a b c : UInt8) :
    group? (symbol (a.toNat / 4)) (symbol (a.toNat % 4 * 16 + b.toNat / 16))
      (symbol (b.toNat % 16 * 4 + c.toNat / 64)) (symbol (c.toNat % 64)) = some (a, b, c) := by
  have ha := a.toNat_lt
  have hb := b.toNat_lt
  have hc := c.toNat_lt
  have first : a.toNat / 4 * 4 + (a.toNat % 4 * 16 + b.toNat / 16) / 16 = a.toNat := by omega
  have second : (a.toNat % 4 * 16 + b.toNat / 16) % 16 * 16
      + (b.toNat % 16 * 4 + c.toNat / 64) / 4 = b.toNat := by omega
  have third : (b.toNat % 16 * 4 + c.toNat / 64) % 4 * 64 + c.toNat % 64 = c.toNat := by omega
  simp only [group?, bind, Option.bind]
  rw [value?_symbol (by omega), value?_symbol (by omega), value?_symbol (by omega),
    value?_symbol (by omega)]
  simp only [first, second, third, UInt8.ofNat_toNat]

theorem lastTwo?_symbols (a b : UInt8) :
    lastTwo? (symbol (a.toNat / 4)) (symbol (a.toNat % 4 * 16 + b.toNat / 16))
      (symbol (b.toNat % 16 * 4)) = some (a, b) := by
  have ha := a.toNat_lt
  have hb := b.toNat_lt
  have first : a.toNat / 4 * 4 + (a.toNat % 4 * 16 + b.toNat / 16) / 16 = a.toNat := by omega
  have second : (a.toNat % 4 * 16 + b.toNat / 16) % 16 * 16 + b.toNat % 16 * 4 / 4 = b.toNat := by
    omega
  have zero : b.toNat % 16 * 4 % 4 = 0 := by omega
  simp only [lastTwo?, bind, Option.bind]
  rw [value?_symbol (by omega), value?_symbol (by omega), value?_symbol (by omega)]
  simp only [zero, if_true, first, second, UInt8.ofNat_toNat]

theorem lastOne?_symbols (a : UInt8) :
    lastOne? (symbol (a.toNat / 4)) (symbol (a.toNat % 4 * 16)) = some a := by
  have ha := a.toNat_lt
  have first : a.toNat / 4 * 4 + a.toNat % 4 * 16 / 16 = a.toNat := by omega
  have zero : a.toNat % 4 * 16 % 16 = 0 := by omega
  simp only [lastOne?, bind, Option.bind]
  rw [value?_symbol (by omega), value?_symbol (by omega)]
  simp only [zero, if_true, first, UInt8.ofNat_toNat]

theorem decodeOnto?_spell (done payload : Bytes) :
    decodeOnto? done (spell payload) = some (done.reverse ++ payload) := by
  induction payload using spell.induct generalizing done with
  | case1 a b c rest ih =>
    have hpad := symbol_ne_pad (v := c.toNat % 64) (by omega)
    rw [spell, decodeOnto?, group?_symbols]
    · simp [ih]
    · simp [hpad]
    · simp [hpad]
  | case2 a b =>
    have hb := b.toNat_lt
    have hpad := symbol_ne_pad (v := b.toNat % 16 * 4) (by omega)
    rw [spell, decodeOnto?, lastTwo?_symbols]
    · simp
    · simpa using hpad
  | case3 a =>
    rw [spell, decodeOnto?, lastOne?_symbols]
    simp
  | case4 => simp [spell, decodeOnto?]

theorem decode?_encode (payload : Bytes) : decode? (encode payload) = some payload := by
  simp [decode?, encode_eq_spell, decodeOnto?_spell]

/-- A character that stands for a value is the symbol of that value. -/
theorem eq_symbol_of_value? {c : Char} {v : Nat} (h : value? c = some v) :
    v < 64 ∧ c = symbol v := by
  have whole : Char.ofNat c.toNat = c := Char.ofNat_toNat c
  simp only [value?] at h
  split at h
  · obtain rfl := Option.some.inj h
    have back : 65 + (c.toNat - 65) = c.toNat := by omega
    exact ⟨by omega, by rw [symbol, if_pos (by omega), back, whole]⟩
  split at h
  · obtain rfl := Option.some.inj h
    have back : 97 + (c.toNat - 97 + 26 - 26) = c.toNat := by omega
    exact ⟨by omega, by rw [symbol, if_neg (by omega), if_pos (by omega), back, whole]⟩
  split at h
  · obtain rfl := Option.some.inj h
    have back : 48 + (c.toNat - 48 + 52 - 52) = c.toNat := by omega
    exact ⟨by omega,
      by rw [symbol, if_neg (by omega), if_neg (by omega), if_pos (by omega), back, whole]⟩
  split at h
  · obtain rfl := Option.some.inj h
    exact ⟨by decide, ‹c = '+'›⟩
  split at h
  · obtain rfl := Option.some.inj h
    exact ⟨by decide, ‹c = '/'›⟩
  · cases h

/-- A whole group is what is written for its bytes. -/
theorem spell_of_group? {c d e f : Char} {x y z : UInt8} (h : group? c d e f = some (x, y, z))
    (rest : Bytes) : spell (x :: y :: z :: rest) = c :: d :: e :: f :: spell rest := by
  simp only [group?, bind, Option.bind_eq_some_iff, Option.some.injEq, Prod.mk.injEq] at h
  obtain ⟨p, hp, q, hq, r, hr, s, hs, rfl, rfl, rfl⟩ := h
  obtain ⟨hp, rfl⟩ := eq_symbol_of_value? hp
  obtain ⟨hq, rfl⟩ := eq_symbol_of_value? hq
  obtain ⟨hr, rfl⟩ := eq_symbol_of_value? hr
  obtain ⟨hs, rfl⟩ := eq_symbol_of_value? hs
  have first : (p * 4 + q / 16) % 2 ^ 8 / 4 = p := by omega
  have second : (p * 4 + q / 16) % 2 ^ 8 % 4 * 16 + (q % 16 * 16 + r / 4) % 2 ^ 8 / 16 = q := by
    omega
  have third : (q % 16 * 16 + r / 4) % 2 ^ 8 % 16 * 4 + (r % 4 * 64 + s) % 2 ^ 8 / 64 = r := by
    omega
  have fourth : (r % 4 * 64 + s) % 2 ^ 8 % 64 = s := by omega
  simp only [spell, UInt8.toNat_ofNat', first, second, third, fourth]

/-- The zero bits of a last group leave one way to write its two bytes. -/
theorem spell_of_lastTwo? {c d e : Char} {x y : UInt8} (h : lastTwo? c d e = some (x, y)) :
    spell [x, y] = [c, d, e, '='] := by
  simp only [lastTwo?, bind, Option.bind_eq_some_iff] at h
  obtain ⟨p, hp, q, hq, r, hr, h⟩ := h
  split at h
  · obtain ⟨rfl, rfl⟩ := Prod.mk.inj (Option.some.inj h)
    obtain ⟨hp, rfl⟩ := eq_symbol_of_value? hp
    obtain ⟨hq, rfl⟩ := eq_symbol_of_value? hq
    obtain ⟨hr, rfl⟩ := eq_symbol_of_value? hr
    have first : (p * 4 + q / 16) % 2 ^ 8 / 4 = p := by omega
    have second : (p * 4 + q / 16) % 2 ^ 8 % 4 * 16 + (q % 16 * 16 + r / 4) % 2 ^ 8 / 16 = q := by
      omega
    have third : (q % 16 * 16 + r / 4) % 2 ^ 8 % 16 * 4 = r := by omega
    simp only [spell, UInt8.toNat_ofNat', first, second, third]
  · cases h

theorem spell_of_lastOne? {c d : Char} {x : UInt8} (h : lastOne? c d = some x) :
    spell [x] = [c, d, '=', '='] := by
  simp only [lastOne?, bind, Option.bind_eq_some_iff] at h
  obtain ⟨p, hp, q, hq, h⟩ := h
  split at h
  · obtain rfl := Option.some.inj h
    obtain ⟨hp, rfl⟩ := eq_symbol_of_value? hp
    obtain ⟨hq, rfl⟩ := eq_symbol_of_value? hq
    have first : (p * 4 + q / 16) % 2 ^ 8 / 4 = p := by omega
    have second : (p * 4 + q / 16) % 2 ^ 8 % 4 * 16 = q := by omega
    simp only [spell, UInt8.toNat_ofNat', first, second]
  · cases h

theorem eq_spell_of_decodeOnto? {done payload : Bytes} {text : List Char}
    (h : decodeOnto? done text = some payload) :
    ∃ bytes, payload = done.reverse ++ bytes ∧ text = spell bytes := by
  fun_induction decodeOnto? done text with
  | case1 done =>
    exact ⟨[], by simpa using h.symm, rfl⟩
  | case2 done c d =>
    obtain ⟨x, hx, rfl⟩ := Option.map_eq_some_iff.mp h
    exact ⟨[x], by simp, (spell_of_lastOne? hx).symm⟩
  | case3 done c d e =>
    obtain ⟨⟨x, y⟩, hxy, rfl⟩ := Option.map_eq_some_iff.mp h
    exact ⟨[x, y], by simp, (spell_of_lastTwo? hxy).symm⟩
  | case4 done c d e f rest _ _ x y z hxyz ih =>
    obtain ⟨bytes, rfl, rfl⟩ := ih h
    exact ⟨x :: y :: z :: bytes, by simp, (spell_of_group? hxyz bytes).symm⟩
  | case5 => cases h
  | case6 => cases h

/-- Reading accepts exactly the texts that writing produces. -/
theorem decode?_eq_some_iff {text : List Char} {payload : Bytes} :
    decode? text = some payload ↔ text = encode payload := by
  constructor
  · intro h
    obtain ⟨bytes, hpayload, rfl⟩ := eq_spell_of_decodeOnto? h
    rw [hpayload, encode_eq_spell]
    rfl
  · rintro rfl
    exact decode?_encode payload

/-- The symbols of the values below 64 in order. -/
def alphabet : List Char :=
  "ABCDEFGHIJKLMNOPQRSTUVWXYZabcdefghijklmnopqrstuvwxyz0123456789+/".toList

/-- The number that digits spell, the first of them being the highest. -/
def number (base : Nat) (digits : List Nat) : Nat := Nat.ofDigits base digits.reverse

/-- The standard text of a payload: its bits as one number, with two zero bits for each pad, in
digits of six bits, and as many pads as complete the last group of four. -/
inductive Padded (payload : Bytes) : List Char → Prop
  | digits {values : List Nat} {pads : Nat} (hvalues : ∀ v ∈ values, v < 64) (hpads : pads < 3)
      (hlength : 3 * (values.length + pads) = 4 * (payload.length + pads))
      (hnumber : number 64 values = number 256 (payload.map UInt8.toNat) * 4 ^ pads) :
    Padded payload (values.map (alphabet.getD · '=') ++ List.replicate pads '=')

theorem number_append (base : Nat) (high low : List Nat) :
    number base (high ++ low) = number base high * base ^ low.length + number base low := by
  rw [number, List.reverse_append, Nat.ofDigits_append, List.length_reverse, number, number,
    Nat.mul_comm, Nat.add_comm]

theorem map_alphabet {values : List Nat} (h : ∀ v ∈ values, v < 64) :
    values.map (alphabet.getD · '=') = values.map symbol := by
  have all : ∀ v : Fin 64, alphabet.getD v.val '=' = symbol v.val := by decide +kernel
  exact List.map_congr_left fun v hv => all ⟨v, h v hv⟩

/-- Digits in the symbols of their values. -/
theorem Padded.symbols {payload : Bytes} {values : List Nat} {pads : Nat}
    (hvalues : ∀ v ∈ values, v < 64) (hpads : pads < 3)
    (hlength : 3 * (values.length + pads) = 4 * (payload.length + pads))
    (hnumber : number 64 values = number 256 (payload.map UInt8.toNat) * 4 ^ pads) :
    Padded payload (values.map symbol ++ List.replicate pads '=') :=
  map_alphabet hvalues ▸ .digits hvalues hpads hlength hnumber

/-- Digits as many as bits divided by six take up the place of the bits. -/
theorem pow_digits {digits pads bytes : Nat} (h : 3 * (digits + pads) = 4 * (bytes + pads)) :
    64 ^ digits = 256 ^ bytes * 4 ^ pads := by
  have bits : 6 * digits = 8 * bytes + 2 * pads := by omega
  calc
    64 ^ digits = 2 ^ (6 * digits) := by rw [Nat.pow_mul]
    _ = 2 ^ (8 * bytes) * 2 ^ (2 * pads) := by rw [bits, Nat.pow_add]
    _ = 256 ^ bytes * 4 ^ pads := by rw [Nat.pow_mul, Nat.pow_mul]

/-- A whole group in front of a standard text. -/
theorem Padded.group (a b c : UInt8) {rest : Bytes} {text : List Char} (h : Padded rest text) :
    Padded (a :: b :: c :: rest)
      (symbol (a.toNat / 4) :: symbol (a.toNat % 4 * 16 + b.toNat / 16)
        :: symbol (b.toNat % 16 * 4 + c.toNat / 64) :: symbol (c.toNat % 64) :: text) := by
  have ha := a.toNat_lt
  have hb := b.toNat_lt
  have hc := c.toNat_lt
  cases h with
  | @digits values pads hvalues hpads hlength hnumber =>
    let four := [a.toNat / 4, a.toNat % 4 * 16 + b.toNat / 16, b.toNat % 16 * 4 + c.toNat / 64,
      c.toNat % 64]
    have same : number 64 four = number 256 [a.toNat, b.toNat, c.toNat] := by
      simp only [number, four, List.reverse_cons, List.reverse_nil, List.nil_append,
        List.cons_append, Nat.ofDigits_cons, Nat.ofDigits_nil]
      omega
    have small : ∀ v ∈ four ++ values, v < 64 := by
      simp only [four, List.cons_append, List.nil_append, List.mem_cons]
      rintro v (rfl | rfl | rfl | rfl | hv)
      · omega
      · omega
      · omega
      · omega
      · exact hvalues v hv
    have all : number 64 (four ++ values) =
        number 256 ((a :: b :: c :: rest).map UInt8.toNat) * 4 ^ pads := by
      have bytes : (a :: b :: c :: rest).map UInt8.toNat =
          [a.toNat, b.toNat, c.toNat] ++ rest.map UInt8.toNat := rfl
      rw [bytes, number_append, number_append, same, hnumber, pow_digits hlength, List.length_map,
        Nat.add_mul, Nat.mul_assoc]
    have size : 3 * ((four ++ values).length + pads) =
        4 * ((a :: b :: c :: rest).length + pads) := by
      simp only [four, List.length_append, List.length_cons, List.length_nil]
      omega
    rw [map_alphabet hvalues]
    simpa [four] using Padded.symbols small hpads size all

/-- What is written for a payload is its standard text. -/
theorem padded_spell (payload : Bytes) : Padded payload (spell payload) := by
  induction payload using spell.induct with
  | case1 a b c rest ih => exact .group a b c ih
  | case2 a b =>
    have ha := a.toNat_lt
    have hb := b.toNat_lt
    refine @Padded.symbols [a, b] [a.toNat / 4, a.toNat % 4 * 16 + b.toNat / 16,
      b.toNat % 16 * 4] 1 ?_ (by omega) rfl ?_
    · simp only [List.mem_cons, List.not_mem_nil, or_false]
      omega
    · simp [number, Nat.ofDigits_cons]
      omega
  | case3 a =>
    have ha := a.toNat_lt
    refine @Padded.symbols [a] [a.toNat / 4, a.toNat % 4 * 16] 2 ?_ (by omega) rfl ?_
    · simp only [List.mem_cons, List.not_mem_nil, or_false]
      omega
    · simp [number, Nat.ofDigits_cons]
      omega
  | case4 => exact @Padded.symbols [] [] 0 (by simp) (by omega) rfl rfl

theorem padded_encode (payload : Bytes) : Padded payload (encode payload) := by
  rw [encode_eq_spell]
  exact padded_spell payload

end TermLink.Base64
