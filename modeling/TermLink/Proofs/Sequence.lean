import TermLink.Sequence
import Mathlib.Data.List.DropRight
import Mathlib.Data.List.TakeWhile

/-!
# Parts of sequences

Trimming removes what stands around and nothing else, a separator cuts off the piece before it, and
a key is found in a table as long as it is not left out.
-/

namespace TermLink

variable {α : Type} {p : α → Bool}

theorem trim_eq_self {a b : α} (ha : p a = false) (hb : p b = false) (mid : List α) :
    trim p (a :: mid ++ [b]) = a :: mid ++ [b] := by
  have front : (a :: mid ++ [b]).dropWhile p = a :: mid ++ [b] := by simp [ha]
  have back : (b :: (a :: mid).reverse).dropWhile p = b :: (a :: mid).reverse := by
    rw [List.dropWhile_cons_of_neg (by simp [hb])]
  simp only [trim, front, List.reverse_append, List.reverse_singleton, List.singleton_append, back]
  simp

theorem trim_append_left {lead : List α} (h : ∀ x ∈ lead, p x) (xs : List α) :
    trim p (lead ++ xs) = trim p xs := by
  rw [trim, trim, List.dropWhile_append_of_pos h]

theorem trim_append_right {tail : List α} (h : ∀ x ∈ tail, p x) (xs : List α) :
    trim p (xs ++ tail) = trim p xs := by
  have gone : tail.dropWhile p = [] := by
    simpa using @List.dropWhile_append_of_pos _ p tail [] h
  have back : ∀ x ∈ tail.reverse, p x := by simpa using h
  rw [trim, trim, List.dropWhile_append]
  split
  · rename_i hnil
    rw [gone, List.isEmpty_iff.mp hnil]
  · rw [List.reverse_append, List.dropWhile_append_of_pos back]

/-- What is trimmed away stands around the rest. -/
theorem exists_trim (p : α → Bool) (xs : List α) :
    ∃ lead tail, (∀ x ∈ lead, p x) ∧ (∀ x ∈ tail, p x) ∧ xs = lead ++ trim p xs ++ tail := by
  refine ⟨xs.takeWhile p, ((xs.dropWhile p).reverse.takeWhile p).reverse, ?_, ?_, ?_⟩
  · intro x hx
    exact List.mem_takeWhile_imp hx
  · intro x hx
    exact List.mem_takeWhile_imp (List.mem_reverse.mp hx)
  · rw [trim, List.append_assoc, ← List.reverse_append, List.takeWhile_append_dropWhile,
      List.reverse_reverse, List.takeWhile_append_dropWhile]

theorem all_trim (p : α → Bool) (xs : List α) : (trim p xs).all p = xs.all p := by
  obtain ⟨lead, tail, hlead, htail, heq⟩ := exists_trim p xs
  conv => rhs; rw [heq]
  rw [List.all_append, List.all_append, List.all_eq_true.mpr hlead, List.all_eq_true.mpr htail,
    Bool.true_and, Bool.and_true]

theorem trim_eq_nil_iff {xs : List α} : trim p xs = [] ↔ xs.all p := by
  constructor
  · intro h
    rw [← all_trim, h]
    rfl
  · intro h
    have rest := trim_append_left (List.all_eq_true.mp h) []
    rwa [List.append_nil] at rest

theorem trim_map {β : Type} (f : β → α) (xs : List β) :
    trim p (xs.map f) = (trim (p ∘ f) xs).map f := by
  simp only [trim, List.dropWhile_map, ← List.map_reverse]

theorem length_trim_le (p : α → Bool) (xs : List α) : (trim p xs).length ≤ xs.length := by
  obtain ⟨lead, tail, -, -, heq⟩ := exists_trim p xs
  have length := congrArg List.length heq
  simp only [List.length_append] at length
  omega

/-- Nothing to trim stands around a list that trimming does not change. -/
theorem eq_nil_of_trim_eq_self {lead mid tail : List α} (hlead : ∀ x ∈ lead, p x)
    (htail : ∀ x ∈ tail, p x) (h : trim p (lead ++ mid ++ tail) = lead ++ mid ++ tail) :
    lead = [] ∧ tail = [] := by
  have inner : trim p (lead ++ mid ++ tail) = trim p mid := by
    rw [trim_append_right htail, trim_append_left hlead]
  have short := length_trim_le p mid
  rw [← inner, h] at short
  simp only [List.length_append] at short
  constructor
  · exact List.length_eq_zero_iff.mp (by omega)
  · exact List.length_eq_zero_iff.mp (by omega)

theorem pieces_append_cons {piece : List α} (hpiece : ∀ x ∈ piece, p x = false) {s : α}
    (hs : p s) (rest : List α) : pieces p (piece ++ s :: rest) = piece :: pieces p rest := by
  induction piece with
  | nil => simp [pieces, hs]
  | cons x piece ih =>
    have hx : p x = false := hpiece x (by simp)
    have tail : pieces p (piece ++ s :: rest) = piece :: pieces p rest := by
      apply ih
      intro y hy
      exact hpiece y (by simp [hy])
    simp only [pieces] at tail ⊢
    simp [hx, tail]

theorem afterLead?_eq_some_iff [DecidableEq α] {lead xs rest : List α} :
    afterLead? lead xs = some rest ↔ xs = lead ++ rest := by
  induction lead generalizing xs with
  | nil => exact Option.some_inj
  | cons a lead ih =>
    cases xs with
    | nil => simp [afterLead?]
    | cons x xs =>
      rw [afterLead?, List.cons_append, List.cons.injEq]
      split
      · next same => rw [ih, and_iff_right same.symm]
      · next differs => exact ⟨nofun, fun h => absurd h.1.symm differs⟩

theorem beforeTail?_eq_some_iff [DecidableEq α] {tail xs rest : List α} :
    beforeTail? tail xs = some rest ↔ xs = rest ++ tail := by
  simp only [beforeTail?, Option.map_eq_some_iff, afterLead?_eq_some_iff]
  constructor
  · rintro ⟨back, hback, rfl⟩
    rw [← List.reverse_reverse xs, hback, List.reverse_append, List.reverse_reverse]
  · rintro rfl
    exact ⟨rest.reverse, List.reverse_append, List.reverse_reverse rest⟩

/-- The last elements are among the last ones of a part that ends with them. -/
theorem rtake_append (n : Nat) (xs ys : List α) :
    (xs.rtake n ++ ys).rtake n = (xs ++ ys).rtake n := by
  have fewer : min (n - ys.length) n = n - ys.length := by omega
  simp only [List.rtake_eq_reverse_take_reverse, List.reverse_append, List.reverse_reverse,
    List.take_append, List.take_take, List.length_reverse, fewer]

theorem isSome_mapM {β : Type} (f : α → Option β) (xs : List α) :
    (xs.mapM f).isSome ↔ ∀ x ∈ xs, (f x).isSome := by
  induction xs with
  | nil => simp
  | cons x xs ih =>
    rw [List.mapM_cons, List.forall_mem_cons, ← ih]
    cases f x <;> cases xs.mapM f <;> simp

theorem lookup_filter {β : Type} [DecidableEq α] (p : α → Bool) (table : List (α × β)) (a : α) :
    (table.filter fun e => p e.1).lookup a = if p a then table.lookup a else none := by
  induction table with
  | nil => simp
  | cons e rest ih =>
    obtain ⟨k, b⟩ := e
    by_cases hk : a = k
    · subst hk
      cases hp : p a <;> simp [hp, ih]
    · have hne : (a == k) = false := beq_false_of_ne hk
      cases hp : p k <;> simp [List.lookup_cons, hp, hne, ih]

theorem lookup_map {β γ : Type} [DecidableEq α] (f : α → β → γ) (table : List (α × β)) (a : α) :
    (table.map fun e => (e.1, f e.1 e.2)).lookup a = (table.lookup a).map (f a) := by
  induction table with
  | nil => rfl
  | cons e rest ih =>
    obtain ⟨k, b⟩ := e
    by_cases ha : a = k
    · simp [ha]
    · simp [List.lookup_cons, beq_false_of_ne ha, ih]

end TermLink
