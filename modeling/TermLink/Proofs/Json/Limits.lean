import TermLink.Proofs.Json.Tree

/-!
# The limits of reading

A value is read from the texts that write it just when it is not nested too deeply and its numerals
are finite; otherwise it is read from none of them. The lexer stops at a numeral that is too large,
and the building stops at the first container that is too deep.
-/

namespace TermLink.Json

open Grammar

variable {P : Numeral → Prop} {n : Nat} {v : Json}

theorem Within.le {m : Nat} (h : Within P n v) (hm : n ≤ m) : Within P m v := by
  induction h generalizing m with
  | null => exact .null m
  | boolean _ b => exact .boolean m b
  | number _ hx => exact .number m hx
  | text _ s => exact .text m s
  | array _ ih =>
    obtain ⟨k, rfl⟩ := Nat.exists_eq_add_of_le' (Nat.le_trans (Nat.le_add_left 1 _) hm)
    exact .array fun v hv => ih v hv (Nat.le_of_succ_le_succ hm)
  | object _ ih =>
    obtain ⟨k, rfl⟩ := Nat.exists_eq_add_of_le' (Nat.le_trans (Nat.le_add_left 1 _) hm)
    exact .object fun f hf => ih f hf (Nat.le_of_succ_le_succ hm)

theorem within_array_iff {items : List Json} :
    Within P (n + 1) (.array items) ↔ ∀ v ∈ items, Within P n v := by
  constructor
  · rintro ⟨⟩
    assumption
  · exact .array

theorem within_object_iff {fields : List (String × Json)} :
    Within P (n + 1) (.object fields) ↔ ∀ f ∈ fields, Within P n f.2 := by
  constructor
  · rintro ⟨⟩
    assumption
  · exact .object

/-- Every value is within some depth. -/
theorem within_sizeOf : ∀ v : Json, Within (fun _ => True) (sizeOf v) v
  | .null => .null _
  | .boolean b => .boolean _ b
  | .number x => .number _ trivial
  | .text s => .text _ s
  | .array items => by
    have inside : ∀ v ∈ items, Within (fun _ => True) (sizeOf items) v := by
      intro v hv
      have smaller := List.sizeOf_lt_of_mem hv
      exact (within_sizeOf v).le (Nat.le_of_lt smaller)
    have whole : sizeOf (array items) = 1 + sizeOf items := array.sizeOf_spec items
    exact (Within.array inside).le (by omega)
  | .object fields => by
    have inside : ∀ f ∈ fields, Within (fun _ => True) (sizeOf fields) f.2 := by
      intro f hf
      have smaller := List.sizeOf_lt_of_mem hf
      have part : sizeOf f.2 < sizeOf f := by
        cases f
        simp
      exact (within_sizeOf f.2).le (by omega)
    have whole : sizeOf (object fields) = 1 + sizeOf fields := object.sizeOf_spec fields
    exact (Within.object inside).le (by omega)

theorem mem_itemTokens {t : Token} (ht : t ∈ v.tokens) :
    ∀ {items : List Json}, v ∈ items → t ∈ itemTokens items
  | [item], hv => by
    obtain rfl := List.mem_singleton.mp hv
    exact ht
  | item :: next :: rest, hv => by
    rw [itemTokens, List.mem_append, List.mem_cons]
    rcases List.mem_cons.mp hv with rfl | hv
    · exact .inl ht
    · exact .inr (.inr (mem_itemTokens ht hv))

theorem mem_fieldTokens {t : Token} {f : String × Json} (ht : t ∈ f.2.tokens) :
    ∀ {fields : List (String × Json)}, f ∈ fields → t ∈ fieldTokens fields
  | [field], hf => by
    obtain rfl := List.mem_singleton.mp hf
    exact List.mem_cons_of_mem _ (List.mem_cons_of_mem _ ht)
  | (name, value) :: next :: rest, hf => by
    simp only [fieldTokens, List.cons_append, List.mem_cons, List.mem_append]
    rcases List.mem_cons.mp hf with rfl | hf
    · exact .inr (.inr (.inl ht))
    · exact .inr (.inr (.inr (.inr (mem_fieldTokens ht hf))))

/-- The numerals of a value are those among its tokens. -/
theorem Within.of_tokens {Q : Numeral → Prop} (h : Within P n v)
    (hQ : ∀ x, .number x ∈ v.tokens → Q x) : Within Q n v := by
  induction h with
  | null n => exact .null n
  | boolean n b => exact .boolean n b
  | number n => exact .number n (hQ _ (List.mem_singleton.mpr rfl))
  | text n s => exact .text n s
  | array _ ih =>
    refine .array fun v hv => ih v hv fun x hx => hQ x ?_
    simp [tokens, mem_itemTokens hx hv]
  | object _ ih =>
    refine .object fun f hf => ih f hf fun x hx => hQ x ?_
    simp [tokens, mem_fieldTokens hx hf]

namespace Lexer

open Numeral

theorem finish?_of_infinite {s : Scan} (hs : s.stage.isEnd) (h : ¬s.numeral.isFinite) :
    s.finish? = none := by
  rw [Scan.numeral] at h
  cases hstage : s.stage <;> simp_all [Scan.finish?, Stage.isEnd]

/-- Tokens among which a numeral is too large cannot be read, however they are written. -/
theorem run?_infinite (tokens : List Token) {ts : List Token} {text : List Char}
    (h : Spaced ts text) (hdivided : ts.IsChain Divides)
    (hinfinite : ∃ n, .number n ∈ ts ∧ ¬n.isFinite) :
    (run? ⟨tokens, .between⟩ text).bind finish? = none := by
  induction h generalizing tokens with
  | @one t written h =>
    obtain ⟨n, hn, large⟩ := hinfinite
    obtain rfl := List.mem_singleton.mp hn
    cases h with
    | number h =>
      obtain ⟨s, hs, rfl, read⟩ := run?_number h
      have stops := read tokens []
      rw [List.append_nil] at stops
      rw [stops]
      simp [run?, finish?, finish?_of_infinite hs large]
  | @more t u ts written gap rest h hgap hrest ih =>
    obtain ⟨hdivides, hmore⟩ := List.isChain_cons_cons.mp hdivided
    by_cases ht : ∀ n, t = .number n → n.isFinite
    · obtain ⟨n, hn, large⟩ := hinfinite
      have later : .number n ∈ u :: ts := by
        rcases List.mem_cons.mp hn with rfl | hn
        · exact absurd (ht n rfl) large
        · exact hn
      rw [run?_more tokens h hgap hrest hdivides ht]
      exact ih (t :: tokens) hmore ⟨n, later, large⟩
    · -- The character after this numeral is where the lexer stops.
      push Not at ht
      obtain ⟨n, rfl, large⟩ := ht
      cases h with
      | number h =>
        obtain ⟨s, hs, rfl, read⟩ := run?_number h
        obtain ⟨c, more, hnext, hc⟩ := exists_endsNumeral hdivides hgap hrest
        rw [List.append_assoc, hnext, read]
        simp [run?, step?, Scan.step?_ends hs hc, finish?_of_infinite hs large]

end Lexer

namespace Build

/-- Tokens are built into no value where there is no room for all its containers. -/
def Overflows (P : Numeral → Prop) (v : Json) : Prop :=
  ∀ (within : List Container) (rest : List Token), ¬Within P (maxDepth - within.length) v →
    run? (.value within) (v.tokens ++ rest) = none

theorem overflows_items : ∀ {items : List Json} (before : List Json) (within : List Container)
    (rest : List Token) (_ : within.length < maxDepth) (_ : ∀ v ∈ items, Overflows P v)
    (_ : ¬∀ v ∈ items, Within P (maxDepth - (within.length + 1)) v),
    run? (.value (.array before :: within)) (itemTokens items ++ rest) = none
  | [], _, _, _, _, _, deep => absurd (by simp) deep
  | [item], before, within, rest, _, h, deep => by
    apply h item (by simp)
    simpa using deep
  | item :: next :: more, before, within, rest, hopen, h, deep => by
    rw [itemTokens, List.append_assoc]
    by_cases first : Within P (maxDepth - (within.length + 1)) item
    · rw [builds first _ _ (by simp; omega)]
      have others : ¬∀ v ∈ next :: more, Within P (maxDepth - (within.length + 1)) v := by
        intro all
        exact deep (List.forall_mem_cons.mpr ⟨first, all⟩)
      exact overflows_items (item :: before) within rest hopen
        (fun v hv => h v (List.mem_cons_of_mem _ hv)) others
    · exact h item (by simp) _ _ first

theorem overflows_fields : ∀ {fields : List (String × Json)} (before : List (String × Json))
    (within : List Container) (rest : List Token) (_ : within.length < maxDepth)
    (_ : ∀ f ∈ fields, Overflows P f.2)
    (_ : ¬∀ f ∈ fields, Within P (maxDepth - (within.length + 1)) f.2),
    run? (.name before within) (fieldTokens fields ++ rest) = none
  | [], _, _, _, _, _, deep => absurd (by simp) deep
  | [(key, v)], before, within, rest, _, h, deep => by
    apply h (key, v) (by simp) (.object before key :: within)
    simpa using deep
  | (key, v) :: next :: more, before, within, rest, hopen, h, deep => by
    simp only [fieldTokens, List.cons_append, List.append_assoc, run?, step?]
    by_cases first : Within P (maxDepth - (within.length + 1)) v
    · rw [builds first _ _ (by simp; omega)]
      have others : ¬∀ f ∈ next :: more, Within P (maxDepth - (within.length + 1)) f.2 := by
        intro all
        exact deep (List.forall_mem_cons.mpr ⟨first, all⟩)
      exact overflows_fields ((key, v) :: before) within rest hopen
        (fun f hf => h f (List.mem_cons_of_mem _ hf)) others
    · exact h (key, v) (by simp) (.object before key :: within) _ first

theorem room {within : List Container} (h : within.length < maxDepth) :
    maxDepth - (within.length + 1) + 1 = maxDepth - within.length := by omega

theorem overflows (h : Within P n v) : Overflows P v := by
  induction h with
  | null => exact fun within _ deep => absurd (.null _) deep
  | boolean _ b => exact fun within _ deep => absurd (.boolean _ b) deep
  | number _ hx => exact fun within _ deep => absurd (.number _ hx) deep
  | text _ s => exact fun within _ deep => absurd (.text _ s) deep
  | @array n items _ ih =>
    intro within rest deep
    by_cases hopen : within.length < maxDepth
    · have opened : step? (.value within) .openArray = some (.firstItem within) := by
        simp [step?, start?, hopen]
      have inside : ¬∀ v ∈ items, Within P (maxDepth - (within.length + 1)) v := by
        rwa [← within_array_iff, room hopen]
      have filled : items ≠ [] := by
        rintro rfl
        exact inside (by simp)
      simp only [tokens, List.cons_append, List.append_assoc, run?, opened]
      rw [run?_firstItem within filled]
      exact overflows_items [] within _ hopen ih inside
    · have refused : step? (.value within) .openArray = none := by simp [step?, start?, hopen]
      simp only [tokens, List.cons_append, run?, refused]
  | @object n fields _ ih =>
    intro within rest deep
    by_cases hopen : within.length < maxDepth
    · have opened : step? (.value within) .openObject = some (.firstName within) := by
        simp [step?, start?, hopen]
      have inside : ¬∀ f ∈ fields, Within P (maxDepth - (within.length + 1)) f.2 := by
        rwa [← within_object_iff, room hopen]
      have filled : fields ≠ [] := by
        rintro rfl
        exact inside (by simp)
      simp only [tokens, List.cons_append, List.append_assoc, run?, opened]
      rw [run?_firstName within filled]
      exact overflows_fields [] within _ hopen ih inside
    · have refused : step? (.value within) .openObject = none := by simp [step?, start?, hopen]
      simp only [tokens, List.cons_append, run?, refused]

end Build

theorem ofTokens?_of_deep (h : ¬Within (fun _ => True) maxDepth v) :
    ofTokens? v.tokens = none := by
  have none := Build.overflows (within_sizeOf v) [] [] h
  rw [List.append_nil] at none
  rw [ofTokens?, none]

/-- However a value is written that is nested too deeply or has a numeral that is too large, it is
not read. -/
theorem parse?_of_not_within (h : ¬Within (·.isFinite) maxDepth v) {text : List Char}
    (htext : Writes v text) : parse? text = none := by
  have divided : v.tokens.IsChain Divides := by
    simpa using (within_sizeOf v).divided [] ⟨.nil, by simp⟩
  by_cases finite : ∀ x, .number x ∈ v.tokens → x.isFinite
  · have deep : ¬Within (fun _ => True) maxDepth v := fun all => h (all.of_tokens finite)
    simp only [parse?, scan?_of_spaced htext divided finite, bind, Option.bind,
      ofTokens?_of_deep deep]
  · push Not at finite
    have none : Token.scan? text = none := Lexer.run?_infinite [] htext divided finite
    rw [parse?, none]
    rfl

end TermLink.Json
