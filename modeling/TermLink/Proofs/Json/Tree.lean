import TermLink.Proofs.Json.Token

/-!
# Values and their text

A value that is not nested too deeply is built from its tokens, and so read from every text that
writes it. The compact text is one of them.
-/

namespace TermLink.Json

open Grammar

/-- A value whose containers are at most `n` deep and whose numerals all satisfy `P`. -/
inductive Within (P : Numeral → Prop) : Nat → Json → Prop
  | null (n : Nat) : Within P n .null
  | boolean (n : Nat) (b : Bool) : Within P n (.boolean b)
  | number (n : Nat) {x : Numeral} (h : P x) : Within P n (.number x)
  | text (n : Nat) (s : String) : Within P n (.text s)
  | array {n : Nat} {items : List Json} (h : ∀ v ∈ items, Within P n v) :
    Within P (n + 1) (.array items)
  | object {n : Nat} {fields : List (String × Json)} (h : ∀ f ∈ fields, Within P n f.2) :
    Within P (n + 1) (.object fields)

/-- A value whose containers are at most `n` deep and whose numbers are integers of 64 bits. -/
inductive Plain : Nat → Json → Prop
  | null (n : Nat) : Plain n .null
  | boolean (n : Nat) (b : Bool) : Plain n (.boolean b)
  | integer (n : Nat) {z : Int} (h : z.natAbs < UInt64.size) : Plain n (ofInt z)
  | text (n : Nat) (s : String) : Plain n (.text s)
  | array {n : Nat} {items : List Json} (h : ∀ v ∈ items, Plain n v) : Plain (n + 1) (.array items)
  | object {n : Nat} {fields : List (String × Json)} (h : ∀ f ∈ fields, Plain n f.2) :
    Plain (n + 1) (.object fields)

/-- The numeral of an integer of 64 bits. -/
def Numeral.IsInteger (x : Numeral) : Prop := ∃ z : Int, z.natAbs < UInt64.size ∧ x = .ofInt z

theorem Plain.within {n : Nat} {v : Json} (h : Plain n v) : Within Numeral.IsInteger n v := by
  induction h with
  | null n => exact .null n
  | boolean n b => exact .boolean n b
  | integer n hz => exact .number n ⟨_, hz, rfl⟩
  | text n s => exact .text n s
  | array _ ih => exact .array ih
  | object _ ih => exact .object ih

variable {P : Numeral → Prop} {n : Nat} {v : Json}

theorem Within.mono {Q : Numeral → Prop} (hPQ : ∀ x, P x → Q x) (h : Within P n v) :
    Within Q n v := by
  induction h with
  | null n => exact .null n
  | boolean n b => exact .boolean n b
  | number n hx => exact .number n (hPQ _ hx)
  | text n s => exact .text n s
  | array _ ih => exact .array ih
  | object _ ih => exact .object ih

theorem Plain.finite (h : Plain n v) : Within (·.isFinite) n v := by
  apply h.within.mono
  rintro x ⟨z, hz, rfl⟩
  exact Numeral.isFinite_ofInt hz

section

variable {Q : Token → Prop} (hQ : ∀ t, (∀ x, t ≠ .number x) → Q t)
include hQ

theorem forall_itemTokens : ∀ {items : List Json}, (∀ v ∈ items, ∀ t ∈ v.tokens, Q t) →
    ∀ t ∈ itemTokens items, Q t
  | [], _ => by simp [itemTokens]
  | [item], h => h item (by simp)
  | item :: next :: rest, h => by
    have head := h item (by simp)
    have tail := forall_itemTokens fun v hv => h v (List.mem_cons_of_mem _ hv)
    simp only [itemTokens, List.mem_append, List.mem_cons]
    rintro t (ht | rfl | ht)
    · exact head t ht
    · exact hQ _ (by simp)
    · exact tail t ht

theorem forall_fieldTokens : ∀ {fields : List (String × Json)},
    (∀ f ∈ fields, ∀ t ∈ f.2.tokens, Q t) → ∀ t ∈ fieldTokens fields, Q t
  | [], _ => by simp [fieldTokens]
  | [(name, value)], h => by
    have head := h (name, value) (by simp)
    simp only [fieldTokens, List.mem_cons]
    rintro t (rfl | rfl | ht)
    · exact hQ _ (by simp)
    · exact hQ _ (by simp)
    · exact head t ht
  | (name, value) :: next :: rest, h => by
    have head := h (name, value) (by simp)
    have tail := forall_fieldTokens fun f hf => h f (List.mem_cons_of_mem _ hf)
    simp only [fieldTokens, List.cons_append, List.mem_cons, List.mem_append]
    rintro t (rfl | rfl | ht | rfl | ht)
    · exact hQ _ (by simp)
    · exact hQ _ (by simp)
    · exact head t ht
    · exact hQ _ (by simp)
    · exact tail t ht

/-- What holds of all numerals of a value and of all other tokens holds of its tokens. -/
theorem Within.forall_tokens (hP : ∀ x, P x → Q (.number x)) (h : Within P n v) :
    ∀ t ∈ v.tokens, Q t := by
  induction h with
  | null | boolean | text =>
    intro t ht
    obtain rfl := List.mem_singleton.mp ht
    exact hQ _ (by simp)
  | number n hx =>
    intro t ht
    obtain rfl := List.mem_singleton.mp ht
    exact hP _ hx
  | array _ ih =>
    simp only [tokens, List.cons_append, List.mem_cons, List.mem_append]
    rintro t (rfl | ht | rfl | ht)
    · exact hQ _ (by simp)
    · exact forall_itemTokens hQ ih t ht
    · exact hQ _ (by simp)
    · cases ht
  | object _ ih =>
    simp only [tokens, List.cons_append, List.mem_cons, List.mem_append]
    rintro t (rfl | ht | rfl | ht)
    · exact hQ _ (by simp)
    · exact forall_fieldTokens hQ ih t ht
    · exact hQ _ (by simp)
    · cases ht

end

/-- Tokens before which a numeral may stand. -/
def Follows (rest : List Token) : Prop :=
  rest.IsChain Divides ∧ ∀ x, ∀ t ∈ rest.head?, Divides (.number x) t

/-- Tokens that are divided whatever follows them. -/
def Divided (ts : List Token) : Prop := ∀ rest, Follows rest → (ts ++ rest).IsChain Divides

theorem divided_itemTokens : ∀ {items : List Json}, (∀ v ∈ items, Divided v.tokens) →
    Divided (itemTokens items)
  | [], _ => fun _ h => h.1
  | [item], h => h item (by simp)
  | item :: next :: more, h => by
    intro rest hrest
    have tail := divided_itemTokens (fun v hv => h v (List.mem_cons_of_mem _ hv)) rest hrest
    have comma : Follows (.comma :: (itemTokens (next :: more) ++ rest)) :=
      ⟨List.isChain_cons.mpr ⟨by simp [Divides], tail⟩, by simp [Divides]⟩
    simpa [itemTokens] using h item (by simp) _ comma

theorem divided_fieldTokens : ∀ {fields : List (String × Json)},
    (∀ f ∈ fields, Divided f.2.tokens) → Divided (fieldTokens fields)
  | [], _ => fun _ h => h.1
  | [(name, value)], h => by
    intro rest hrest
    have head := h (name, value) (by simp) rest hrest
    simpa [fieldTokens, List.isChain_cons, Divides] using head
  | (name, value) :: next :: more, h => by
    intro rest hrest
    have tail := divided_fieldTokens (fun f hf => h f (List.mem_cons_of_mem _ hf)) rest hrest
    have comma : Follows (.comma :: (fieldTokens (next :: more) ++ rest)) :=
      ⟨List.isChain_cons.mpr ⟨by simp [Divides], tail⟩, by simp [Divides]⟩
    have head := h (name, value) (by simp) _ comma
    simpa [fieldTokens, List.isChain_cons, Divides] using head

/-- The numerals of a value are divided from what follows them. -/
theorem Within.divided (h : Within P n v) : Divided v.tokens := by
  induction h with
  | null | boolean | text =>
    intro rest hrest
    simpa [tokens, List.isChain_cons, Divides] using hrest.1
  | @number n x hx =>
    intro rest hrest
    exact List.isChain_cons.mpr ⟨hrest.2 x, hrest.1⟩
  | array _ ih =>
    intro rest hrest
    have close : Follows (.closeArray :: rest) :=
      ⟨List.isChain_cons.mpr ⟨by simp [Divides], hrest.1⟩, by simp [Divides]⟩
    have inside := divided_itemTokens ih _ close
    simpa [tokens, List.isChain_cons, Divides] using inside
  | object _ ih =>
    intro rest hrest
    have close : Follows (.closeObject :: rest) :=
      ⟨List.isChain_cons.mpr ⟨by simp [Divides], hrest.1⟩, by simp [Divides]⟩
    have inside := divided_fieldTokens ih _ close
    simpa [tokens, List.isChain_cons, Divides] using inside

namespace Build

/-- Tokens are built into a value inside at most so many containers. -/
def Builds (n : Nat) (v : Json) : Prop :=
  ∀ (within : List Container) (rest : List Token), within.length + n ≤ maxDepth →
    run? (.value within) (v.tokens ++ rest) = run? (complete v within) rest

theorem builds_items {n : Nat} : ∀ {items : List Json} (before : List Json) (_ : items ≠ [])
    (_ : ∀ v ∈ items, Builds n v) (within : List Container) (rest : List Token)
    (_ : within.length + (n + 1) ≤ maxDepth),
    run? (.value (.array before :: within)) (itemTokens items ++ .closeArray :: rest) =
      run? (complete (.array (before.reverse ++ items)) within) rest
  | [item], before, _, h, within, rest, hdepth => by
    have head := h item (by simp) (.array before :: within) (.closeArray :: rest)
      (by simp; omega)
    rw [itemTokens, head]
    simp [complete, run?, step?]
  | item :: next :: more, before, _, h, within, rest, hdepth => by
    have head := h item (by simp) (.array before :: within)
      (.comma :: itemTokens (next :: more) ++ .closeArray :: rest) (by simp; omega)
    have tail := @builds_items n (next :: more) (item :: before) (by simp)
      (fun v hv => h v (List.mem_cons_of_mem _ hv)) within rest hdepth
    simp only [itemTokens, List.append_assoc, List.cons_append] at head tail ⊢
    rw [head]
    simpa [complete, run?, step?] using tail

theorem builds_fields {n : Nat} : ∀ {fields : List (String × Json)}
    (before : List (String × Json)) (_ : fields ≠ []) (_ : ∀ f ∈ fields, Builds n f.2)
    (within : List Container) (rest : List Token) (_ : within.length + (n + 1) ≤ maxDepth),
    run? (.name before within) (fieldTokens fields ++ .closeObject :: rest) =
      run? (complete (.object (before.reverse ++ fields)) within) rest
  | [(key, v)], before, _, h, within, rest, hdepth => by
    have head := h (key, v) (by simp) (.object before key :: within) (.closeObject :: rest)
      (by simp; omega)
    simp only [fieldTokens, List.cons_append, run?, step?]
    rw [head]
    simp [complete, run?, step?]
  | (key, v) :: next :: more, before, _, h, within, rest, hdepth => by
    have head := h (key, v) (by simp) (.object before key :: within)
      (.comma :: fieldTokens (next :: more) ++ .closeObject :: rest) (by simp; omega)
    have tail := @builds_fields n (next :: more) ((key, v) :: before) (by simp)
      (fun f hf => h f (List.mem_cons_of_mem _ hf)) within rest hdepth
    simp only [fieldTokens, List.append_assoc, List.cons_append, run?, step?] at head tail ⊢
    rw [head]
    simpa [complete, run?, step?] using tail

theorem tokens_head (v : Json) : ∃ t ts, v.tokens = t :: ts ∧ t ≠ .closeArray := by
  cases v <;> simp [tokens]

/-- An array that is not empty is read like any list of items. -/
theorem run?_firstItem (within : List Container) {items : List Json} (h : items ≠ [])
    (rest : List Token) :
    run? (.firstItem within) (itemTokens items ++ rest) =
      run? (.value (.array [] :: within)) (itemTokens items ++ rest) := by
  have first : ∃ t ts, itemTokens items = t :: ts ∧ t ≠ .closeArray := by
    match items, h with
    | [item], _ => exact tokens_head item
    | item :: next :: more, _ =>
      obtain ⟨t, ts, hts, ht⟩ := tokens_head item
      exact ⟨t, _, by rw [itemTokens, hts]; rfl, ht⟩
  obtain ⟨t, ts, hts, ht⟩ := first
  rw [hts]
  cases t <;> first | rfl | exact absurd rfl ht

/-- An object that is not empty is read like any list of fields. -/
theorem run?_firstName (within : List Container) {fields : List (String × Json)}
    (h : fields ≠ []) (rest : List Token) :
    run? (.firstName within) (fieldTokens fields ++ rest) =
      run? (.name [] within) (fieldTokens fields ++ rest) := by
  match fields, h with
  | [(_, _)], _ => rfl
  | (_, _) :: _ :: _, _ => rfl

theorem builds (h : Within P n v) : Builds n v := by
  induction h with
  | null | boolean | text | number =>
    intro within rest _
    rfl
  | @array n items _ ih =>
    intro within rest hdepth
    have hopen : within.length < maxDepth := by omega
    have opened : step? (.value within) .openArray = some (.firstItem within) := by
      simp [step?, start?, hopen]
    simp only [tokens, List.cons_append, List.append_assoc, run?, opened]
    by_cases hitems : items = []
    · subst hitems
      rfl
    · rw [run?_firstItem within hitems]
      exact builds_items [] hitems ih within rest hdepth
  | @object n fields _ ih =>
    intro within rest hdepth
    have hopen : within.length < maxDepth := by omega
    have opened : step? (.value within) .openObject = some (.firstName within) := by
      simp [step?, start?, hopen]
    simp only [tokens, List.cons_append, List.append_assoc, run?, opened]
    by_cases hfields : fields = []
    · subst hfields
      rfl
    · rw [run?_firstName within hfields]
      exact builds_fields [] hfields ih within rest hdepth

end Build

theorem ofTokens?_tokens (h : Within P n v) (hn : n ≤ maxDepth) :
    ofTokens? v.tokens = some v := by
  have run := Build.builds h [] [] (by simpa using hn)
  rw [List.append_nil] at run
  rw [ofTokens?, run]
  rfl

/-- However a value is written, it is read, if it is not nested too deeply and its numerals are
finite. -/
theorem parse?_of_writes (h : Within (·.isFinite) n v) (hn : n ≤ maxDepth)
    {text : List Char} (htext : Writes v text) : parse? text = some v := by
  have finite : ∀ x, .number x ∈ v.tokens → x.isFinite := by
    intro x hx
    refine h.forall_tokens (Q := fun t => ∀ x, t = .number x → x.isFinite) ?_ ?_ _ hx x rfl
    · rintro t ht x rfl
      exact absurd rfl (ht x)
    · rintro x hx y hy
      exact Token.number.inj hy ▸ hx
  have divided : v.tokens.IsChain Divides := by
    simpa using h.divided [] ⟨.nil, by simp⟩
  simp only [parse?, scan?_of_spaced htext divided finite, bind, Option.bind,
    ofTokens?_tokens h hn]

end TermLink.Json
