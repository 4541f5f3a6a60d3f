import TermLink.SessionInfo
import TermLink.Proofs.Sequence
import TermLink.Proofs.Text.Utf8
import Mathlib.Data.List.Forall2

/-!
# Header fields on their way

A field whose value can be read as text is read as that text, and what a value loses at its ends on
the way is white space. So the trimmed text of a field arrives, whether or not the way trims it.
-/

namespace TermLink

namespace Text

variable {text : String}

theorem toList_trimmed (text : String) : (trimmed text).toList = trim isBlank text.toList := by
  rw [trimmed, String.toList_ofList]

theorem trimmed_eq_empty_iff : trimmed text = "" ↔ blank text := by
  rw [← String.toList_eq_nil_iff, toList_trimmed, trim_eq_nil_iff, blank]

theorem blank_trimmed (text : String) : blank (trimmed text) = blank text := by
  rw [blank, toList_trimmed, all_trim, blank]

/-- White space around a text makes no difference once it is trimmed. -/
theorem trimmed_surrounded {lead tail : List Char} (hlead : ∀ c ∈ lead, isBlank c)
    (htail : ∀ c ∈ tail, isBlank c) (inner : List Char) :
    trimmed (String.ofList (lead ++ inner ++ tail)) = trimmed (String.ofList inner) := by
  simp only [trimmed, String.toList_ofList, trim_append_right htail, trim_append_left hlead]

/-- A text without white space is its own trimmed text. -/
theorem trimmed_eq_self (h : ∀ c ∈ text.toList, isBlank c = false) : trimmed text = text := by
  obtain ⟨lead, tail, hlead, htail, heq⟩ := exists_trim isBlank text.toList
  have around (part : List Char) (hpart : ∀ c ∈ part, isBlank c)
      (hin : ∀ c ∈ part, c ∈ text.toList) : part = [] := by
    apply List.eq_nil_iff_forall_not_mem.mpr
    intro c hc
    have contra := (hpart c hc).symm.trans (h c (hin c hc))
    cases contra
  have first : lead = [] := around lead hlead fun c hc => by rw [heq]; simp [hc]
  have last : tail = [] := around tail htail fun c hc => by rw [heq]; simp [hc]
  rw [first, last, List.nil_append, List.append_nil] at heq
  rw [trimmed, ← heq, String.ofList_toList]

/-- What is left of a text is its trimmed text, unless there is nothing but white space. -/
theorem content?_eq (text : String) :
    content? text = ((some text).filter fun t => !blank t).map trimmed := by
  cases hb : blank text with
  | true => simp [content?, trimmed_eq_empty_iff.mpr hb, hb, Option.filter]
  | false =>
    have rest : trimmed text ≠ "" := by
      rw [ne_eq, trimmed_eq_empty_iff, hb]
      exact Bool.false_ne_true
    simp [content?, rest, hb, Option.filter]

theorem content?_congr {other : String} (h : trimmed other = trimmed text) :
    content? other = content? text := by
  rw [content?, h, content?]

end Text

namespace Header

variable {name text : String} {h arrived : Header}

/-- Whether a text can be written into a field: visible ASCII characters, spaces and tabs can. -/
def Writable (text : String) : Prop :=
  ∀ c ∈ text.toList, c = '\t' ∨ 32 ≤ c.toNat ∧ c.toNat < 127

theorem isVisible_iff {b : UInt8} : isVisible b ↔ b.toNat = 9 ∨ 32 ≤ b.toNat ∧ b.toNat < 127 := by
  simp [isVisible, UInt8.lt_iff_toNat_lt, UInt8.le_iff_toNat_le, ← UInt8.toNat_inj]
  tauto

theorem all_isVisible_encode : (Utf8.encode text).all isVisible ↔ Writable text := by
  have bytes : Utf8.encode text = text.toList.flatMap String.utf8EncodeChar := by
    rw [← Utf8.encode_ofList, String.ofList_toList]
  rw [bytes, List.all_flatMap, List.all_eq_true]
  apply forall₂_congr
  intro c _
  have tab : c = '\t' ↔ c.toNat = 9 := ⟨fun h => h ▸ rfl, fun h => Char.toNat_inj.mp h⟩
  rw [tab]
  constructor
  · intro h
    have seen (b : UInt8) (hb : b ∈ String.utf8EncodeChar c) :=
      isVisible_iff.mp (List.all_eq_true.mp h b hb)
    have ascii : ∀ b ∈ String.utf8EncodeChar c, b.toNat < 128 := by
      intro b hb
      have range := seen b hb
      omega
    obtain ⟨one, small⟩ := Utf8.utf8EncodeChar_of_lt ascii
    have only := seen (UInt8.ofNat c.toNat) (by simp [one])
    rw [UInt8.toNat_ofNat'] at only
    omega
  · intro h
    have small : c.toNat < 128 := by omega
    rw [Utf8.utf8EncodeChar_eq small, List.all_cons, List.all_nil, Bool.and_true, isVisible_iff,
      UInt8.toNat_ofNat']
    omega

theorem isSome_ofText? (name text : String) : (ofText? name text).isSome ↔ Writable text := by
  rw [← all_isVisible_encode, ofText?]
  split <;> simp_all

/-- The text of a field is what its value spells, if all of that can be read. -/
theorem text?_eq_some_iff : h.text? = some text ↔
    h.value.all isVisible ∧ text.toList = h.value.map fun b => Char.ofNat b.toNat := by
  rw [Header.text?]
  split
  · next visible =>
    rw [Option.some.injEq]
    constructor
    · rintro rfl
      exact ⟨visible, String.toList_ofList⟩
    · rintro ⟨-, same⟩
      rw [← same, String.ofList_toList]
  · next dark => simp [dark]

theorem text?_of_ofText? (hh : ofText? name text = some h) :
    h.name = name ∧ h.text? = some text := by
  rw [ofText?] at hh
  split at hh
  · next visible =>
    cases hh
    have ascii : ∀ b ∈ Utf8.encode text, b.toNat < 128 := by
      intro b hb
      have seen := isVisible_iff.mp (List.all_eq_true.mp visible b hb)
      omega
    exact ⟨rfl, text?_eq_some_iff.mpr ⟨visible, (Utf8.map_encode ascii).symm⟩⟩
  · cases hh

/-- The characters of spaces and tabs. -/
def isPaddingChar (c : Char) : Bool := c = ' ' || c = '\t'

/-- A text without the spaces and tabs at its ends. -/
def unpadded (text : String) : String := String.ofList (trim isPaddingChar text.toList)

theorem isPaddingChar_ofNat (b : UInt8) : isPaddingChar (Char.ofNat b.toNat) = isPadding b := by
  have small : b.toNat < 256 := UInt8.toNat_lt b
  have number : (Char.ofNat b.toNat).toNat = b.toNat := by
    have valid : b.toNat.isValidChar := .inl (by omega)
    rw [Char.ofNat, dif_pos valid]
    rfl
  rw [Bool.eq_iff_iff, isPaddingChar, isPadding]
  simp only [Bool.or_eq_true, decide_eq_true_eq, ← Char.toNat_inj, number, ← UInt8.toNat_inj]
  rfl

theorem isBlank_of_isPaddingChar {c : Char} (hc : isPaddingChar c) : Text.isBlank c := by
  have which : c = ' ' ∨ c = '\t' := by simpa [isPaddingChar] using hc
  rcases which with rfl | rfl <;> decide

/-- A field arrives as it was sent, or without the spaces and tabs around its value. -/
def Arrives (h arrived : Header) : Prop := arrived = h ∨ arrived = h.delivered

/-- A field arrives with no more missing than spaces and tabs at the ends of its value. -/
structure Worn (h arrived : Header) : Prop where
  name : arrived.name = h.name
  value : ∃ lead tail, (∀ b ∈ lead, isPadding b) ∧ (∀ b ∈ tail, isPadding b)
    ∧ h.value = lead ++ arrived.value ++ tail

theorem worn_delivered (h : Header) : Worn h h.delivered := ⟨rfl, exists_trim isPadding h.value⟩

theorem Arrives.worn (ha : Arrives h arrived) : Worn h arrived := by
  rcases ha with rfl | rfl
  · exact ⟨rfl, [], [], nofun, nofun, by simp⟩
  · exact worn_delivered h

/-- What arrives of a text lacks no more than spaces and tabs at its ends. -/
theorem Worn.text? (hw : Worn h arrived) (ht : h.text? = some text) :
    ∃ lead inner tail, arrived.text? = some inner ∧ (∀ c ∈ lead, isPaddingChar c)
      ∧ (∀ c ∈ tail, isPaddingChar c) ∧ text.toList = lead ++ inner.toList ++ tail := by
  obtain ⟨visible, same⟩ := text?_eq_some_iff.mp ht
  obtain ⟨lead, tail, hlead, htail, heq⟩ := hw.value
  rw [heq, List.all_append, List.all_append, Bool.and_eq_true, Bool.and_eq_true] at visible
  have padding {part : Bytes} (hpart : ∀ b ∈ part, isPadding b) :
      ∀ c ∈ part.map fun b => Char.ofNat b.toNat, isPaddingChar c := by
    intro c hc
    obtain ⟨b, hb, rfl⟩ := List.mem_map.mp hc
    rw [isPaddingChar_ofNat]
    exact hpart b hb
  refine ⟨_, String.ofList (arrived.value.map fun b => Char.ofNat b.toNat), _, ?_, padding hlead,
    padding htail, ?_⟩
  · exact text?_eq_some_iff.mpr ⟨visible.1.2, String.toList_ofList⟩
  · rw [same, heq, List.map_append, List.map_append, String.toList_ofList]

/-- A field that has lost all that it can lose is read without the spaces and tabs. -/
theorem text?_delivered (ht : h.text? = some text) :
    h.delivered.text? = some (unpadded text) := by
  obtain ⟨visible, same⟩ := text?_eq_some_iff.mp ht
  refine text?_eq_some_iff.mpr ⟨?_, ?_⟩
  · obtain ⟨lead, tail, -, -, heq⟩ := exists_trim isPadding h.value
    rw [heq, List.all_append, List.all_append, Bool.and_eq_true, Bool.and_eq_true] at visible
    exact visible.1.2
  · have bytes : isPaddingChar ∘ (fun b : UInt8 => Char.ofNat b.toNat) = isPadding :=
      funext isPaddingChar_ofNat
    rw [unpadded, String.toList_ofList, same, trim_map, bytes, delivered]

/-- What arrives of a text is the same once it is trimmed. -/
theorem Arrives.text? (ha : Arrives h arrived) (ht : h.text? = some text) :
    ∃ inner, arrived.text? = some inner ∧ Text.trimmed inner = Text.trimmed text := by
  obtain ⟨lead, inner, tail, hinner, hlead, htail, heq⟩ := ha.worn.text? ht
  refine ⟨inner, hinner, ?_⟩
  have around := Text.trimmed_surrounded (fun c hc => isBlank_of_isPaddingChar (hlead c hc))
    (fun c hc => isBlank_of_isPaddingChar (htail c hc)) inner.toList
  rw [← heq, String.ofList_toList, String.ofList_toList] at around
  exact around.symm

end Header

namespace Headers

variable {fields : List (String × String)} {sent arrived : Headers}

/-- Fields that are all written carry their texts. -/
theorem text?_of_mapM (h : (fields.mapM fun (name, text) => Header.ofText? name text) = some sent) :
    (∀ field ∈ sent, field.text?.isSome)
      ∧ ∀ name, sent.text? name = (fields.find? fun f => f.1 = name).map Prod.snd := by
  induction fields generalizing sent with
  | nil =>
    cases h
    exact ⟨nofun, fun _ => rfl⟩
  | cons field fields ih =>
    simp only [List.mapM_cons, Option.bind_eq_bind, Option.bind_eq_some_iff, Option.pure_def,
      Option.some.injEq] at h
    obtain ⟨first, hfirst, rest, hrest, rfl⟩ := h
    obtain ⟨hname, htext⟩ := Header.text?_of_ofText? hfirst
    obtain ⟨readable, later⟩ := ih hrest
    constructor
    · rintro _ (_ | ⟨_, hin⟩)
      · rw [htext]
        rfl
      · exact readable _ hin
    · intro name
      have later := later name
      rw [text?, first?] at later ⊢
      rw [List.find?_cons, List.find?_cons, hname]
      by_cases hn : field.1 = name
      · simp [hn, htext]
      · simpa [hn] using later

/-- The first field of a name arrives as the first of that name. -/
theorem first?_arrives (h : List.Forall₂ Header.Arrives sent arrived) (name : String) :
    Option.Rel Header.Arrives (sent.first? name) (arrived.first? name) := by
  induction h with
  | nil => exact .none
  | @cons first got rest others hfirst _ ih =>
    have same : got.name = first.name := by rcases hfirst with rfl | rfl <;> rfl
    rw [first?, first?, List.find?_cons, List.find?_cons, same]
    by_cases hn : first.name = name
    · simpa only [hn, decide_true] using .some hfirst
    · simp only [hn, decide_false]
      exact ih

/-- The trimmed text of a field arrives, and nothing arrives under another name. -/
theorem content?_arrives (hread : ∀ field ∈ sent, field.text?.isSome)
    (h : List.Forall₂ Header.Arrives sent arrived) (name : String) :
    SessionInfo.content? arrived name = (sent.text? name).bind Text.content? := by
  have first := first?_arrives h name
  rw [SessionInfo.content?, Headers.text?, Headers.text?]
  cases hsent : sent.first? name with
  | none =>
    rw [hsent] at first
    cases hgot : arrived.first? name with
    | none => rfl
    | some got =>
      rw [hgot] at first
      cases first
  | some field =>
    obtain ⟨text, htext⟩ :=
      Option.isSome_iff_exists.mp (hread field (List.mem_of_find?_eq_some hsent))
    rw [hsent] at first
    cases hgot : arrived.first? name with
    | none =>
      rw [hgot] at first
      cases first
    | some got =>
      rw [hgot] at first
      cases first with
      | some arrives =>
        obtain ⟨inner, hinner, same⟩ := arrives.text? htext
        rw [Option.bind_some, Option.bind_some, hinner, htext, Option.bind_some, Option.bind_some,
          Text.content?_congr same]

end Headers
end TermLink
