import TermLink.Proofs.Json.Limits
import TermLink.Proofs.Message.Written

/-!
# Messages as arrays

An array of a tag and values is decoded as the object with that tag and with these values under the
names of the kind's first fields. The values may be any: where one of them cannot be read, or is not
what its field holds, neither form is a message.
-/

namespace TermLink.Message

open Json

/-- The array of a kind's tag and values. -/
def Kind.row (k : Kind) (values : List Json) : Json :=
  .array (.text k.tag :: values)

/-- The object of a kind's tag and values under the names of its first fields. -/
def Kind.record (k : Kind) (values : List Json) : Json :=
  .object ((tagName, .text k.tag) :: (k.fields.map Field.name).zip values)

/-- The frames that hold a value: it is written in any way, with any blanks around it. -/
inductive Holds (v : Json) : Bytes → Prop
  | surrounded {text : List Char} {before after : Bytes} (htext : Grammar.Writes v text)
      (hbefore : ∀ b ∈ before, Bytes.isBlank b) (hafter : ∀ b ∈ after, Bytes.isBlank b) :
    Holds v (before ++ Utf8.encode (String.ofList text) ++ after)

/-- A plain value is held by its compact text. -/
theorem holds_render {n : Nat} {v : Json} (h : Plain n v) :
    Holds v (Utf8.encode (String.ofList v.render)) := by
  have none : ∀ b ∈ ([] : Bytes), Bytes.isBlank b := by simp
  simpa using Holds.surrounded (writes_render h) none none

section Reading

variable {v : Json} {frame : Bytes}

/-- The values that are written between two marks. -/
inductive Enclosed : Json → Prop
  | array (items : List Json) : Enclosed (.array items)
  | object (fields : List (String × Json)) : Enclosed (.object fields)

/-- The bytes of an array or an object begin and end with something else than blanks. -/
theorem Enclosed.exists_ends (hv : Enclosed v) {text : List Char} (htext : Grammar.Writes v text) :
    ∃ first mid last, Utf8.encode (String.ofList text) = first :: mid ++ [last] ∧
      Bytes.isBlank first = false ∧ Bytes.isBlank last = false := by
  cases hv with
  | array =>
    obtain ⟨mid, hmid⟩ := encode_brackets htext
    exact ⟨91, mid, 93, hmid, by decide, by decide⟩
  | object =>
    obtain ⟨mid, hmid⟩ := Json.encode_braces htext
    exact ⟨123, mid, 125, hmid, by decide, by decide⟩

/-- A frame is decoded as the value that it holds where that value is within the limits. -/
theorem Holds.decode_of_within (h : Holds v frame) (hv : Enclosed v)
    (hwithin : Within (·.isFinite) maxDepth v) :
    decode frame = (ofJson? v).elim (.error .malformed) .ok := by
  cases h with
  | surrounded htext hbefore hafter =>
    obtain ⟨first, mid, last, hends, hfirst, hlast⟩ := hv.exists_ends htext
    rw [decode_surrounded hends hfirst hlast hbefore hafter,
      parse?_of_writes hwithin (Nat.le_refl _) htext, Option.bind_some]

/-- A frame that holds a value beyond the limits is malformed. -/
theorem Holds.decode_of_not_within (h : Holds v frame) (hv : Enclosed v)
    (hwithin : ¬Within (·.isFinite) maxDepth v) : decode frame = .error .malformed := by
  cases h with
  | surrounded htext hbefore hafter =>
    obtain ⟨first, mid, last, hends, hfirst, hlast⟩ := hv.exists_ends htext
    rw [decode_surrounded hends hfirst hlast hbefore hafter, parse?_of_not_within hwithin htext,
      Option.bind_none, Option.elim_none]

end Reading

variable {k : Kind} {values : List Json}

theorem ofJson?_row :
    ofJson? (k.row values) = (slotsOfItems? k.fields values).bind (ofSlots? k) := by
  simp only [Kind.row, ofJson?, Kind.ofJson?, ofTag?_tag, bind, Option.bind]

theorem ofJson?_row_of_lt (h : k.fields.length < values.length) :
    ofJson? (k.row values) = none := by
  rw [ofJson?_row, slotsOfItems?, if_neg (Nat.not_le.mpr h), Option.bind_none]

theorem tag_record :
    fieldsNamed [tagName] ((tagName, .text k.tag) :: (k.fields.map Field.name).zip values) =
      [.text k.tag] := by
  have others : fieldsNamed [tagName] ((k.fields.map Field.name).zip values) = [] := by
    rw [← reduceOption_entriesOf]
    exact fieldsNamed_tagName (entries_entriesOf k.fields values)
  rw [← List.singleton_append (x := (tagName, _)), fieldsNamed_append, others]
  simp [fieldsNamed]

/-- Values mean the same to a kind in order and under the names of its first fields. -/
theorem ofJson?_record (h : values.length ≤ k.fields.length) :
    ofJson? (k.record values) = ofJson? (k.row values) := by
  have slots := slotsOfFields?_zip (apart_fields k) h [(tagName, .text k.tag)] <| by
    intro e he f hf
    rw [List.mem_singleton.mp he]
    exact tagName_not_mem_names k f hf
  rw [List.singleton_append] at slots
  rw [ofJson?_row]
  simp only [Kind.record, ofJson?, tag_record, Kind.ofJson?, ofTag?_tag, slots, bind, Option.bind]

theorem kind_of_ofSlots? {slots : List Slot} {m : Message} (h : ofSlots? k slots = some m) :
    m.kind = k := by
  revert h
  fun_cases ofSlots? k slots with
  | case1 =>
    simp only [bind, Option.bind_eq_some_iff, Option.some.injEq]
    rintro ⟨_, -, _, -, _, -, rfl⟩
    rfl
  | case3 =>
    simp only [bind, Option.bind_eq_some_iff, Option.some.injEq]
    rintro ⟨_, -, _, -, rfl⟩
    rfl
  | case9 => simp
  | _ =>
    rw [Option.map_eq_some_iff]
    rintro ⟨_, -, rfl⟩
    rfl

theorem kind_of_row {m : Message} (h : ofJson? (k.row values) = some m) : m.kind = k := by
  rw [ofJson?_row] at h
  obtain ⟨slots, -, read⟩ := Option.bind_eq_some_iff.mp h
  exact kind_of_ofSlots? read

section Limits

variable {P : Numeral → Prop} {n : Nat}

theorem within_row_iff : Within P (n + 1) (k.row values) ↔ ∀ v ∈ values, Within P n v := by
  rw [Kind.row, within_array_iff, List.forall_mem_cons]
  exact and_iff_right (.text n k.tag)

theorem within_record_iff (h : values.length ≤ k.fields.length) :
    Within P (n + 1) (k.record values) ↔ ∀ v ∈ values, Within P n v := by
  have all : ((k.fields.map Field.name).zip values).map Prod.snd = values :=
    List.map_snd_zip (by simpa using h)
  rw [Kind.record, within_object_iff, List.forall_mem_cons, ← all, List.forall_mem_map, all]
  exact and_iff_right (.text n k.tag)

theorem plain_row (h : ∀ v ∈ values, Plain n v) : Plain (n + 1) (k.row values) :=
  .array (List.forall_mem_cons.mpr ⟨.text n k.tag, h⟩)

theorem plain_record (h : ∀ v ∈ values, Plain n v) : Plain (n + 1) (k.record values) :=
  .object (List.forall_mem_cons.mpr ⟨.text n k.tag, fun _ hf => h _ (List.of_mem_zip hf).2⟩)

end Limits

/-- Every message is decoded from the array of its values, null where it has none. -/
theorem decode_row_slots {m : Message} {row : Bytes}
    (hrow : Holds (m.kind.row (m.slots.map (·.getD .null))) row) : decode row = .ok m := by
  have whole : slotsOfItems? m.kind.fields (m.slots.map (·.getD .null)) =
      some (m.slots.map fun slot => some (slot.getD .null)) := by
    cases m <;> rfl
  have read : ofSlots? m.kind (m.slots.map fun slot => some (slot.getD .null)) = some m := by
    cases m with
    | init size repo =>
      cases repo <;> simp [kind, slots, ofSlots?, readInt64?_int64Json, readOptionalText?]
    | _ => exact ofSlots?_slots _
  have finite : ∀ v ∈ m.slots.map (·.getD .null), Within (·.isFinite) (maxDepth - 1) v := by
    intro v hv
    obtain ⟨slot, hslot, rfl⟩ := List.mem_map.mp hv
    cases slot with
    | none => exact .null _
    | some v => exact (plain_of_mem_slots _ hslot).finite
  rw [hrow.decode_of_within (.array _) (within_row_iff.mpr finite), ofJson?_row, whole,
    Option.bind_some, read, Option.elim_some]

/-- An array of a kind's tag and values is decoded as the object with that tag and with the values
under the names of the kind's first fields, whatever the values and however the two are written: as
the same message of that kind, or both are malformed. With more values than the kind has fields the
array is malformed, and with the values of a message it is that message. -/
theorem decode_row {row : Bytes} (hrow : Holds (k.row values) row) :
    (values.length ≤ k.fields.length → ∀ record, Holds (k.record values) record →
      (∃ m : Message, m.kind = k ∧ decode row = .ok m ∧ decode record = .ok m) ∨
        (decode row = .error .malformed ∧ decode record = .error .malformed)) ∧
    (k.fields.length < values.length → decode row = .error .malformed) ∧
    ∀ m : Message, m.kind = k → m.slots.map (·.getD .null) = values → decode row = .ok m := by
  refine ⟨?_, ?_, ?_⟩
  · intro hvalues record hrecord
    have limits : Within (·.isFinite) maxDepth (k.row values) ↔
        Within (·.isFinite) maxDepth (k.record values) :=
      within_row_iff.trans (within_record_iff hvalues).symm
    by_cases hwithin : Within (·.isFinite) maxDepth (k.row values)
    · have first := hrow.decode_of_within (.array _) hwithin
      have second := hrecord.decode_of_within (.object _) (limits.mp hwithin)
      rw [ofJson?_record hvalues] at second
      cases hm : ofJson? (k.row values) with
      | none =>
        rw [hm] at first second
        exact .inr ⟨first, second⟩
      | some m =>
        rw [hm] at first second
        exact .inl ⟨m, kind_of_row hm, first, second⟩
    · exact .inr ⟨hrow.decode_of_not_within (.array _) hwithin,
        hrecord.decode_of_not_within (.object _) (mt limits.mpr hwithin)⟩
  · intro hvalues
    by_cases hwithin : Within (·.isFinite) maxDepth (k.row values)
    · rw [hrow.decode_of_within (.array _) hwithin, ofJson?_row_of_lt hvalues, Option.elim_none]
    · exact hrow.decode_of_not_within (.array _) hwithin
  · rintro m rfl rfl
    exact decode_row_slots hrow

theorem decode_row_resize :
    let row := Utf8.encode "[\"resize\",80]"
    let record := Utf8.encode "\x7b\"type\":\"resize\",\"cols\":80\x7d"
    let long := Utf8.encode "[\"resize\",80,24,24]"
    Holds (Kind.resize.row [.ofInt 80]) row ∧ Holds (Kind.resize.record [.ofInt 80]) record
      ∧ Holds (Kind.resize.row [.ofInt 80, .ofInt 24, .ofInt 24]) long
      ∧ (∃ m : Message, m.kind = .resize ∧ decode row = .ok m ∧ decode record = .ok m)
      ∧ decode row = .ok (.resize ⟨80, 0⟩) ∧ decode long = .error .malformed := by
  intro row record long
  have cols : Plain 0 (.ofInt 80) := .integer 0 (by decide)
  have rows : Plain 0 (.ofInt 24) := .integer 0 (by decide)
  have hrow : Holds (Kind.resize.row [.ofInt 80]) row :=
    holds_render (plain_row (List.forall_mem_singleton.mpr cols))
  have hrecord : Holds (Kind.resize.record [.ofInt 80]) record :=
    holds_render (plain_record (List.forall_mem_singleton.mpr cols))
  have hlong : Holds (Kind.resize.row [.ofInt 80, .ofInt 24, .ofInt 24]) long :=
    holds_render (plain_row (List.forall_mem_cons.mpr ⟨cols, by simp [rows]⟩))
  have read : decode row = .ok (.resize ⟨80, 0⟩) := by decide +kernel
  have same := ((decode_row hrow).1 (by decide) record hrecord).resolve_right (by simp [read])
  exact ⟨hrow, hrecord, hlong, same, read, (decode_row hlong).2.1 (by decide)⟩

end TermLink.Message
