import TermLink.Proofs.Message.Lines

/-!
# Frames of data

Every message is read back from its frame, and a payload has one text that a frame may give it by:
the standard text that is written for it.
-/

namespace TermLink.Message

open Json
open Bytes (lineFeed)

/-- The JSON value in a frame. -/
def value? (frame : Bytes) : Option Json := do
  let text ← Utf8.decode? frame.trimmed
  parse? text.toList

/-- What a value gives as a payload: the field of an object, or the item after the tag of an
array. -/
def payloadIn? : Json → Option Json
  | .object given => given.lookup "data"
  | .array (_ :: payload :: _) => some payload
  | _ => none

/-- What a frame gives as a payload, in which escapes have been read. -/
def payloadOf? (frame : Bytes) : Option Json := (value? frame).bind payloadIn?

/-- The value of a payload. -/
def payloadText (payload : Bytes) : Json := .text (String.ofList (Base64.encode payload))

/-- A message is read from the value in its frame. -/
theorem exists_value?_of_decode {frame : Bytes} {m : Message} (h : decode frame = .ok m) :
    ∃ value, value? frame = some value ∧ ofJson? value = some m := by
  simp only [decode] at h
  split at h
  · cases h
  · split at h
    · rename_i found hfound
      obtain rfl := Except.ok.inj h
      simp only [ofText?, bind, Option.bind_eq_some_iff] at hfound
      obtain ⟨text, htext, value, hvalue, hm⟩ := hfound
      exact ⟨value, by simp [value?, htext, hvalue], hm⟩
    · cases h

/-- A payload is read from its one text, and without any it is empty. -/
theorem readPayload?_eq_some {slot : Slot} {payload : Bytes}
    (h : readPayload? slot = some payload) :
    slot = none ∧ payload = [] ∨ slot = some (payloadText payload) := by
  cases slot with
  | none => exact .inl ⟨rfl, (Option.some.inj h).symm⟩
  | some v =>
    cases v with
    | text s =>
      right
      rw [payloadText, ← Base64.decode?_eq_some_iff.mp h, String.ofList_toList]
    | _ => cases h

/-- Only slots of data are read as data. -/
theorem ofSlots?_eq_data {k : Kind} {given : List Slot} {payload : Bytes}
    (h : ofSlots? k given = some (.data payload)) :
    k = .data ∧ ∃ slot, given = [slot] ∧ readPayload? slot = some payload := by
  unfold ofSlots? at h
  split at h
  case h_2 slot =>
    obtain ⟨bytes, hbytes, same⟩ := Option.map_eq_some_iff.mp h
    exact ⟨rfl, slot, rfl, Message.data.inj same ▸ hbytes⟩
  all_goals simp [bind, Option.bind_eq_some_iff] at h

theorem lookup_eq_head? (name : String) (given : List (String × Json)) :
    given.lookup name = (fieldsNamed [name] given).head? := by
  induction given with
  | nil => rfl
  | cons f given ih =>
    obtain ⟨key, v⟩ := f
    rw [fieldsNamed] at ih ⊢
    by_cases hkey : key = name
    · simp [hkey]
    · have other : (name == key) = false := by simpa using Ne.symm hkey
      simpa [List.lookup_cons, other, hkey] using ih

/-- The only slot of an object holds what is given under its name. -/
theorem lookup_of_slots {name : String} {given : List (String × Json)} {slot : Slot}
    (h : slotsOfFields? [⟨name, []⟩] given = some [slot]) : given.lookup name = slot := by
  have only : slotOf? (fieldsNamed [name] given) = some slot := by
    simpa [slotsOfFields?, Field.names, bind, Option.bind_eq_some_iff] using h
  rw [lookup_eq_head?]
  generalize fieldsNamed [name] given = found at only ⊢
  rcases found with _ | ⟨v, _ | _⟩
  · exact Option.some.inj only
  · exact Option.some.inj only
  · cases only

/-- The only slot of an array holds its first item. -/
theorem head?_of_slots {f : Field} {given : List Json} {slot : Slot}
    (h : slotsOfItems? [f] given = some [slot]) : given.head? = slot := by
  rcases given with _ | ⟨v, _ | _⟩
  · simpa [slotsOfItems?] using h
  · simpa [slotsOfItems?] using h
  · simp [slotsOfItems?] at h

/-- The slot of a payload holds what the value gives. -/
theorem payloadIn?_eq {value : Json} {payload : Bytes} (h : ofJson? value = some (.data payload)) :
    readPayload? (payloadIn? value) = some payload := by
  unfold ofJson? at h
  split at h
  · next given =>
    split at h
    · simp only [bind, Option.bind_eq_some_iff] at h
      obtain ⟨k, -, slots, hslots, hm⟩ := h
      obtain ⟨rfl, slot, rfl, hpayload⟩ := ofSlots?_eq_data hm
      rw [payloadIn?, lookup_of_slots hslots]
      exact hpayload
    · cases h
  · next tag given =>
    simp only [bind, Option.bind_eq_some_iff] at h
    obtain ⟨k, -, slots, hslots, hm⟩ := h
    obtain ⟨rfl, slot, rfl, hpayload⟩ := ofSlots?_eq_data hm
    have first : payloadIn? (.array (tag :: given)) = given.head? := by cases given <;> rfl
    rw [first, head?_of_slots hslots]
    exact hpayload
  · cases h

theorem value?_encode (m : Message) : value? m.encode = some m.toJson := by
  have parsed := parse?_render m.plain_toJson (by decide)
  rw [value?, trimmed_encode]
  simp only [encode, wire, Utf8.decode?_encode, String.toList_ofList, parsed, bind, Option.bind]

/-- Every message is read back from its frame and from its line, and its frame is one line. A frame
that is read as data gives the payload by its standard text or leaves an empty one out, and that is
the text in the frame of the payload; no other text has that payload. -/
theorem decode_undoes_encode :
    (∀ m : Message, decode m.encode = .ok m ∧ decode m.encodeLine = .ok m ∧ lineFeed ∉ m.encode)
      ∧ (∀ frame payload, decode frame = .ok (.data payload) →
          payloadOf? frame = none ∧ payload = [] ∨ payloadOf? frame = some (payloadText payload))
      ∧ (∀ payload, payloadOf? (data payload).encode = some (payloadText payload))
      ∧ (∀ payload, Base64.Padded payload (Base64.encode payload))
      ∧ ∀ text payload, Base64.decode? text = some payload ↔ text = Base64.encode payload := by
  refine ⟨?_, ?_, ?_, Base64.padded_encode, fun _ _ => Base64.decode?_eq_some_iff⟩
  · intro m
    have line : decode m.encodeLine = decode m.encode := decode_congr (trimmed_lineFeed _)
    exact ⟨m.decode_encode, line.trans m.decode_encode, lineFeed_not_mem_encode m.plain_toJson⟩
  · intro frame payload h
    obtain ⟨value, hvalue, hm⟩ := exists_value?_of_decode h
    have given : payloadOf? frame = payloadIn? value := by rw [payloadOf?, hvalue, Option.bind]
    rw [given]
    exact readPayload?_eq_some (payloadIn?_eq hm)
  · intro payload
    rw [payloadOf?, value?_encode]
    rfl

theorem decode_undoes_encode_escaped :
    let frame := Utf8.encode "[\"data\" , \"\\u0061Gk=\"]\r\n"
    decode frame = .ok (.data [104, 105])
      ∧ payloadOf? frame = some (payloadText [104, 105])
      ∧ decode (data [104, 105]).encodeLine = .ok (.data [104, 105])
      ∧ Base64.decode? "aGl=".toList ≠ some [104, 105] := by
  intro frame
  obtain ⟨undoes, given, -, -, one⟩ := decode_undoes_encode
  have read : decode frame = .ok (.data [104, 105]) := by decide +kernel
  have present : (payloadOf? frame).isSome := by decide +kernel
  have text : payloadOf? frame = some (payloadText [104, 105]) := by
    rcases given frame _ read with ⟨none, -⟩ | text
    · rw [none] at present
      cases present
    · exact text
  have other : "aGl=".toList ≠ Base64.encode [104, 105] := by decide
  exact ⟨read, text, (undoes _).2.1, fun h => other ((one _ _).mp h)⟩

end TermLink.Message
