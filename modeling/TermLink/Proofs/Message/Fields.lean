import TermLink.Message.Fields
import TermLink.Proofs.Base64
import TermLink.Proofs.Json.Render

/-!
# The fields of a message round trip

The object of a message is plain, and it is read back as that message.
-/

namespace TermLink.Message

open Json

theorem readInt64?_int64Json (n : Int64) : readInt64? (some (int64Json n)) = some n := by
  have low := Int64.minValue_le_toInt n
  have high := Int64.toInt_le n
  have range : Int64.minValue.toInt ≤ n.toInt ∧ n.toInt ≤ Int64.maxValue.toInt := ⟨low, high⟩
  simp only [readInt64?, int64Json, Json.ofInt, Numeral.toInt?_ofInt, if_pos range,
    Int64.ofInt_toInt]

theorem readInt32?_ofInt (n : Int32) : readInt32? (some (Json.ofInt n.toInt)) = some n := by
  have low := Int32.minValue_le_toInt n
  have high := Int32.toInt_le n
  have range : Int32.minValue.toInt ≤ n.toInt ∧ n.toInt ≤ Int32.maxValue.toInt := ⟨low, high⟩
  simp only [readInt32?, Json.ofInt, Numeral.toInt?_ofInt, if_pos range, Int32.ofInt_toInt]

theorem plain_int64Json (k : Nat) (n : Int64) : Plain k (int64Json n) := by
  have low := Int64.le_toInt n
  have high := Int64.toInt_lt n
  apply Plain.integer
  simp only [UInt64.size]
  omega

theorem plain_int32 (k : Nat) (n : Int32) : Plain k (Json.ofInt n.toInt) := by
  have low := Int32.le_toInt n
  have high := Int32.toInt_lt n
  apply Plain.integer
  simp only [UInt64.size]
  omega

theorem plain_of_mem_slots (k : Nat) {m : Message} {v : Json} (h : some v ∈ m.slots) :
    Plain k v := by
  cases m with
  | init size repo =>
    simp only [slots, List.mem_cons, Option.some.injEq, List.not_mem_nil, or_false] at h
    rcases h with rfl | rfl | h
    · exact plain_int64Json k size.cols
    · exact plain_int64Json k size.rows
    · obtain ⟨r, -, rfl⟩ := Option.map_eq_some_iff.mp h.symm
      exact .text k r
  | resize size =>
    simp only [slots, List.mem_cons, Option.some.injEq, List.not_mem_nil, or_false] at h
    rcases h with rfl | rfl
    · exact plain_int64Json k size.cols
    · exact plain_int64Json k size.rows
  | data payload | error words | status words =>
    obtain rfl := Option.some.inj (List.mem_singleton.mp h)
    exact .text k _
  | exit code =>
    obtain rfl := Option.some.inj (List.mem_singleton.mp h)
    exact plain_int32 k code
  | ping timestamp | pong timestamp =>
    obtain rfl := Option.some.inj (List.mem_singleton.mp h)
    exact plain_int64Json k timestamp

theorem plain_toJson (m : Message) : Plain 1 m.toJson := by
  apply Plain.object
  intro f hf
  rcases List.mem_cons.mp hf with rfl | hf
  · exact .text 0 _
  · obtain ⟨⟨field, slot⟩, hzip, hslot⟩ := List.mem_filterMap.mp hf
    obtain ⟨v, rfl, rfl⟩ := Option.map_eq_some_iff.mp hslot
    exact plain_of_mem_slots 0 (List.of_mem_zip hzip).2

/-- The slots of a message's own fields are read back from its object. -/
theorem slotsOfFields?_toJson (m : Message) :
    slotsOfFields? m.kind.fields ((tagName, .text m.kind.tag) :: m.namedFields) = some m.slots := by
  cases m with
  | init size repo =>
    cases repo <;> rfl
  | _ => rfl

theorem ofSlots?_slots (m : Message) : ofSlots? m.kind m.slots = some m := by
  cases m with
  | init size repo =>
    cases repo <;> simp [kind, slots, ofSlots?, readInt64?_int64Json, readOptionalText?]
  | data payload => simp [kind, slots, ofSlots?, readPayload?, Base64.decode?_encode]
  | resize size => simp [kind, slots, ofSlots?, readInt64?_int64Json]
  | exit code => simp [kind, slots, ofSlots?, readInt32?_ofInt]
  | ping timestamp | pong timestamp => simp [kind, slots, ofSlots?, readInt64?_int64Json]
  | error words | status words => simp [kind, slots, ofSlots?, readText?]

theorem tag_toJson (m : Message) :
    fieldsNamed [tagName] ((tagName, .text m.kind.tag) :: m.namedFields) = [.text m.kind.tag] := by
  cases m with
  | init size repo => cases repo <;> rfl
  | _ => rfl

theorem ofTag?_tag (k : Kind) : Kind.ofTag? k.tag = some k := by
  cases k <;> rfl

/-- Writing a message as an object loses nothing. -/
theorem ofJson?_toJson (m : Message) : ofJson? m.toJson = some m := by
  simp only [ofJson?, toJson, tag_toJson, Kind.ofJson?, ofTag?_tag, slotsOfFields?_toJson,
    ofSlots?_slots, bind, Option.bind]

end TermLink.Message
