import TermLink.Message.Basic

/-!
# Output among messages

The messages that only a terminal sends, and the bytes that the `data` of a list of messages carry.
-/

namespace TermLink.Message

/-- Whether a message is one that only the terminal sends. -/
def isOutput : Message → Bool
  | .data _ | .exit _ => true
  | _ => false

/-- The payload of a `data`. -/
def payload : Message → Bytes
  | .data bytes => bytes
  | _ => []

/-- The payloads of messages one after another. -/
def payloads (ms : List Message) : Bytes := ms.flatMap payload

@[simp] theorem payloads_nil : payloads [] = [] := rfl

@[simp] theorem payloads_cons (m : Message) (ms : List Message) :
    payloads (m :: ms) = m.payload ++ payloads ms := rfl

@[simp] theorem payloads_append (as bs : List Message) :
    payloads (as ++ bs) = payloads as ++ payloads bs := by
  simp [payloads]

@[simp] theorem payloads_map_data (chunks : List Bytes) :
    payloads (chunks.map data) = chunks.flatten := by
  induction chunks with
  | nil => rfl
  | cons chunk chunks ih => simp [payload, ih]

/-- Messages without a payload do not matter. -/
theorem payloads_filter {p : Message → Bool} {ms : List Message}
    (h : ∀ m ∈ ms, p m = false → m.payload = []) : payloads (ms.filter p) = payloads ms := by
  induction ms with
  | nil => rfl
  | cons m ms ih =>
    have tail : payloads (ms.filter p) = payloads ms := by
      apply ih
      intro n hn
      exact h n (List.mem_cons_of_mem _ hn)
    cases hm : p m with
    | true => simp [hm, tail]
    | false => simp [hm, tail, h m List.mem_cons_self hm]

theorem payloads_filter_isOutput (ms : List Message) :
    payloads (ms.filter isOutput) = payloads ms := by
  apply payloads_filter
  intro m _ hm
  cases m <;> simp_all [isOutput, payload]

theorem payloads_prefix {as bs : List Message} (h : as <+: bs) : payloads as <+: payloads bs := by
  obtain ⟨rest, rfl⟩ := h
  simp

end TermLink.Message
