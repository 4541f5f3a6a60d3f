import TermLink.Message.Basic

/-!
# Messages with neighbouring payloads put together

Putting neighbouring `data` together does not depend on how the messages are cut into parts.
-/

namespace TermLink.Message

theorem joinData_append_congr {bs cs : List Message} (h : joinData bs = joinData cs)
    (as : List Message) : joinData (as ++ bs) = joinData (as ++ cs) := by
  induction as with
  | nil => exact h
  | cons a as ih => cases a <;> simp only [List.cons_append, joinData, ih]

/-- Two neighbouring payloads count as one. -/
theorem joinData_data_data (a b : Bytes) (ms : List Message) :
    joinData (.data a :: .data b :: ms) = joinData (.data (a ++ b) :: ms) := by
  simp only [joinData]
  cases h : joinData ms with
  | nil => rfl
  | cons m more => cases m <;> simp [List.append_assoc]

theorem joinData_data_of_cons {a b : Bytes} {ms more : List Message}
    (h : joinData ms = .data b :: more) : joinData (.data a :: ms) = .data (a ++ b) :: more := by
  simp only [joinData, h]

/-- What was put together before may be put together again. -/
theorem joinData_joinData_append (as bs : List Message) :
    joinData (joinData as ++ bs) = joinData (as ++ bs) := by
  induction as with
  | nil => rfl
  | cons m as ih =>
    cases m with
    | data a =>
      have same := joinData_append_congr ih [.data a]
      simp only [List.cons_append, List.nil_append] at same ⊢
      rw [← same]
      cases h : joinData as with
      | nil => simp [joinData, h]
      | cons n more =>
        cases n with
        | data b =>
          rw [joinData_data_of_cons h, List.cons_append, List.cons_append, joinData_data_data]
        | _ => simp only [joinData, h, List.cons_append]
    | _ => simp only [List.cons_append, joinData, ih]

theorem joinData_append_congr_left {as bs : List Message} (h : joinData as = joinData bs)
    (cs : List Message) : joinData (as ++ cs) = joinData (bs ++ cs) := by
  rw [← joinData_joinData_append, h, joinData_joinData_append]

end TermLink.Message
