import TermLink.Frame
import TermLink.Message.Lines

/-!
# Frames that are no messages

What it is for a frame or a line to hold no message, and for a sequence to be another one with such
frames or lines put in.
-/

namespace TermLink

/-- Whether bytes are no message. -/
def Message.malformed (bytes : Bytes) : Bool := !(decode bytes).isOk

/-- Whether a frame carries bytes that are no message. -/
def Frame.malformed (f : Frame) : Bool := f.payload?.any Message.malformed

namespace Message

theorem malformed_of_error {bytes : Bytes} {e : FrameError} (he : decode bytes = .error e) :
    malformed bytes := by
  simp [malformed, he, Except.isOk, Except.toBool]

theorem malformed_of_ok {bytes : Bytes} {m : Message} (hm : decode bytes = .ok m) :
    malformed bytes = false := by
  simp [malformed, hm, Except.isOk, Except.toBool]

theorem exists_error {bytes : Bytes} (hb : malformed bytes) : ∃ e, decode bytes = .error e := by
  cases hm : decode bytes with
  | error e => exact ⟨e, rfl⟩
  | ok m =>
    rw [malformed_of_ok hm] at hb
    cases hb

theorem decode?_of_malformed {bytes : Bytes} (hb : malformed bytes) : decode? bytes = none := by
  obtain ⟨e, he⟩ := exists_error hb
  rw [decode?, he]
  rfl

end Message

/-- The second list is the first with elements put in that satisfy `p`, anywhere and any number of
them. -/
inductive Scattered {α : Type} (p : α → Bool) : List α → List α → Prop
  | nil : Scattered p [] []
  | keep (x : α) {xs ys : List α} (rest : Scattered p xs ys) : Scattered p (x :: xs) (x :: ys)
  | insert {y : α} {xs ys : List α} (hy : p y) (rest : Scattered p xs ys) : Scattered p xs (y :: ys)

namespace Scattered

variable {α β : Type} {p : α → Bool} {xs ys : List α}

theorem refl (xs : List α) : Scattered p xs xs := by
  induction xs with
  | nil => exact .nil
  | cons x xs ih => exact .keep x ih

/-- What is put in does not matter where it is not selected. -/
theorem filterMap_eq (H : Scattered p xs ys) {f : α → Option β} (hf : ∀ y, p y → f y = none) :
    ys.filterMap f = xs.filterMap f := by
  induction H with
  | nil => rfl
  | keep x rest ih => rw [List.filterMap_cons, List.filterMap_cons, ih]
  | insert hy rest ih => rw [List.filterMap_cons, hf _ hy, ih]

/-- Two runs stay related if every step keeps them related, and so does every step of the second
alone by an element that is put in. -/
theorem foldl_rel (H : Scattered p xs ys) {R : β → β → Prop} {step : β → α → β}
    (hkeep : ∀ {b c : β} (x : α), R b c → R (step b x) (step c x))
    (hinsert : ∀ {b c : β} {y : α}, p y → R b c → R b (step c y)) {b c : β} (hR : R b c) :
    R (xs.foldl step b) (ys.foldl step c) := by
  induction H generalizing b c with
  | nil => exact hR
  | keep x rest ih => exact ih (hkeep x hR)
  | insert hy rest ih => exact ih (hinsert hy hR)

/-- Two runs are the same if a step by an element that is put in does nothing. -/
theorem foldl_eq (H : Scattered p xs ys) {step : β → α → β} (hstep : ∀ b y, p y → step b y = b)
    (b : β) : ys.foldl step b = xs.foldl step b := by
  have same : xs.foldl step b = ys.foldl step b := by
    apply H.foldl_rel
    · rintro b _ x rfl
      rfl
    · rintro b _ y hy rfl
      exact (hstep b y hy).symm
    · rfl
  exact same.symm

end Scattered
end TermLink
