import TermLink.Terminal
import TermLink.Proofs.Subscribers

/-!
# What a terminal does to its audience

The first exit is the one that is recorded, and while there is none, output is served to every
member.
-/

namespace TermLink.Terminal

variable (t : Terminal) (room : Mailroom) (chunk : Bytes) (code : Int32)

@[simp] theorem exitCode_broadcast (m : Message) : (t.broadcast room m).1.exitCode = t.exitCode :=
  rfl

@[simp] theorem exitCode_publish : (t.publish room chunk).1.exitCode = t.exitCode := by
  simp only [publish, deliver]
  split <;> rfl

@[simp] theorem running_publish : (t.publish room chunk).1.running = t.running := by
  simp only [publish, deliver]
  split <;> rfl

@[simp] theorem pty_publish : (t.publish room chunk).1.pty = t.pty := by
  simp only [publish, deliver]
  split <;> rfl

@[simp] theorem pty_recordExit : (t.recordExit room code).1.pty = t.pty := by
  simp only [recordExit]
  split <;> rfl

@[simp] theorem backlog_recordExit : (t.recordExit room code).1.backlog = t.backlog := by
  simp only [recordExit]
  split <;> rfl

@[simp] theorem backlog_deliver : (t.deliver room chunk).1.backlog = t.backlog := by
  simp only [deliver]
  split <;> rfl

@[simp] theorem exitCode_deliver : (t.deliver room chunk).1.exitCode = t.exitCode := by
  simp only [deliver]
  split <;> rfl

theorem exitCode_recordExit : (t.recordExit room code).1.exitCode = t.exitCode.or (some code) := by
  simp only [recordExit]
  cases h : t.exitCode <;> simp [h]

theorem running_recordExit (h : t.running = t.exitCode.isNone) :
    (t.recordExit room code).1.running = (t.recordExit room code).1.exitCode.isNone := by
  simp only [recordExit]
  cases hc : t.exitCode with
  | none => rfl
  | some c => simpa [hc] using h

variable {t}

/-- After the exit, output is only kept. -/
theorem publish_of_exit {c : Int32} (h : t.exitCode = some c) :
    t.publish room chunk = (t.store chunk, room) := by
  simp [publish, deliver, store, h]

theorem recordExit_of_exit {c : Int32} (h : t.exitCode = some c) :
    t.recordExit room code = (t, room) := by
  simp [recordExit, h]

variable (hs : t.subscribers.Sound) (ha : t.subscribers.Apart) (h : t.exitCode = none)
include hs ha h

theorem served_publish :
    t.subscribers.Served room (.data chunk) (t.publish room chunk).1.subscribers
      (t.publish room chunk).2 := by
  have running : (t.store chunk).exitCode.isSome = false := by simp [store, h]
  simp only [publish, deliver, running]
  exact hs.broadcast ha room (.data chunk)

theorem served_recordExit :
    t.subscribers.Served room (.exit code) (t.recordExit room code).1.subscribers
      (t.recordExit room code).2 := by
  have running : t.exitCode.isSome = false := by simp [h]
  simp only [recordExit, running]
  exact hs.broadcast ha room (.exit code)

end TermLink.Terminal
