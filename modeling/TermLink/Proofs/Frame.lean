import TermLink.Edge.Pipe
import TermLink.Proofs.Message.Wire
import Mathlib.Data.List.Basic

/-!
# The messages in frames

What the frames on a connection hold, and how a log of them grows while its sender goes on.
-/

namespace TermLink.Frame

/-- The message that a frame holds. -/
def message? (f : Frame) : Option Message := f.payload?.bind Message.decode?

/-- The messages that frames hold. -/
def messages (fs : List Frame) : List Message := fs.filterMap message?

@[simp] theorem message?_frameOf (m : Message) : (Edge.Pipe.frameOf m).message? = some m :=
  Message.decode?_encode m

@[simp] theorem messages_append (as bs : List Frame) :
    messages (as ++ bs) = messages as ++ messages bs := List.filterMap_append

@[simp] theorem messages_map_frameOf (ms : List Message) :
    messages (ms.map Edge.Pipe.frameOf) = ms := by
  induction ms with
  | nil => rfl
  | cons m ms ih =>
    simp only [messages, List.map_cons, List.filterMap_cons, message?_frameOf] at ih ⊢
    rw [ih]

theorem messages_singleton (f : Frame) : messages [f] = f.message?.toList := by
  cases h : f.message? <;> simp [messages, h]

@[simp] theorem messages_close : messages [close] = [] := rfl

theorem messages_prefix {as bs : List Frame} (h : as <+: bs) : messages as <+: messages bs := by
  obtain ⟨rest, rfl⟩ := h
  simp

theorem messages_take_succ {fs : List Frame} {n : Nat} {f : Frame} (h : fs[n]? = some f) :
    messages (fs.take (n + 1)) = messages (fs.take n) ++ f.message?.toList := by
  rw [List.take_add_one, h, messages_append]
  exact congrArg _ (messages_singleton f)

/-- The frames on a connection over which messages were sent, and whose sender may have ended. -/
def ofSender (sent : List Message) (ended : Bool) : List Frame :=
  sent.map Edge.Pipe.frameOf ++ if ended then [close] else []

@[simp] theorem messages_ofSender (sent : List Message) (ended : Bool) :
    messages (ofSender sent ended) = sent := by
  cases ended <;> simp [ofSender]

/-- A sender that goes on can send more and can end. -/
theorem ofSender_prefix {sent more : List Message} {going still : Bool}
    (h : going = true ∨ more = [] ∧ still = false) :
    ofSender sent (!going) <+: ofSender (sent ++ more) (!still) := by
  rcases h with rfl | ⟨rfl, rfl⟩
  · simp [ofSender]
  · cases going <;> simp [ofSender]

end TermLink.Frame
