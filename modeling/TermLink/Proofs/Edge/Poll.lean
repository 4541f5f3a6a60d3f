import TermLink.Edge.Poll
import TermLink.Proofs.Deed

/-!
# A session that polls and settles

What a session that polls does with a frame and with output that it has fetched, once its writer
has sent all that waits and every duty has ended that must.
-/

namespace TermLink.Edge.Poll

/-- A session whose three duties go on, and in which nothing waits. -/
structure Going (p : Poll) : Prop where
  listening : p.listening = true
  fetching : p.fetching = true
  writing : p.writing = true
  ending : p.ending = false
  queue : p.queue = []

/-- A session whose three duties have ended. -/
structure Over (p : Poll) : Prop where
  listening : p.listening = false
  fetching : p.fetching = false
  writing : p.writing = false

variable {σ : Type} {p : Poll} (ask : Exchange σ) (h : σ)

theorem Over.receive (H : p.Over) (f : Frame) : p.receive ask h f = (h, p) := by
  simp [Poll.receive, H.listening]

theorem Over.fetch (H : p.Over) : p.fetch ask h = (h, p) := by
  simp [Poll.fetch, wantsOutput, H.fetching]

theorem Over.settle (H : p.Over) : p.settle = p := by
  have silent (n : Nat) : p.sendMany n = p := by
    induction n with
    | zero => rfl
    | succ n ih =>
      have idle : p.sendNext = p := by simp [sendNext, H.writing]
      rw [sendMany, idle, ih]
  simp [Poll.settle, silent, stopListening, stopFetching, stopWriting, H.listening, H.fetching,
    H.writing]

/-- The writer sends what waits first, unless it is an `exit`. -/
theorem sendMany_append {ms rest : List Message} (hw : p.writing = true)
    (hq : p.queue = ms ++ rest) (hms : ∀ code, Message.exit code ∉ ms) (n : Nat) :
    p.sendMany (ms.length + n) = { p with queue := rest, sent := p.sent ++ ms }.sendMany n := by
  induction ms generalizing p with
  | nil =>
    rw [List.nil_append] at hq
    simp [← hq]
  | cons m ms ih =>
    have sent : p.sendNext = { p with queue := ms ++ rest, sent := p.sent ++ [m] } := by
      rw [List.cons_append] at hq
      simp only [sendNext, hw, if_true, hq]
      cases m with
      | exit code => exact absurd (by simp) (hms code)
      | _ => rfl
    have later : ∀ code, Message.exit code ∉ ms := by
      intro code hmem
      exact hms code (List.mem_cons_of_mem _ hmem)
    have rest := ih (p := { p with queue := ms ++ rest, sent := p.sent ++ [m] }) hw rfl later
    rw [List.length_cons, Nat.add_right_comm, sendMany, sent, rest]
    simp

/-- A session that goes on sends all that waits, unless it is an `exit`. -/
theorem settle_of_queue {ms : List Message} (hms : ∀ code, Message.exit code ∉ ms)
    (hl : p.listening = true) (hw : p.writing = true) (he : p.ending = false)
    (hq : p.queue = ms) : p.settle = { p with queue := [], sent := p.sent ++ ms } := by
  have length : p.queue.length + 1 = ms.length + 1 := by rw [hq]
  have all : p.queue = ms ++ [] := by rw [hq, List.append_nil]
  rw [Poll.settle, length, sendMany_append hw all hms]
  simp [sendMany, sendNext, stopListening, stopFetching, stopWriting, hl, he]

theorem Going.settle (H : p.Going) : p.settle = p := by
  have queue := H.queue
  rw [settle_of_queue (by simp) H.listening H.writing H.ending queue, List.append_nil]
  simp [← queue]

/-- A session that has fetched an `exit` sends it last, and ends. -/
theorem settle_exit {ms : List Message} {code : Int32} (hms : ∀ code, Message.exit code ∉ ms)
    (hl : p.listening = true) (hf : p.fetching = false) (hw : p.writing = true)
    (hq : p.queue = ms ++ [Message.exit code]) :
    p.settle.Over ∧ p.settle.sent = p.sent ++ ms ++ [Message.exit code] := by
  have length : p.queue.length + 1 = ms.length + 2 := by simp [hq]
  have settled : p.settle =
      { p with
        listening := false, writing := false, ending := true, queue := []
        sent := p.sent ++ ms ++ [.exit code] } := by
    rw [Poll.settle, length, sendMany_append hw hq hms]
    simp [sendMany, sendNext, hw, endWriting, stopListening, stopFetching, stopWriting,
      endListening, hl, hf]
  rw [settled]
  constructor
  · exact ⟨rfl, hf, rfl⟩
  · rfl

/-- What a session that goes on does with a frame. -/
theorem Going.receive (H : p.Going) (f : Frame) :
    p.receive ask h f =
      match f.deed with
      | .nothing => (h, p)
      | .input i => p.submit ask h i.message
      | .answer timestamp =>
        (h, { p with queue := [.pong timestamp], due := p.due || p.drainOnPing })
      | .leave => (h, p.endListening) := by
  obtain ⟨hlistening, hfetching, hwriting, hending, hqueue⟩ := H
  cases f with
  | text payload | binary payload =>
    simp only [Poll.receive, hlistening, if_true, Frame.deed]
    cases hd : Message.decode? payload with
    | none => rfl
    | some m =>
      cases m with
      | ping timestamp => simp [act, hwriting, hlistening, say, hqueue, Message.deed]
      | _ => rfl
  | signal | close => simp [Poll.receive, hlistening, Frame.deed]

/-- A session that is left ends. -/
theorem Going.settle_left (H : p.Going) :
    p.endListening.settle.Over ∧ p.endListening.settle.sent = p.sent := by
  obtain ⟨hlistening, hfetching, hwriting, hending, hqueue⟩ := H
  have settled : p.endListening.settle =
      { p with listening := false, fetching := false, writing := false, ending := true } := by
    simp [Poll.settle, endListening, hqueue, sendMany, sendNext, stopListening, stopFetching,
      stopWriting, endFetching, endWriting, hfetching, hwriting]
  rw [settled]
  constructor
  · exact ⟨rfl, rfl, rfl⟩
  · rfl

/-- What is fetched waits for the writer, unless it is an `exit`. -/
theorem forward_append {ms : List Message} (hms : ∀ code, Message.exit code ∉ ms)
    (hw : p.writing = true) (rest : List Message) :
    p.forward (ms ++ rest) = { p with queue := p.queue ++ ms }.forward rest := by
  induction ms generalizing p with
  | nil => simp
  | cons m ms ih =>
    have said : p.say m = { p with queue := p.queue ++ [m] } := by simp [say, hw]
    have later : ∀ code, Message.exit code ∉ ms := by
      intro code hmem
      exact hms code (List.mem_cons_of_mem _ hmem)
    have tail := ih (p := { p with queue := p.queue ++ [m] }) later hw
    cases m with
    | exit code => exact absurd (by simp) (hms code)
    | _ => simpa [forward, hw, said] using tail

theorem forward_eq {ms : List Message} (hms : ∀ code, Message.exit code ∉ ms)
    (hw : p.writing = true) : p.forward ms = { p with queue := p.queue ++ ms } := by
  have all := forward_append hms hw []
  rw [List.append_nil] at all
  exact all

theorem forward_exit {ms : List Message} (code : Int32) (hms : ∀ code, Message.exit code ∉ ms)
    (hw : p.writing = true) :
    p.forward (ms ++ [.exit code]) =
      { p with queue := p.queue ++ ms ++ [.exit code], fetching := false } := by
  rw [forward_append hms hw]
  simp [forward, say, hw, endFetching]

/-- What is fetched is sent. -/
theorem Going.settle_forward (H : p.Going) {ms : List Message}
    (hms : ∀ code, Message.exit code ∉ ms) :
    (p.forward ms).settle = { p with sent := p.sent ++ ms } := by
  have queue := H.queue
  have settled := settle_of_queue (p := { p with queue := ms }) hms H.listening H.writing H.ending
    rfl
  rw [forward_eq hms H.writing, queue, List.nil_append, settled]

/-- An `exit` that is fetched is sent last, and ends the session. -/
theorem Going.settle_forward_exit (H : p.Going) {ms : List Message} (code : Int32)
    (hms : ∀ code, Message.exit code ∉ ms) :
    (p.forward (ms ++ [.exit code])).settle.Over
      ∧ (p.forward (ms ++ [.exit code])).settle.sent = p.sent ++ (ms ++ [.exit code]) := by
  rw [forward_exit code hms H.writing, H.queue, List.nil_append, ← List.append_assoc]
  exact settle_exit hms H.listening rfl H.writing rfl

end TermLink.Edge.Poll
