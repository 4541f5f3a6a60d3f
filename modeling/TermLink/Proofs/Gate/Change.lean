import TermLink.Gate.Streaming
import TermLink.Proofs.Frame

/-!
# What an event does to a session

All that one event can do to a session that streams, with what was so before. No duty is taken up
again, and one that was told to end is not told otherwise.
-/

namespace TermLink.Gate.Streaming

variable {s next : Streaming} {e : Event}

@[simp] theorem runs_retire (s : Streaming) (d e : Duty) :
    (s.retire d).runs e = (s.runs e && decide (e ≠ d)) := by
  simp only [runs, retire, List.contains_eq_mem, List.mem_filter, decide_eq_true_eq]
  by_cases he : e = d <;> simp [he]

@[simp] theorem runs_stop (s : Streaming) (d e : Duty) :
    (s.stop d).runs e = (s.runs e && decide (e ≠ d)) := runs_retire s d e

theorem runs_of_retire {d e : Duty} (h : (s.retire d).runs e) : s.runs e := by
  rw [runs_retire, Bool.and_eq_true] at h
  exact h.1

theorem runs_of_stop {d e : Duty} (h : (s.stop d).runs e) : s.runs e := runs_of_retire h

/-- The reader goes by the message in a frame, or by the end of the connection. -/
theorem receive_eq (hr : s.runs .reader) (f : Frame) :
    s.receive f =
      match f.message? with
      | some m => s.act m
      | none => if f = .close then s.stop .reader else s := by
  cases f with
  | text payload | binary payload =>
    simp only [Streaming.receive, hr, if_true, Frame.message?, Frame.payload?, Option.bind_some]
    cases Message.decode? payload <;> rfl
  | signal | close => simp [Streaming.receive, hr, Frame.message?, Frame.payload?]

/-- A message that does not end the session is shown where it can be, and the reader ends where it
cannot. -/
theorem act_of_ne {m : Message} (hm : ∀ code, m ≠ .exit code) :
    (Gate.shown? m = none ∧ s.act m = s)
      ∨ (∃ bytes screen, Gate.shown? m = some bytes ∧ s.screen.write? bytes = some screen
        ∧ s.act m = { s with screen })
      ∨ ∃ bytes, Gate.shown? m = some bytes ∧ s.screen.write? bytes = none
        ∧ s.act m = s.stop .reader := by
  cases m with
  | exit code => exact absurd rfl (hm code)
  | _ =>
    simp only [act]
    split
    · exact .inl ⟨‹_›, rfl⟩
    · next bytes hb =>
      cases hw : s.screen.write? bytes with
      | some screen => exact .inr (.inl ⟨bytes, screen, hb, hw, rfl⟩)
      | none => exact .inr (.inr ⟨bytes, hb, hw, rfl⟩)

/-- Whether what the client does in an event is taken. -/
def takes (s : Streaming) : Event → Bool
  | .input _ => s.acceptsInput
  | .resize _ => s.acceptsWindow
  | .endInput | .leave => true
  | _ => false

/-- What an event can do to a session. -/
inductive Change (s : Streaming) : Event → Streaming → Prop
  | nothing {e : Event} (h : s.takes e = false) : Change s e s
  | typed {chunk : Bytes} (h : s.acceptsInput) :
    Change s (.input chunk) { s with line := { s.line with typed := s.line.typed ++ [chunk] } }
  | sized {size : Geometry} (h : s.acceptsWindow) :
    Change s (.resize size)
      { s with line := { s.line with windows := s.line.windows ++ [size] } }
  | inputEnded : Change s .endInput s.endInput
  | left : Change s .leave s.leave
  | inputPassed {chunk : Bytes} {rest : List Bytes} (hinput : s.runs .input)
    (hwriter : s.runs .writer) (htyped : s.line.typed = chunk :: rest) :
    Change s .forwardInput
      { s with line := { s.line with typed := rest }, outbound := s.outbound ++ [.data chunk] }
  | inputLost {chunk : Bytes} {rest : List Bytes} (hwriter : s.runs .writer = false)
    (htyped : s.line.typed = chunk :: rest) :
    Change s .forwardInput
      ({ s with line := { s.line with typed := rest } }.stop .input)
  | inputDone (htyped : s.line.typed = []) (htyping : s.line.typing = false) :
    Change s .forwardInput (s.retire .input)
  | windowPassed {size : Geometry} {rest : List Geometry} (hwindows : s.runs .windows)
    (hwriter : s.runs .writer) (hsizes : s.line.windows = size :: rest) :
    Change s .forwardWindow
      { s with line := { s.line with windows := rest }, outbound := s.outbound ++ [.resize size] }
  | windowLost {size : Geometry} {rest : List Geometry} (hwriter : s.runs .writer = false)
    (hsizes : s.line.windows = size :: rest) :
    Change s .forwardWindow
      ({ s with line := { s.line with windows := rest } }.stop .windows)
  | windowsDone (hsizes : s.line.windows = []) (hconnected : s.line.connected = false) :
    Change s .forwardWindow (s.stop .windows)
  | pinged {timestamp : Int64} (hwriter : s.runs .writer) :
    Change s (.ping timestamp) { s with outbound := s.outbound ++ [.ping timestamp] }
  | pingLost {timestamp : Int64} (hwriter : s.runs .writer = false) :
    Change s (.ping timestamp) (s.stop .pings)
  | wrote {m : Message} {rest : List Message} (hwriter : s.runs .writer)
    (houtbound : s.outbound = m :: rest) :
    Change s .write { s with outbound := rest, sent := s.sent ++ [m] }
  | writingDone (houtbound : s.outbound = []) (hfed : s.isFed = false) :
    Change s .write (s.stop .writer)
  | writeFailed : Change s .failWrite (s.stop .writer)
  | shown {f : Frame} {screen : Screen} : Change s (.receive f) { s with screen }
  | ended {f : Frame} {exitCode : Option Int32} :
    Change s (.receive f) { s.stop .reader with exitCode }
  | obeyed {d : Duty} (h : s.ending) : Change s (.obey d) (s.retire d)

theorem hand_of_runs (h : s.runs .writer) (d : Duty) (m : Message) :
    s.hand d m = { s with outbound := s.outbound ++ [m] } := if_pos h

theorem hand_of_not_runs (h : s.runs .writer = false) (d : Duty) (m : Message) :
    s.hand d m = s.stop d := if_neg (ne_true_of_eq_false h)

theorem change_receive (s : Streaming) (f : Frame) : s.Change (.receive f) (s.receive f) := by
  cases hr : s.runs .reader with
  | false =>
    have same : s.receive f = s := if_neg (ne_true_of_eq_false hr)
    rw [same]
    exact .nothing rfl
  | true =>
    rw [receive_eq hr]
    cases f.message? with
    | none =>
      dsimp only
      split
      · exact @Change.ended s f s.exitCode
      · exact .nothing rfl
    | some m =>
      by_cases hexit : ∃ code, m = .exit code
      · obtain ⟨code, rfl⟩ := hexit
        exact .ended
      · rcases act_of_ne (s := s) fun code h => hexit ⟨code, h⟩ with
          ⟨-, ha⟩ | ⟨bytes, screen, -, -, ha⟩ | ⟨bytes, -, -, ha⟩
        · dsimp only
          rw [ha]
          exact .nothing rfl
        · dsimp only
          rw [ha]
          exact .shown
        · dsimp only
          rw [ha]
          exact @Change.ended s f s.exitCode

theorem change_step (s : Streaming) (e : Event) : s.Change e (s.step e) := by
  cases e with
  | input chunk =>
    simp only [step, input]
    split
    · exact .typed ‹_›
    · exact .nothing (Bool.eq_false_iff.mpr ‹_›)
  | resize size =>
    simp only [step, resize]
    split
    · exact .sized ‹_›
    · exact .nothing (Bool.eq_false_iff.mpr ‹_›)
  | endInput => exact .inputEnded
  | leave => exact .left
  | forwardInput =>
    simp only [step, forwardInput]
    split
    · next hinput =>
      split
      · next chunk rest htyped =>
        split
        · exact .nothing rfl
        · let taken : Streaming := { s with line := { s.line with typed := rest } }
          cases hwriter : s.runs .writer with
          | true =>
            rw [hand_of_runs (s := taken) hwriter]
            exact .inputPassed hinput hwriter htyped
          | false =>
            rw [hand_of_not_runs (s := taken) hwriter]
            exact .inputLost hwriter htyped
      · next htyped =>
        split
        · exact .nothing rfl
        · exact .inputDone htyped (Bool.eq_false_iff.mpr ‹_›)
    · exact .nothing rfl
  | forwardWindow =>
    simp only [step, forwardWindow]
    split
    · next hwindows =>
      split
      · next size rest hsizes =>
        split
        · exact .nothing rfl
        · let taken : Streaming := { s with line := { s.line with windows := rest } }
          cases hwriter : s.runs .writer with
          | true =>
            rw [hand_of_runs (s := taken) hwriter]
            exact .windowPassed hwindows hwriter hsizes
          | false =>
            rw [hand_of_not_runs (s := taken) hwriter]
            exact .windowLost hwriter hsizes
      · next hsizes =>
        split
        · exact .nothing rfl
        · exact .windowsDone hsizes (Bool.eq_false_iff.mpr ‹_›)
    · exact .nothing rfl
  | ping timestamp =>
    simp only [step, ping]
    split
    · cases hwriter : s.runs .writer with
      | true =>
        rw [hand_of_runs hwriter]
        exact .pinged hwriter
      | false =>
        rw [hand_of_not_runs hwriter]
        exact .pingLost hwriter
    · exact .nothing rfl
  | write =>
    simp only [step, write]
    split
    · next hwriter =>
      split
      · exact .wrote hwriter ‹_›
      · split
        · exact .nothing rfl
        · exact .writingDone ‹_› (Bool.eq_false_iff.mpr ‹_›)
    · exact .nothing rfl
  | failWrite =>
    simp only [step, failWrite]
    split
    · exact .writeFailed
    · exact .nothing rfl
  | receive f => exact s.change_receive f
  | obey d =>
    simp only [step, obey]
    split
    · exact .obeyed ‹_›
    · exact .nothing rfl

/-- A duty that was told to end is not told otherwise. -/
theorem Change.told (c : s.Change e next) (h : s.ending) : next.ending := by
  cases c <;> first | exact h | rfl

theorem ending_run (h : s.ending) (events : List Event) : (s.run events).ending := by
  induction events generalizing s with
  | nil => exact h
  | cons e rest ih => exact ih ((s.change_step e).told h)

/-- No duty is taken up again. -/
theorem Change.runs (c : s.Change e next) (d : Duty) (h : next.runs d) : s.runs d := by
  cases c with
  | inputDone => exact runs_of_retire h
  | obeyed => exact runs_of_retire h
  | inputLost => exact runs_of_stop h
  | windowLost => exact runs_of_stop h
  | ended => exact runs_of_stop (d := .reader) h
  | windowsDone | pingLost | writingDone | writeFailed => exact runs_of_stop h
  | _ => exact h

theorem Change.connected (c : s.Change e next) (h : s.line.connected) (he : e ≠ .leave) :
    next.line.connected := by
  cases c with
  | left => exact absurd rfl he
  | _ => exact h

/-- What was sent stays sent, and only a writer that has not ended sends more. -/
theorem Change.sent (c : s.Change e next) :
    ∃ more, next.sent = s.sent ++ more ∧ (s.runs .writer ∨ more = []) := by
  cases c with
  | wrote hwriter => exact ⟨_, rfl, .inl hwriter⟩
  | _ => exact ⟨[], (List.append_nil _).symm, .inr rfl⟩

end TermLink.Gate.Streaming
