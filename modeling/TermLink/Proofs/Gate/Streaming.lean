import TermLink.Proofs.Gate.Change
import TermLink.Proofs.Message.Output

/-!
# What a streaming session passes on

The bytes that a session has handed to the writer are a beginning of what its client typed, and a
writer that has ended sends nothing more.

## Implementation notes

The input duty loses a chunk only in the step in which it ends, so while it runs nothing is
missing in the middle.
-/

namespace TermLink.Gate.Streaming

/-- What was handed to the writer so far. -/
def handed (s : Streaming) : List Message := s.sent ++ s.outbound

/-- A session that was begun with `first`, and whose client has typed `typed` so far. -/
structure Feeds (s : Streaming) (first : Message) (typed : Bytes) : Prop where
  begun : ∃ rest, s.sent = first :: rest
  kinds (m : Message) : m ∈ s.handed.tail → m.kind ≠ .init
  passed : Message.payloads s.handed <+: typed
  line : s.runs .input → Message.payloads s.handed ++ s.line.typed.flatten <+: typed
  all : s.runs .input → s.line.typing →
    Message.payloads s.handed ++ s.line.typed.flatten = typed

variable {s next : Streaming} {first : Message} {typed : Bytes}

/-- A step that hands nothing over and takes nothing from the client. -/
theorem Feeds.calm (H : s.Feeds first typed) (hsent : next.sent = s.sent)
    (hhanded : next.handed = s.handed) (htyped : next.line.typed = s.line.typed)
    (htyping : next.line.typing → s.line.typing)
    (hruns : next.runs .input → s.runs .input) : next.Feeds first typed where
  begun := hsent ▸ H.begun
  kinds := hhanded ▸ H.kinds
  passed := hhanded ▸ H.passed
  line h := by
    rw [hhanded, htyped]
    exact H.line (hruns h)
  all h ht := by
    rw [hhanded, htyped]
    exact H.all (hruns h) (htyping ht)

theorem Feeds.input (H : s.Feeds first typed) (chunk : Bytes) :
    (s.input chunk).Feeds first (typed ++ chunk) := by
  have grow := List.prefix_append typed chunk
  by_cases h : s.acceptsInput
  · rw [Streaming.input, if_pos h]
    simp only [acceptsInput, Bool.and_eq_true] at h
    have all := H.all h.2 h.1
    have more : Message.payloads s.handed ++ (s.line.typed ++ [chunk]).flatten =
        typed ++ chunk := by
      simp [← all]
    refine ⟨H.begun, H.kinds, H.passed.trans grow, ?_, ?_⟩
    · intro _
      exact more ▸ List.prefix_refl _
    · intro _ _
      exact more
  · rw [Streaming.input, if_neg h]
    refine ⟨H.begun, H.kinds, H.passed.trans grow, ?_, ?_⟩
    · intro hr
      exact (H.line hr).trans grow
    · intro hr ht
      exact absurd (by simp [acceptsInput, hr, ht]) h

/-- A message that is handed over is none that asks for a terminal. -/
theorem Feeds.kinds_put (H : s.Feeds first typed) {m : Message} (hkind : m.kind ≠ .init)
    (line : ClientLine) (n : Message)
    (hn : n ∈ (handed { s with line, outbound := s.outbound ++ [m] }).tail) : n.kind ≠ .init := by
  obtain ⟨rest, hsent⟩ := H.begun
  have mem : n ∈ s.handed.tail ∨ n = m := by
    simpa [handed, hsent, or_assoc] using hn
  rcases mem with hn | rfl
  · exact H.kinds n hn
  · exact hkind

/-- Handing over a message that types nothing. -/
theorem Feeds.put (H : s.Feeds first typed) (line : ClientLine)
    (htyped : line.typed = s.line.typed) (htyping : line.typing = s.line.typing) (m : Message)
    (hpayload : m.payload = []) (hkind : m.kind ≠ .init) :
    Feeds { s with line, outbound := s.outbound ++ [m] } first typed := by
  have payloads : Message.payloads (s.sent ++ (s.outbound ++ [m])) =
      Message.payloads s.handed := by
    simp [handed, hpayload]
  refine ⟨H.begun, H.kinds_put hkind line, payloads ▸ H.passed, ?_, ?_⟩
  · intro hr
    exact payloads ▸ htyped ▸ H.line hr
  · intro hr ht
    exact payloads ▸ htyped ▸ H.all hr (htyping ▸ ht)

/-- Handing over the oldest chunk. -/
theorem Feeds.pass (H : s.Feeds first typed) (hinput : s.runs .input) {chunk : Bytes}
    {rest : List Bytes} (htyped : s.line.typed = chunk :: rest) :
    Feeds { s with line := { s.line with typed := rest },
                   outbound := s.outbound ++ [.data chunk] } first typed := by
  have line := H.line hinput
  have all := H.all hinput
  rw [htyped, List.flatten_cons, ← List.append_assoc] at line all
  have payloads : Message.payloads (s.sent ++ (s.outbound ++ [.data chunk])) =
      Message.payloads s.handed ++ chunk := by
    simp [handed, Message.payload]
  refine ⟨H.begun, H.kinds_put (by simp [Message.kind]) _, ?_, ?_, ?_⟩
  · exact payloads ▸ (List.prefix_append _ _).trans line
  · intro _
    exact payloads ▸ line
  · intro _ ht
    exact payloads ▸ all ht

/-- The bytes handed over stay a beginning of what was typed. -/
theorem Feeds.change (H : s.Feeds first typed) {e : Event} (c : s.Change e next)
    (he : ∀ chunk, e ≠ .input chunk) : next.Feeds first typed := by
  cases c with
  | typed => exact absurd rfl (he _)
  | inputPassed hinput _ htyped => exact H.pass hinput htyped
  | inputLost =>
    refine ⟨H.begun, H.kinds, H.passed, ?_, ?_⟩
    · intro hr
      simp at hr
    · intro hr
      simp at hr
  | @windowPassed size rest =>
    exact H.put { s.line with windows := rest } rfl rfl (.resize size) rfl (by simp [Message.kind])
  | @pinged timestamp =>
    exact H.put s.line rfl rfl (.ping timestamp) rfl (by simp [Message.kind])
  | @wrote m rest _ houtbound =>
    obtain ⟨more, hsent⟩ := H.begun
    have same : handed { s with outbound := rest, sent := s.sent ++ [m] } = s.handed := by
      simp [handed, houtbound]
    refine ⟨⟨more ++ [m], by simp [hsent]⟩, same ▸ H.kinds, same ▸ H.passed, ?_, ?_⟩
    · intro hr
      exact same ▸ H.line hr
    · intro hr ht
      exact same ▸ H.all hr ht
  | inputEnded | left => exact H.calm rfl rfl rfl (fun h => by cases h) id
  | nothing | sized | shown => exact H.calm rfl rfl rfl id id
  | inputDone | obeyed => exact H.calm rfl rfl rfl id runs_of_retire
  | windowLost | windowsDone | pingLost | writingDone | writeFailed =>
    exact H.calm rfl rfl rfl id runs_of_stop
  | ended => exact H.calm rfl rfl rfl id (runs_of_stop (d := .reader))

theorem Feeds.step (H : s.Feeds first typed) {e : Event} (he : ∀ chunk, e ≠ .input chunk) :
    (s.step e).Feeds first typed := H.change (s.change_step e) he

/-- What was sent stays sent, and a writer that has ended sends nothing more. -/
def Sends (s next : Streaming) : Prop :=
  ∃ more, next.sent = s.sent ++ more
    ∧ (s.runs .writer = true ∨ more = [] ∧ next.runs .writer = false)

/-- A step of any duty but the reader: no duty is taken up again, and only a writer that goes on
sends. -/
structure Beside (s next : Streaming) : Prop where
  screen : next.screen = s.screen
  exitCode : next.exitCode = s.exitCode
  runs (d : Duty) : next.runs d → s.runs d
  sent : ∃ more, next.sent = s.sent ++ more ∧ (s.runs .writer ∨ more = [])

theorem Change.beside {e : Event} (c : s.Change e next) (he : ∀ f, e ≠ .receive f) :
    s.Beside next := by
  have same : next.screen = s.screen ∧ next.exitCode = s.exitCode := by
    cases c with
    | shown | ended => exact absurd rfl (he _)
    | _ => exact ⟨rfl, rfl⟩
  exact ⟨same.1, same.2, c.runs, c.sent⟩

theorem beside_step (s : Streaming) {e : Event} (he : ∀ f, e ≠ .receive f) :
    s.Beside (s.step e) := (s.change_step e).beside he

theorem sends_of_sent (hruns : next.runs .writer → s.runs .writer)
    (hsent : ∃ more, next.sent = s.sent ++ more ∧ (s.runs .writer ∨ more = [])) :
    s.Sends next := by
  obtain ⟨more, hsent, hmore⟩ := hsent
  cases hw : s.runs .writer with
  | true => exact ⟨more, hsent, .inl hw⟩
  | false =>
    rw [hw] at hruns hmore
    refine ⟨more, hsent, .inr ⟨hmore.resolve_left Bool.false_ne_true, ?_⟩⟩
    rw [Bool.eq_false_iff]
    intro hnext
    exact Bool.false_ne_true (hruns hnext)

theorem sends_step (s : Streaming) (e : Event) : s.Sends (s.step e) :=
  sends_of_sent ((s.change_step e).runs .writer) (s.change_step e).sent

/-- The message itself, if it can be put on the screen. -/
def display? (s : Streaming) (m : Message) : Option Message :=
  ((shown? m).bind s.screen.write?).map fun _ => m

/-- The message that a frame puts on the screen, if it puts one there. -/
def shows? (s : Streaming) (f : Frame) : Option Message :=
  if s.runs .reader then f.message?.bind s.display? else none

/-- A reader that has taken the messages `ms` and has put `shown` on the screen. -/
structure Reads (s : Streaming) (ms shown : List Message) : Prop where
  log : ∃ done rest, ms = done ++ rest ∧ shown = done.filter (fun m => (Gate.shown? m).isSome)
    ∧ (s.runs .reader → rest = [])
    ∧ ∀ code, s.exitCode = some code → ∃ more, rest = .exit code :: more
  exitCode : s.runs .reader → s.exitCode = none

theorem Reads.calm {ms shown : List Message} (H : s.Reads ms shown)
    (hexit : next.exitCode = s.exitCode) (hruns : next.runs .reader → s.runs .reader) :
    next.Reads ms shown := by
  obtain ⟨done, rest, hms, hshown, hopen, hcode⟩ := H.log
  constructor
  · exact ⟨done, rest, hms, hshown, fun h => hopen (hruns h), hexit ▸ hcode⟩
  · intro h
    exact hexit.trans (H.exitCode (hruns h))

theorem written_of_write? {screen last : Screen} {bytes : Bytes}
    (h : screen.write? bytes = some last) : last.written = screen.written ++ bytes := by
  simp only [Screen.write?] at h
  split at h <;> cases h <;> rfl

theorem Reads.stop {ms shown : List Message} (H : s.Reads ms shown) (hr : s.runs .reader)
    (more : List Message) : (s.stop .reader).Reads (ms ++ more) shown := by
  obtain ⟨done, rest, rfl, hshown, hopen, -⟩ := H.log
  constructor
  · refine ⟨done, rest ++ more, by simp, hshown, ?_, ?_⟩
    · intro h
      simp at h
    · intro code hcode
      have none := H.exitCode hr
      exact absurd (none.symm.trans hcode) (by simp)
  · intro h
    simp at h

/-- A reader that goes on has taken one more message, and has shown it where that was possible. -/
theorem Reads.take {ms shown : List Message} (H : s.Reads ms shown) (hr : s.runs .reader)
    (hexit : next.exitCode = s.exitCode) (m : Message) :
    next.Reads (ms ++ [m]) (shown ++ [m].filter fun m => (Gate.shown? m).isSome) := by
  obtain ⟨done, rest, hms, hshown, hopen, -⟩ := H.log
  obtain rfl := hopen hr
  have none : next.exitCode = none := hexit.trans (H.exitCode hr)
  constructor
  · refine ⟨done ++ [m], [], by simp [hms], by simp [hshown], fun _ => rfl, ?_⟩
    intro code hcode
    exact absurd (none.symm.trans hcode) (by simp)
  · intro _
    exact none

/-- What one more message does to the screen and to what the reader has taken. -/
theorem Reads.act {ms shown : List Message} (H : s.Reads ms shown) (hr : s.runs .reader)
    (m : Message) :
    (s.act m).Reads (ms ++ [m]) (shown ++ (s.display? m).toList)
      ∧ (s.act m).screen.written =
        s.screen.written ++ (s.display? m).toList.flatMap fun m => (Gate.shown? m).getD [] := by
  by_cases hm : ∃ code, m = .exit code
  · obtain ⟨code, rfl⟩ := hm
    obtain ⟨done, rest, hms, hshown, hopen, -⟩ := H.log
    obtain rfl := hopen hr
    refine ⟨⟨⟨done, [.exit code], by simp [hms], ?_, ?_, ?_⟩, ?_⟩, ?_⟩
    · simp [display?, Gate.shown?, hshown]
    · intro h
      simp [Streaming.act, runs, Streaming.stop, Streaming.retire] at h
    · intro c hc
      obtain rfl := Option.some.inj hc
      exact ⟨[], rfl⟩
    · intro h
      simp [Streaming.act, runs, Streaming.stop, Streaming.retire] at h
    · simp [display?, Gate.shown?, Streaming.act, Streaming.stop, Streaming.retire]
  · have hm : ∀ code, m ≠ .exit code := fun code h => hm ⟨code, h⟩
    rcases act_of_ne hm with ⟨hs, ha⟩ | ⟨bytes, screen, hs, hw, ha⟩ | ⟨bytes, hs, hw, ha⟩
    · rw [ha]
      have silent : s.display? m = none := by simp [display?, hs]
      have taken := H.take hr rfl m
      rw [List.filter_singleton, hs] at taken
      rw [silent]
      exact ⟨taken, by simp⟩
    · rw [ha]
      have displayed : s.display? m = some m := by simp [display?, hs, hw]
      have same : ({ s with screen } : Streaming).exitCode = s.exitCode := rfl
      have taken := H.take hr same m
      rw [List.filter_singleton, hs] at taken
      rw [displayed]
      exact ⟨taken, by simp [hs, written_of_write? hw]⟩
    · rw [ha]
      have silent : s.display? m = none := by simp [display?, hs, hw]
      have stopped := H.stop hr [m]
      rw [silent]
      exact ⟨by simpa using stopped, by simp [Streaming.stop, Streaming.retire]⟩

/-- What one more frame does to the screen and to what the reader has taken. -/
theorem Reads.receive {ms shown : List Message} (H : s.Reads ms shown) (f : Frame) :
    (s.receive f).Reads (ms ++ f.message?.toList) (shown ++ (s.shows? f).toList)
      ∧ (s.receive f).screen.written =
        s.screen.written ++ (s.shows? f).toList.flatMap fun m => (Gate.shown? m).getD [] := by
  cases hr : s.runs .reader with
  | false =>
    obtain ⟨done, rest, rfl, hshown, hopen, hcode⟩ := H.log
    have same : s.receive f = s := by simp [Streaming.receive, hr]
    have silent : s.shows? f = none := by simp [shows?, hr]
    rw [same, silent]
    refine ⟨⟨⟨done, rest ++ f.message?.toList, by simp, by simp [hshown], ?_, ?_⟩, ?_⟩, by simp⟩
    · simp [hr]
    · intro code hc
      obtain ⟨more, rfl⟩ := hcode code hc
      exact ⟨_, rfl⟩
    · simp [hr]
  | true =>
    rw [receive_eq hr]
    cases hf : f.message? with
    | some m => simpa [shows?, hr, hf] using H.act hr m
    | none =>
      simp only [shows?, hr, hf]
      split
      · exact ⟨by simpa using H.stop hr [], by simp [Streaming.stop, Streaming.retire]⟩
      · exact ⟨by simpa using H, by simp⟩

end TermLink.Gate.Streaming
