import TermLink.Proofs.Gate.Transcript

/-!
# The duties of a session

As long as no duty has told the others to end, each is there for whatever waits for it. So nothing
is left lying when all of them do what they can, and nothing is lost on the way.
-/

namespace TermLink.Gate.Streaming

variable {s next : Streaming} {e : Event}

/-- A session in which each duty is there for what may wait for it, as long as none has told the
others to end. -/
structure Manned (s : Streaming) : Prop where
  windows : s.ending = false → s.runs .windows
  writer : s.ending = false → s.runs .writer
  reader : s.ending = false → s.runs .reader
  input : s.ending = false → s.runs .input ∨ s.line.typed = [] ∧ s.line.typing = false

theorem Manned.of_told (h : next.ending) : next.Manned := by
  constructor <;> intro told <;> exact absurd h (ne_true_of_eq_false told)

theorem Manned.change (H : s.Manned) (c : s.Change e next) : next.Manned := by
  cases c with
  | nothing => exact H
  | typed h =>
    rw [acceptsInput, Bool.and_eq_true] at h
    exact ⟨H.windows, H.writer, H.reader, fun _ => .inl h.2⟩
  | inputEnded | left =>
    exact ⟨H.windows, H.writer, H.reader, fun h => (H.input h).imp_right fun done => ⟨done.1, rfl⟩⟩
  | inputPassed hinput => exact ⟨H.windows, H.writer, H.reader, fun _ => .inl hinput⟩
  | inputDone htyped htyping =>
    have others {d : Duty} (hd : d ≠ .input) (h : s.runs d) : (s.retire .input).runs d := by
      simp [h, hd]
    exact ⟨fun h => others (by decide) (H.windows h), fun h => others (by decide) (H.writer h),
      fun h => others (by decide) (H.reader h), fun _ => .inr ⟨htyped, htyping⟩⟩
  | sized | windowPassed | pinged | wrote | shown => exact ⟨H.windows, H.writer, H.reader, H.input⟩
  | obeyed h => exact .of_told h
  | _ => exact .of_told rfl

/-- While the client is there, only a backend that cannot be written to, or a frame after which no
more are read, makes a duty tell the others to end. -/
theorem Manned.told_or (H : s.Manned) (c : s.Change e next) (h : s.ending = false)
    (hconnected : s.line.connected) :
    next.ending = false ∨ e = .failWrite ∨ (∃ f, e = .receive f) ∧ next.runs .reader = false := by
  have writes : s.runs .writer ≠ false := ne_false_of_eq_true (H.writer h)
  cases c with
  | inputLost hwriter | windowLost hwriter | pingLost hwriter => exact absurd hwriter writes
  | windowsDone _ hleft => exact absurd hconnected (ne_true_of_eq_false hleft)
  | writingDone _ hfed =>
    have fed : s.isFed := by simp [isFed, H.windows h]
    exact absurd fed (ne_true_of_eq_false hfed)
  | writeFailed => exact .inr (.inl rfl)
  | ended =>
    have stopped : (s.stop .reader).runs .reader = false := by simp
    exact .inr (.inr ⟨⟨_, rfl⟩, stopped⟩)
  | obeyed told => exact absurd told (ne_true_of_eq_false h)
  | _ => exact .inl h

theorem manned_ofDial (backend : Backend) (dial : Dial) (line : ClientLine) (screen : Screen) :
    (ofDial backend dial line screen).Manned := by
  have run {d : Duty} (hd : d ≠ .pings) : (ofDial backend dial line screen).runs d := by
    cases d <;> simp_all [Streaming.runs, ofDial]
  constructor
  · exact fun _ => run (by decide)
  · exact fun _ => run (by decide)
  · exact fun _ => run (by decide)
  · exact fun _ => .inl (run (by decide))

theorem Manned.run (H : s.Manned) (events : List Event) : (s.run events).Manned := by
  induction events generalizing s with
  | nil => exact H
  | cons e rest ih => exact ih (H.change (s.change_step e))

theorem runs_run {d : Duty} {events : List Event} (h : (s.run events).runs d) : s.runs d := by
  induction events generalizing s with
  | nil => exact h
  | cons e rest ih => exact (s.change_step e).runs d (ih h)

/-- A session goes on while the client is there, the backend can be written to and its frames are
read. -/
theorem Manned.unended (H : s.Manned) (h : s.ending = false) (hconnected : s.line.connected)
    {events : List Event} (hstays : .leave ∉ events) (hlink : .failWrite ∉ events)
    (hreads : (s.run events).runs .reader ∨ ∀ f, .receive f ∉ events) :
    (s.run events).ending = false := by
  induction events generalizing s with
  | nil => exact h
  | cons e rest ih =>
    obtain ⟨hleave, stays⟩ := not_or.mp (mt List.mem_cons.mpr hstays)
    obtain ⟨hfail, link⟩ := not_or.mp (mt List.mem_cons.mpr hlink)
    have change := s.change_step e
    refine ih (H.change change) ?_ (change.connected hconnected (Ne.symm hleave)) stays link
      (hreads.imp_right fun none f => mt (List.mem_cons_of_mem _) (none f))
    rcases H.told_or change h hconnected with next | failed | ⟨⟨f, rfl⟩, stopped⟩
    · exact next
    · exact absurd failed (Ne.symm hfail)
    · rcases hreads with reads | none
      · exact absurd (runs_run (s := s.step _) reads) (ne_true_of_eq_false stopped)
      · exact absurd List.mem_cons_self (none f)

/-- A session in which a duty is there for whatever waits. -/
structure Ready (s : Streaming) : Prop where
  typed : s.line.typed ≠ [] → s.runs .input ∧ s.runs .writer
  windows : s.line.windows ≠ [] → s.runs .windows ∧ s.runs .writer
  outbound : s.outbound ≠ [] → s.runs .writer

theorem Manned.ready (H : s.Manned) (h : s.ending = false) : s.Ready where
  typed some := ⟨(H.input h).resolve_right fun done => some done.1, H.writer h⟩
  windows _ := ⟨H.windows h, H.writer h⟩
  outbound _ := H.writer h

theorem waiting_eq_zero_iff :
    s.waiting = 0 ↔ s.line.typed = [] ∧ s.line.windows = [] ∧ s.outbound = [] := by
  simp only [waiting, Nat.add_eq_zero_iff, List.length_eq_zero_iff, and_assoc]

theorem ready_of_idle (h : s.waiting = 0) : s.Ready := by
  obtain ⟨typed, windows, outbound⟩ := waiting_eq_zero_iff.mp h
  exact ⟨absurd typed, absurd windows, absurd outbound⟩

/-- A turn leaves nothing without a duty. -/
theorem Ready.change (R : s.Ready) (c : s.Change e next) (he : e ∈ turnEvents) : next.Ready := by
  have others {d : Duty} (gone : Duty) (hd : d ≠ gone) (h : s.runs d) : (s.retire gone).runs d := by
    simp [h, hd]
  cases c with
  | nothing => exact R
  | inputPassed hinput hwriter => exact ⟨fun _ => ⟨hinput, hwriter⟩, R.windows, fun _ => hwriter⟩
  | inputLost hwriter htyped =>
    exact absurd (R.typed (by simp [htyped])).2 (ne_true_of_eq_false hwriter)
  | inputDone htyped =>
    refine ⟨absurd htyped, fun h => ?_, fun h => others .input (by decide) (R.outbound h)⟩
    exact ⟨others .input (by decide) (R.windows h).1, others .input (by decide) (R.windows h).2⟩
  | windowPassed hwindows hwriter =>
    exact ⟨R.typed, fun _ => ⟨hwindows, hwriter⟩, fun _ => hwriter⟩
  | windowLost hwriter hsizes =>
    exact absurd (R.windows (by simp [hsizes])).2 (ne_true_of_eq_false hwriter)
  | windowsDone hsizes =>
    refine ⟨fun h => ?_, absurd hsizes, fun h => others .windows (by decide) (R.outbound h)⟩
    exact ⟨others .windows (by decide) (R.typed h).1, others .windows (by decide) (R.typed h).2⟩
  | wrote hwriter => exact ⟨R.typed, R.windows, fun _ => hwriter⟩
  | writingDone houtbound hfed =>
    have fed {d : Duty} (hd : d = .input ∨ d = .windows) (h : s.runs d) : False := by
      rcases hd with rfl | rfl <;> simp [isFed, h] at hfed
    exact ⟨fun h => (fed (.inl rfl) (R.typed h).1).elim,
      fun h => (fed (.inr rfl) (R.windows h).1).elim, absurd houtbound⟩
  | _ => simp [turnEvents] at he

/-- Passing something to the writer does not change how much waits. -/
theorem Ready.waiting_forward (R : s.Ready) (c : s.Change e next)
    (he : e = .forwardInput ∨ e = .forwardWindow) : next.waiting = s.waiting := by
  cases c with
  | inputPassed _ _ htyped =>
    simp only [waiting, htyped, List.length_append, List.length_cons, List.length_nil]
    omega
  | inputLost hwriter htyped =>
    exact absurd (R.typed (by simp [htyped])).2 (ne_true_of_eq_false hwriter)
  | windowPassed _ _ hsizes =>
    simp only [waiting, hsizes, List.length_append, List.length_cons, List.length_nil]
    omega
  | windowLost hwriter hsizes =>
    exact absurd (R.windows (by simp [hsizes])).2 (ne_true_of_eq_false hwriter)
  | nothing | inputDone | windowsDone => rfl
  | _ => simp at he

theorem isFull_of_nil (h : s.outbound = []) : s.isFull = false := by
  simp [isFull, h, outboundDepth]

theorem hand_outbound_ne_nil (s : Streaming) (d : Duty) (m : Message) (h : s.runs .writer) :
    (s.hand d m).outbound ≠ [] := by
  rw [hand_of_runs h]
  simp

theorem forwardInput_of_nil (h : s.line.typed = []) :
    s.forwardInput.outbound = s.outbound ∧ s.forwardInput.line = s.line := by
  simp only [forwardInput, h]
  split
  · split <;> exact ⟨rfl, rfl⟩
  · exact ⟨rfl, rfl⟩

/-- Nothing waits for the writer after the input duty's step only if nothing was typed. -/
theorem Ready.of_forwardInput (R : s.Ready) (h : s.forwardInput.outbound = []) :
    s.outbound = [] ∧ s.line.typed = [] ∧ s.forwardInput.line = s.line := by
  cases htyped : s.line.typed with
  | nil =>
    obtain ⟨outbound, line⟩ := forwardInput_of_nil htyped
    exact ⟨outbound.symm.trans h, rfl, line⟩
  | cons chunk rest =>
    have runs := R.typed (by simp [htyped])
    simp only [forwardInput, if_pos runs.1, htyped] at h
    split at h
    · next full => exact absurd full (ne_true_of_eq_false (isFull_of_nil h))
    · exact absurd h (hand_outbound_ne_nil _ _ _ runs.2)

/-- Nothing waits for the writer after the window duty's step only if the window kept its size. -/
theorem Ready.of_forwardWindow (R : s.Ready) (h : s.forwardWindow.outbound = []) :
    s.outbound = [] ∧ s.line.windows = [] := by
  cases hsizes : s.line.windows with
  | nil =>
    have same : s.forwardWindow.outbound = s.outbound := by
      simp only [forwardWindow, hsizes]
      split
      · split <;> rfl
      · rfl
    exact ⟨same.symm.trans h, rfl⟩
  | cons size rest =>
    have runs := R.windows (by simp [hsizes])
    simp only [forwardWindow, if_pos runs.1, hsizes] at h
    split at h
    · next full => exact absurd full (ne_true_of_eq_false (isFull_of_nil h))
    · exact absurd h (hand_outbound_ne_nil _ _ _ runs.2)

/-- The writer takes one message off what waits. -/
theorem Ready.waiting_write (R : s.Ready) (h : s.outbound ≠ []) :
    s.write.waiting + 1 = s.waiting := by
  obtain ⟨m, rest, houtbound⟩ := List.exists_cons_of_ne_nil h
  simp only [write, if_pos (R.outbound h), houtbound, waiting, List.length_cons]
  omega

/-- In one turn a session sends a message, unless nothing waits. -/
theorem Ready.turn (R : s.Ready) : s.turn.Ready ∧ s.turn.waiting = s.waiting - 1 := by
  have first : s.forwardInput.Ready :=
    R.change (s.change_step .forwardInput) (by simp [turnEvents])
  have second : s.forwardInput.forwardWindow.Ready :=
    first.change (s.forwardInput.change_step .forwardWindow) (by simp [turnEvents])
  have third : s.turn.Ready :=
    second.change (s.forwardInput.forwardWindow.change_step .write) (by simp [turnEvents])
  have forwarded : s.forwardInput.forwardWindow.waiting = s.waiting := calc
    _ = s.forwardInput.waiting :=
      first.waiting_forward (s.forwardInput.change_step .forwardWindow) (.inr rfl)
    _ = s.waiting := R.waiting_forward (s.change_step .forwardInput) (.inl rfl)
  refine ⟨third, ?_⟩
  by_cases h : s.forwardInput.forwardWindow.outbound = []
  · obtain ⟨between, sizes⟩ := first.of_forwardWindow h
    obtain ⟨outbound, typed, line⟩ := R.of_forwardInput between
    have nothing : s.waiting = 0 := waiting_eq_zero_iff.mpr ⟨typed, line ▸ sizes, outbound⟩
    have still : s.turn.waiting = s.forwardInput.forwardWindow.waiting := by
      simp only [Streaming.turn, write, h]
      split
      · split <;> simp [waiting, stop, retire, h]
      · rfl
    rw [still, forwarded, nothing]
  · have sent : s.turn.waiting + 1 = s.waiting := (second.waiting_write h).trans forwarded
    omega

/-- Nothing waits after as many turns as there were things that waited. -/
theorem Ready.turns (R : s.Ready) (n : Nat) :
    (s.turns n).Ready ∧ (s.turns n).waiting = s.waiting - n := by
  induction n generalizing s with
  | zero => exact ⟨R, rfl⟩
  | succ n ih =>
    obtain ⟨ready, sent⟩ := R.turn
    obtain ⟨last, waiting⟩ := ih ready
    refine ⟨last, waiting.trans ?_⟩
    omega

/-- Whether an event is a step that a duty takes by itself. -/
def Event.isOwn : Event → Bool
  | .forwardInput | .forwardWindow | .write | .obey _ => true
  | _ => false

theorem isOwn_of_mem_turnEvents (h : e ∈ turnEvents) : e.isOwn := by
  simp only [turnEvents, List.mem_cons, List.not_mem_nil, or_false] at h
  rcases h with rfl | rfl | rfl <;> rfl

theorem isOwn_of_mem_ownEvents (h : e ∈ s.ownEvents) : e.isOwn := by
  rcases mem_ownEvents h with turn | ⟨d, rfl⟩
  · exact isOwn_of_mem_turnEvents turn
  · rfl

theorem turns_succ (s : Streaming) (n : Nat) : s.turns (n + 1) = (s.turns n).turn := by
  induction n generalizing s with
  | zero => rfl
  | succ n ih => exact ih s.turn

/-- Obeying changes nothing but the duties. -/
theorem foldl_obey (s : Streaming) (ds : List Duty) :
    ds.foldl obey s = { s with duties := (ds.foldl obey s).duties } := by
  induction ds generalizing s with
  | nil => rfl
  | cons d ds ih =>
    have first : s.obey d = { s with duties := (s.obey d).duties } := by
      rw [obey]
      split <;> rfl
    calc
      ds.foldl obey (s.obey d) = { s.obey d with duties := (ds.foldl obey (s.obey d)).duties } :=
        ih _
      _ = { s with duties := (ds.foldl obey (s.obey d)).duties } := by rw [first]

theorem settle_eq (s : Streaming) :
    s.settle = { s.turns (s.waiting + 1) with duties := s.settle.duties } := foldl_obey _ _

/-- A session whose duties have done all they can. -/
structure Rests (s : Streaming) : Prop where
  manned : s.Manned
  waiting : s.waiting = 0
  ended : s.ending → s.isOver

theorem Manned.rests (H : s.Manned) (R : s.Ready) : s.settle.Rests where
  manned := by
    rw [settle_eq_ownEvents]
    exact H.run _
  waiting := calc
    s.settle.waiting = (s.turns (s.waiting + 1)).waiting := by
      rw [settle_eq]
      rfl
    _ = s.waiting - (s.waiting + 1) := (R.turns _).2
    _ = 0 := Nat.sub_eq_zero_of_le (Nat.le_succ _)
  ended h := isOver_settle ((congrArg Streaming.ending s.settle_eq).symm.trans h)

theorem Rests.runs (H : s.Rests) {d : Duty} (h : s.runs d) : s.ending = false := by
  rw [Bool.eq_false_iff]
  intro told
  have none := List.isEmpty_iff.mp (H.ended told)
  simp [Streaming.runs, none] at h

/-- Whatever happens to a session at rest, a duty is there for what waits then. -/
theorem Rests.change (H : s.Rests) (c : s.Change e next) : next.Ready := by
  obtain ⟨typed, sizes, -⟩ := waiting_eq_zero_iff.mp H.waiting
  have manned := H.manned.change c
  cases c with
  | typed h =>
    rw [acceptsInput, Bool.and_eq_true] at h
    exact manned.ready (H.runs h.2)
  | sized h =>
    rw [acceptsWindow, Bool.and_eq_true] at h
    exact manned.ready (H.runs h.2)
  | pinged hwriter => exact manned.ready (H.runs hwriter)
  | inputPassed _ _ htyped | inputLost _ htyped =>
    exact absurd (htyped.symm.trans typed) (List.cons_ne_nil _ _)
  | windowPassed _ _ hsizes | windowLost _ hsizes =>
    exact absurd (hsizes.symm.trans sizes) (List.cons_ne_nil _ _)
  | wrote hwriter => exact manned.ready (H.runs hwriter)
  | _ => exact ready_of_idle H.waiting

/-- A turn at which nothing waits tells the duties to end, once the client has left. -/
theorem Manned.ending_turn (H : s.Manned) (hwaiting : s.waiting = 0 ∨ s.ending)
    (hleft : s.line.connected = false) : s.turn.ending := by
  have change := s.change_step .forwardInput
  have told : s.forwardInput.forwardWindow.ending := by
    cases hending : s.forwardInput.ending with
    | true => exact (s.forwardInput.change_step .forwardWindow).told hending
    | false =>
      have unended : s.ending ≠ true := by
        intro told
        exact absurd (change.told told) (ne_true_of_eq_false hending)
      obtain ⟨typed, sizes, -⟩ := waiting_eq_zero_iff.mp (hwaiting.resolve_right unended)
      have line := (forwardInput_of_nil typed).2
      have runs : s.forwardInput.runs .windows := (H.change change).windows hending
      rw [forwardWindow, if_pos runs, line, sizes, hleft]
      rfl
  exact (s.forwardInput.forwardWindow.change_step .write).told told

end TermLink.Gate.Streaming
