import TermLink.Gate.Session
import TermLink.Proofs.Gate.Streaming
import TermLink.Proofs.Text.Utf8

/-!
# What a client sees of its session

The client of a session that streams sees what the backend's frames say, one after another, until
the backend gives an exit code or closes the connection, or a write to it has failed and the reader
takes note of that. There the session ends, and later frames do not matter.

## Implementation notes

A session is followed from its first event on: it is open until something ends it for its reader,
and from then on no event opens it again. While it is open and no write fails, all that can happen
beside the frames is that the client's input ends. After a failed write the other duties may end in
any order, and of these only the end of the reader counts.
-/

namespace TermLink

namespace Frame

/-- What a frame can end a session with. -/
inductive Ending where
  | exit (code : Int32)
  | close
  deriving DecidableEq, Repr

/-- The exit status that a client is given at an end. -/
def Ending.status : Ending → Nat
  | .exit code => if 0 ≤ code.toInt then code.toInt.toNat else 1
  | .close => 0

/-- The code that the backend has given at an end. -/
def Ending.code? : Ending → Option Int32
  | .exit code => some code
  | .close => none

/-- The end to which a frame brings a session, if it brings it to one. -/
def ending? (f : Frame) : Option Ending :=
  match f.message? with
  | some (.exit code) => some (.exit code)
  | some _ => none
  | none => if f = .close then some .close else none

/-- What a client sees of a frame. -/
def seen (f : Frame) : Bytes :=
  match f.message? with
  | some (.data payload) => payload
  | some (.error notice) => Utf8.encode "Error: " ++ Utf8.encode notice ++ [13, 10]
  | some (.status notice) => [13] ++ Utf8.encode notice ++ [13, 10]
  | _ => []

/-- What a client sees of frames up to the first that brings an end. -/
def transcript (fs : List Frame) : Bytes := (fs.takeWhile fun f => f.ending?.isNone).flatMap seen

theorem ending?_of_ne {f : Frame} {m : Message} (hm : f.message? = some m)
    (hne : ∀ code, m ≠ .exit code) : f.ending? = none := by
  rw [ending?, hm]
  cases m with
  | exit code => exact absurd rfl (hne code)
  | _ => rfl

theorem transcript_cons (f : Frame) (fs : List Frame) :
    transcript (f :: fs) = if f.ending?.isNone then f.seen ++ transcript fs else [] := by
  rw [transcript, List.takeWhile_cons]
  split <;> rfl

end Frame

namespace Gate

theorem Screen.write?_of_unlimited {screen : Screen} (h : screen.writesLeft = none)
    (bytes : Bytes) :
    screen.write? bytes = some { screen with written := screen.written ++ bytes } := by
  rw [write?, h]

theorem shown?_eq_seen {f : Frame} {m : Message} (hm : f.message? = some m) :
    (shown? m).getD [] = f.seen := by
  have ends : Utf8.encode lineEnd = [13, 10] := by decide +kernel
  have turn : Utf8.encode "\r" = [13] := by decide +kernel
  rw [Frame.seen, hm]
  cases m with
  | error notice | status notice =>
    simp only [shown?, Option.getD_some, Utf8.encode_append, ends, turn]
  | _ => rfl

namespace Streaming

variable {s next : Streaming} {ending : Frame.Ending}

/-- The frame that comes with an event. -/
def Event.frame? : Event → Option Frame
  | .receive f => some f
  | _ => none

theorem Event.ne_receive {e : Event} (h : e.frame? = none) (f : Frame) : e ≠ .receive f := by
  intro he
  rw [he] at h
  cases h

theorem Event.eq_receive {e : Event} {f : Frame} (h : e.frame? = some f) : e = .receive f := by
  cases e <;> cases h
  rfl

/-- The frames that come with events. -/
def framesIn (events : List Event) : List Frame := events.filterMap Event.frame?

/-- What happens before the reader takes note that a write to the backend has failed, as one may
have before. -/
def heard (failed : Bool) : List Event → List Event
  | [] => []
  | e :: rest =>
    if failed && e = .obey .reader then [] else e :: heard (failed || e = .failWrite) rest

theorem heard_of_notMem {events : List Event} (h : .failWrite ∉ events) :
    heard false events = events := by
  induction events with
  | nil => rfl
  | cons e rest ih =>
    obtain ⟨hfail, link⟩ := not_or.mp (mt List.mem_cons.mpr h)
    rw [heard, Bool.false_and, if_neg Bool.false_ne_true, Bool.false_or,
      decide_eq_false (Ne.symm hfail), ih link]

theorem heard_subset (failed : Bool) (events : List Event) : heard failed events ⊆ events := by
  induction events generalizing failed with
  | nil => exact List.Subset.refl _
  | cons e rest ih =>
    rw [heard]
    split
    · exact List.nil_subset _
    · exact List.cons_subset_cons e (ih _)

/-- A session whose reader goes on. `failed` tells whether it has been told to end, because a write
to the backend has failed. -/
structure Open (failed : Bool) (s : Streaming) : Prop where
  reader : s.runs .reader
  room : s.screen.writesLeft = none
  exitCode : s.exitCode = none
  told : s.ending = failed
  whole : failed = false → s.runs .writer ∧ s.runs .windows ∧ s.line.connected

/-- A session that has come to an end for its reader. -/
structure Ended (s : Streaming) (ending : Frame.Ending) : Prop where
  reader : s.runs .reader = false
  told : s.ending
  exitCode : s.exitCode = ending.code?

/-- A step that leaves all duties but the input, and the screen, as they are. -/
structure Calm (s next : Streaming) : Prop where
  runs (d : Duty) : d ≠ .input → next.runs d = s.runs d
  connected : next.line.connected = s.line.connected
  ending : next.ending = s.ending

theorem calm_refl (s : Streaming) : s.Calm s := ⟨fun _ _ => rfl, rfl, rfl⟩

/-- While a session is open and its client stays, nothing but a frame or a lost connection makes a
duty end other than the input. -/
theorem Open.calm (H : s.Open false) {e : Event} (hframe : e.frame? = none) (hleave : e ≠ .leave)
    (hfail : e ≠ .failWrite) : s.Calm (s.step e) := by
  obtain ⟨writer, windows, connected⟩ := H.whole rfl
  have change := s.change_step e
  generalize s.step e = next at change ⊢
  cases change with
  | nothing => exact calm_refl s
  | left => exact absurd rfl hleave
  | writeFailed => exact absurd rfl hfail
  | shown | ended => cases hframe
  | inputLost hwriter | windowLost hwriter | pingLost hwriter =>
    exact absurd writer (ne_true_of_eq_false hwriter)
  | windowsDone _ hleft => exact absurd connected (ne_true_of_eq_false hleft)
  | writingDone _ hfed =>
    have fed : s.isFed := by simp [isFed, windows]
    exact absurd fed (ne_true_of_eq_false hfed)
  | obeyed told => exact absurd told (ne_true_of_eq_false H.told)
  | inputDone =>
    refine ⟨?_, rfl, rfl⟩
    intro d hd
    simp [hd]
  | _ => exact ⟨fun _ _ => rfl, rfl, rfl⟩

/-- Nothing but a frame, or that it takes note of an end, makes the reader end. -/
theorem Change.reader {e : Event} (c : s.Change e next) (hreader : s.runs .reader)
    (hframe : e.frame? = none) (hobey : e ≠ .obey .reader) : next.runs .reader := by
  cases c with
  | ended => cases hframe
  | inputLost | windowLost =>
    rw [runs_stop, Bool.and_eq_true]
    exact ⟨hreader, rfl⟩
  | inputDone | windowsDone | pingLost | writingDone | writeFailed => simpa using hreader
  | @obeyed d =>
    have other : Duty.reader ≠ d := fun same => hobey (congrArg Event.obey same.symm)
    simp [hreader, other]
  | _ => exact hreader

/-- An open session stays open where its client does, but for a frame and for the reader's taking
note. -/
theorem Open.step {failed : Bool} (H : s.Open failed) {e : Event} (hframe : e.frame? = none)
    (hleave : e ≠ .leave) (hnote : ¬(failed = true ∧ e = .obey .reader)) :
    (s.step e).Open (failed || e = .failWrite) := by
  have beside := s.beside_step (Event.ne_receive hframe)
  have room : (s.step e).screen.writesLeft = none := by rw [beside.screen, H.room]
  have exitCode : (s.step e).exitCode = none := by rw [beside.exitCode, H.exitCode]
  cases failed with
  | true =>
    have hobey : e ≠ .obey .reader := fun he => hnote ⟨rfl, he⟩
    have change := s.change_step e
    exact ⟨change.reader H.reader hframe hobey, room, exitCode, change.told H.told, nofun⟩
  | false =>
    by_cases hfail : e = .failWrite
    · subst hfail
      have lost : s.step .failWrite = s.stop .writer := if_pos (H.whole rfl).1
      rw [lost]
      exact ⟨by simp [H.reader], H.room, H.exitCode, rfl, nofun⟩
    · have calm := H.calm hframe hleave hfail
      obtain ⟨writer, windows, connected⟩ := H.whole rfl
      rw [decide_eq_false hfail]
      refine ⟨?_, room, exitCode, calm.ending.trans H.told, fun _ => ⟨?_, ?_, ?_⟩⟩
      · rw [calm.runs .reader nofun, H.reader]
      · rw [calm.runs .writer nofun, writer]
      · rw [calm.runs .windows nofun, windows]
      · rw [calm.connected, connected]

/-- A frame is shown while the session is open, or ends it. -/
theorem Open.receive {failed : Bool} (H : s.Open failed) (f : Frame) :
    match f.ending? with
    | none => (s.receive f).Open failed
      ∧ (s.receive f).screen.written = s.screen.written ++ f.seen
    | some ending => (s.receive f).Ended ending ∧ (s.receive f).screen = s.screen := by
  have stopped : (s.stop .reader).runs .reader = false := by simp
  rw [receive_eq H.reader]
  cases hm : f.message? with
  | none =>
    have nothing : f.seen = [] := by rw [Frame.seen, hm]
    rw [Frame.ending?, hm, nothing, List.append_nil]
    by_cases hclose : f = .close
    · rw [if_pos hclose, if_pos hclose]
      exact ⟨⟨stopped, rfl, H.exitCode⟩, rfl⟩
    · rw [if_neg hclose, if_neg hclose]
      exact ⟨H, rfl⟩
  | some m =>
    by_cases hexit : ∃ code, m = .exit code
    · obtain ⟨code, rfl⟩ := hexit
      rw [Frame.ending?, hm]
      exact ⟨⟨stopped, rfl, rfl⟩, rfl⟩
    · have hne : ∀ code, m ≠ .exit code := fun code h => hexit ⟨code, h⟩
      rw [Frame.ending?_of_ne hm hne, ← shown?_eq_seen hm]
      dsimp only
      rcases act_of_ne (s := s) hne with ⟨hs, ha⟩ | ⟨bytes, screen, hs, hw, ha⟩ | ⟨bytes, -, hw, -⟩
      · rw [ha, hs]
        exact ⟨H, (List.append_nil _).symm⟩
      · rw [Screen.write?_of_unlimited H.room] at hw
        obtain rfl := Option.some.inj hw
        rw [ha, hs]
        exact ⟨⟨H.reader, H.room, H.exitCode, H.told, H.whole⟩, rfl⟩
      · rw [Screen.write?_of_unlimited H.room] at hw
        cases hw

theorem Ended.receive (H : s.Ended ending) (f : Frame) : s.receive f = s := by
  unfold Streaming.receive
  rw [if_neg (ne_true_of_eq_false H.reader)]

/-- No event opens a session again, or changes its screen. -/
theorem Ended.step (H : s.Ended ending) (e : Event) :
    (s.step e).Ended ending ∧ (s.step e).screen = s.screen := by
  cases hframe : e.frame? with
  | some f =>
    obtain rfl := Event.eq_receive hframe
    rw [Streaming.step, H.receive f]
    exact ⟨H, rfl⟩
  | none =>
    have beside := s.beside_step (Event.ne_receive hframe)
    refine ⟨⟨?_, (s.change_step e).told H.told, beside.exitCode.trans H.exitCode⟩, beside.screen⟩
    rw [Bool.eq_false_iff]
    intro still
    exact ne_true_of_eq_false H.reader (beside.runs .reader still)

theorem Ended.run (H : s.Ended ending) (events : List Event) :
    (s.run events).Ended ending ∧ (s.run events).screen = s.screen := by
  induction events generalizing s with
  | nil => exact ⟨H, rfl⟩
  | cons e rest ih =>
    obtain ⟨next, screen⟩ := H.step e
    obtain ⟨last, same⟩ := ih next
    exact ⟨last, same.trans screen⟩

/-- A reader that takes note of a failed write ends as it does at a close. -/
theorem Open.note (H : s.Open true) :
    (s.step (.obey .reader)).Ended .close ∧ (s.step (.obey .reader)).screen = s.screen := by
  have obeys : s.step (.obey .reader) = s.retire .reader := if_pos H.told
  rw [obeys]
  exact ⟨⟨by simp, H.told, H.exitCode⟩, rfl⟩

/-- How far a session has come. -/
def At (s : Streaming) (failed : Bool) : Option Frame.Ending → Prop
  | none => s.Open failed
  | some ending => s.Ended ending

/-- What events bring an open session to: the end that the first of its frames brings, or that which
the reader takes note of. -/
def endingOf (failed : Bool) (events : List Event) : Option Frame.Ending :=
  ((framesIn (heard failed events)).findSome? Frame.ending?).or
    (if heard failed events = events then none else some .close)

/-- Over a run, an open session shows the frames that are heard, and it ends at the first of them
that brings an end, or where the reader takes note of a failed write. -/
theorem Open.run {failed : Bool} (H : s.Open failed) {events : List Event}
    (hstays : .leave ∉ events) :
    (s.run events).At (failed || .failWrite ∈ events) (endingOf failed events)
      ∧ (s.run events).screen.written =
        s.screen.written ++ Frame.transcript (framesIn (heard failed events)) := by
  induction events generalizing s failed with
  | nil =>
    have same : (failed || decide (Event.failWrite ∈ [])) = failed := by simp
    rw [same]
    exact ⟨H, (List.append_nil _).symm⟩
  | cons e rest ih =>
    obtain ⟨hleave, stays⟩ := not_or.mp (mt List.mem_cons.mpr hstays)
    by_cases hnote : failed = true ∧ e = .obey .reader
    · obtain ⟨rfl, rfl⟩ := hnote
      obtain ⟨next, same⟩ := H.note
      obtain ⟨last, kept⟩ := next.run rest
      have silence : heard true (.obey .reader :: rest) = [] := if_pos (by simp)
      have ending : endingOf true (.obey .reader :: rest) = some .close := by
        simp [endingOf, silence, framesIn]
      rw [ending, silence]
      refine ⟨last, ?_⟩
      exact (congrArg Screen.written (kept.trans same)).trans (List.append_nil _).symm
    · have hears : heard failed (e :: rest) = e :: heard (failed || e = .failWrite) rest := by
        rw [heard, if_neg (by simpa using hnote)]
      have failing : (failed || decide (Event.failWrite ∈ e :: rest)) =
          ((failed || decide (e = .failWrite)) || decide (Event.failWrite ∈ rest)) := by
        simp [eq_comm, Bool.or_assoc]
      rw [failing, hears]
      -- Only a frame writes to the screen or ends an open session otherwise.
      cases hframe : e.frame? with
      | none =>
        have frames (more : List Event) : framesIn (e :: more) = framesIn more :=
          List.filterMap_cons_none hframe
        have ending : endingOf failed (e :: rest) = endingOf (failed || e = .failWrite) rest := by
          simp only [endingOf, hears, frames, List.cons.injEq, true_and]
        have beside := s.beside_step (Event.ne_receive hframe)
        rw [ending, frames, ← beside.screen]
        exact ih (H.step hframe (Ne.symm hleave) hnote) stays
      | some f =>
        obtain rfl := Event.eq_receive hframe
        have frames (more : List Event) : framesIn (.receive f :: more) = f :: framesIn more := rfl
        have same : (failed || decide (Event.receive f = .failWrite)) = failed := by simp
        have received := H.receive f
        rw [same] at hears ⊢
        rw [endingOf, hears, frames, List.findSome?_cons, Frame.transcript_cons]
        simp only [List.cons.injEq, true_and]
        cases hending : f.ending? with
        | none =>
          rw [hending] at received
          obtain ⟨next, shown⟩ := received
          obtain ⟨last, written⟩ := ih next stays
          refine ⟨last, ?_⟩
          calc
            _ = (s.receive f).screen.written
                ++ Frame.transcript (framesIn (heard failed rest)) := written
            _ = s.screen.written
                ++ (f.seen ++ Frame.transcript (framesIn (heard failed rest))) := by
              rw [shown, List.append_assoc]
        | some ending =>
          rw [hending] at received
          obtain ⟨next, same⟩ := received
          obtain ⟨last, kept⟩ := next.run rest
          refine ⟨last, ?_⟩
          calc
            _ = (s.receive f).screen.written := congrArg Screen.written kept
            _ = s.screen.written ++ [] := by rw [same, List.append_nil]

/-- What the duties do in one turn. -/
def turnEvents : List Event := [.forwardInput, .forwardWindow, .write]

theorem turns_eq_run (s : Streaming) (n : Nat) :
    s.turns n = s.run (List.replicate n turnEvents).flatten := by
  induction n generalizing s with
  | zero => rfl
  | succ n ih =>
    rw [List.replicate_succ, List.flatten_cons]
    exact ih s.turn

theorem foldl_obey_eq_run (s : Streaming) (ds : List Duty) :
    ds.foldl obey s = s.run (ds.map Event.obey) := by
  rw [run, List.foldl_map]
  rfl

/-- All that the duties do by themselves: some turns, after which they end if they were told to. -/
def ownEvents (s : Streaming) : List Event :=
  (List.replicate (s.waiting + 1) turnEvents).flatten
    ++ (s.turns (s.waiting + 1)).duties.map Event.obey

theorem settle_eq_ownEvents (s : Streaming) : s.settle = s.run s.ownEvents := by
  let turning := (List.replicate (s.waiting + 1) turnEvents).flatten
  let obeying := (s.turns (s.waiting + 1)).duties.map Event.obey
  calc
    s.settle = (s.turns (s.waiting + 1)).run obeying := foldl_obey_eq_run _ _
    _ = (s.run turning).run obeying := by rw [turns_eq_run]
    _ = s.run s.ownEvents := (List.foldl_append ..).symm

theorem mem_ownEvents {e : Event} (h : e ∈ s.ownEvents) :
    e ∈ turnEvents ∨ ∃ d, e = .obey d := by
  rw [ownEvents, List.mem_append, List.mem_flatten, List.mem_map] at h
  rcases h with ⟨turn, hturn, he⟩ | ⟨d, -, rfl⟩
  · rw [List.eq_of_mem_replicate hturn] at he
    exact .inl he
  · exact .inr ⟨d, rfl⟩

/-- What the duties do by themselves is a run without frames. -/
theorem settle_eq_run (s : Streaming) :
    ∃ events, s.settle = s.run events ∧ .leave ∉ events ∧ .failWrite ∉ events
      ∧ framesIn events = [] := by
  refine ⟨s.ownEvents, s.settle_eq_ownEvents, ?_, ?_, ?_⟩
  · intro h
    rcases mem_ownEvents h with h | ⟨d, h⟩
    · simp [turnEvents] at h
    · cases h
  · intro h
    rcases mem_ownEvents h with h | ⟨d, h⟩
    · simp [turnEvents] at h
    · cases h
  · rw [framesIn, List.filterMap_eq_nil_iff]
    intro e h
    rcases mem_ownEvents h with h | ⟨d, rfl⟩
    · simp only [turnEvents, List.mem_cons, List.not_mem_nil, or_false] at h
      rcases h with rfl | rfl | rfl <;> rfl
    · rfl

/-- Duties that were told to end have ended when all of them obeyed. -/
theorem duties_obey (h : s.ending) (ds : List Duty) :
    (ds.foldl obey s).duties = s.duties.filter (· ∉ ds) := by
  induction ds generalizing s with
  | nil => simp
  | cons d ds ih =>
    have told : (s.obey d).ending := (s.change_step (.obey d)).told h
    rw [List.foldl_cons, ih told, obey, if_pos h, retire, List.filter_filter]
    congr 1
    funext e
    simp [Bool.and_comm]

theorem Open.isOver {failed : Bool} (H : s.Open failed) : s.isOver = false := by
  have reads : Duty.reader ∈ s.duties := List.contains_iff_mem.mp H.reader
  rw [Streaming.isOver, List.isEmpty_eq_false_iff]
  exact List.ne_nil_of_mem reads

/-- A session is over when its duties did all they can, if they have been told to end. -/
theorem isOver_settle (h : (s.turns (s.waiting + 1)).ending) : s.settle.isOver := by
  rw [Streaming.isOver, List.isEmpty_iff]
  calc
    s.settle.duties = _ := duties_obey h _
    _ = [] := by simp

/-- An open session goes on when its duties did all they can, unless a write has failed. -/
theorem Open.settle {failed : Bool} (H : s.Open failed) :
    s.settle.screen.written = s.screen.written ∧ s.settle.isOver = failed
      ∧ s.settle.exitCode = none := by
  obtain ⟨events, heq, hstays, hlink, hframes⟩ := s.settle_eq_run
  obtain ⟨last, written⟩ := H.run hstays
  have silent : framesIn (heard failed events) = [] := by
    rw [framesIn, List.filterMap_eq_nil_iff] at hframes ⊢
    exact fun e he => hframes e (heard_subset failed events he)
  rw [silent, ← heq] at written
  rw [← heq, decide_eq_false hlink, Bool.or_false, endingOf, silent] at last
  refine ⟨written.trans (List.append_nil _), ?_, ?_⟩
  · cases failed with
    | false =>
      rw [heard_of_notMem hlink, if_pos rfl] at last
      exact Open.isOver last
    | true =>
      apply isOver_settle
      rw [turns_eq_run]
      exact ending_run H.told _
  · split at last
    · exact Open.exitCode last
    · exact Ended.exitCode last

theorem Ended.settle (H : s.Ended ending) :
    s.settle.Ended ending ∧ s.settle.isOver ∧ s.settle.screen = s.screen := by
  obtain ⟨events, heq, -⟩ := s.settle_eq_run
  obtain ⟨last, same⟩ := H.run events
  rw [← heq] at last same
  refine ⟨last, isOver_settle ?_, same⟩
  rw [turns_eq_run]
  exact (H.run _).1.told

theorem Ended.status (H : s.Ended ending) : s.status = ending.status := by
  rw [Streaming.status, H.exitCode]
  cases ending with
  | close => rfl
  | exit code =>
    have sign : code < 0 ↔ ¬ 0 ≤ code.toInt := by
      rw [Int32.lt_iff_toInt_lt, Int.not_le]
      rfl
    simp only [Frame.Ending.code?, Frame.Ending.status, sign]
    split <;> simp_all

theorem open_ofDial (backend : Backend) (dial : Dial) {line : ClientLine} (hline : line.connected)
    {screen : Screen} (hroom : screen.writesLeft = none) :
    (ofDial backend dial line screen).Open false where
  reader := by simp [runs, ofDial]
  room := hroom
  exitCode := rfl
  told := rfl
  whole _ := ⟨by simp [runs, ofDial], by simp [runs, ofDial], hline⟩

end Streaming

namespace Session

/-- The session after events in order. -/
def run (s : Session) (events : List Streaming.Event) : Session := events.foldl step s

theorem run_streaming (dial : Dial) (stream : Streaming) (events : List Streaming.Event) :
    (streaming dial stream).run events = .streaming dial (stream.run events) := by
  induction events generalizing stream with
  | nil => rfl
  | cons e rest ih => exact ih (stream.step e)

theorem run_refuse (cause : Refusal) (screen : Screen) (events : List Streaming.Event) :
    (refuse cause screen).run events = refuse cause screen := by
  induction events with
  | nil => rfl
  | cons e rest ih => exact ih

/-- Where no backend can be reached, every session is refused: for what is wrong with its request,
or else for the backend. -/
theorem run_start_unrouted (backend : Backend) (r : SessionRequest) (answer : Dial.Outcome)
    (line : ClientLine) (screen : Screen) (events : List Streaming.Event) :
    (start backend r (answer.across .unrouted) line screen).run events =
      refuse (match r.dial backend with
        | .error cause => cause
        | .ok _ => .backendUnavailable) screen := by
  rw [start]
  cases r.dial backend with
  | error cause => exact run_refuse cause screen events
  | ok dial => exact run_refuse .backendUnavailable screen events

/-- A session that has ended for its reader is over when its duties did all they can, and its status
is then what it was if it was over before. -/
theorem settle_of_ended (dial : Dial) {s : Streaming} {ending : Frame.Ending}
    (H : s.Ended ending) :
    let session := streaming dial s
    session.settle.screen.written = session.screen.written
      ∧ session.settle.status? = some ending.status
      ∧ ∀ n, session.status? = some n → session.settle.status? = some n := by
  intro session
  obtain ⟨settled, finished, shown⟩ := H.settle
  have status : session.settle.status? = some ending.status := by
    simp only [session, settle, status?, finished, if_true, settled.status]
  refine ⟨congrArg Screen.written shown, status, ?_⟩
  intro n hn
  rw [status]
  rw [status?, H.status] at hn
  split at hn <;> cases hn
  rfl

/-- An open session is over when its duties did all they can only if a write has failed. -/
theorem settle_of_open (dial : Dial) {s : Streaming} {failed : Bool} (H : s.Open failed) :
    let session := streaming dial s
    session.settle.screen.written = session.screen.written
      ∧ session.settle.status? = (if failed then some 0 else none)
      ∧ session.status? = none := by
  intro session
  obtain ⟨shown, finished, code⟩ := H.settle
  have zero : s.settle.status = 0 := by rw [Streaming.status, code]
  refine ⟨shown, ?_, ?_⟩
  · simp only [session, settle, status?, finished, zero]
  · simp only [session, status?, H.isOver, Bool.false_eq_true, if_false]

/-- Whatever else goes on, a client that stays sees just what the backend's frames say, up to the
first that brings an end, or until a write to the backend has failed and the reader takes note of
that. There the session ends, with the status that the end tells, and no frame does anything more.
Without an end it goes on, unless a write to the backend fails. -/
theorem shows_frames {backend : Backend} {r : SessionRequest} {dial : Dial}
    (hdial : r.dial backend = .ok dial) {line : ClientLine} (hline : line.connected)
    {screen : Screen} (hroom : screen.writesLeft = none) {events : List Streaming.Event}
    (hstays : .leave ∉ events) :
    let heard := Streaming.heard false events
    let frames := Streaming.framesIn heard
    let ending := frames.findSome? Frame.ending?
    let last := (start backend r .opened line screen).run events
    (.failWrite ∉ events → heard = events)
      ∧ last.screen.written = screen.written ++ Frame.transcript frames
      ∧ last.settle.screen.written = last.screen.written
      ∧ last.runs .reader = (ending.isNone && heard = events)
      ∧ last.settle.status? =
        (ending.map Frame.Ending.status).or (if .failWrite ∈ events then some 0 else none)
      ∧ (∀ n, last.status? = some n → last.settle.status? = some n)
      ∧ (ending.isSome ∨ heard ≠ events → ∀ f, last.step (.receive f) = last) := by
  intro heard frames ending last
  have begun : last = .streaming dial ((Streaming.ofDial backend dial line screen).run events) := by
    rw [← run_streaming]
    simp only [last, start, hdial]
  obtain ⟨reached, written⟩ := (Streaming.open_ofDial backend dial hline hroom).run hstays
  rw [begun]
  -- What is left depends on the stream only through how far it has come.
  refine ⟨Streaming.heard_of_notMem, written, ?_⟩
  change Streaming.At _ _ (ending.or (if heard = events then none else some .close)) at reached
  generalize (Streaming.ofDial backend dial line screen).run events = stream at reached
  have still {e : Frame.Ending} (H : stream.Ended e) (f : Frame) :
      (streaming dial stream).step (.receive f) = streaming dial stream :=
    congrArg (streaming dial) (H.receive f)
  cases hending : ending with
  | some e =>
    rw [hending] at reached
    have H : stream.Ended e := reached
    obtain ⟨shown, status, settled⟩ := settle_of_ended dial H
    exact ⟨shown, H.reader, status, settled, fun _ => still H⟩
  | none =>
    rw [hending, Option.none_or] at reached
    by_cases hheard : heard = events
    · rw [if_pos hheard] at reached
      have H : stream.Open _ := reached
      obtain ⟨shown, status, unsettled⟩ := settle_of_open dial H
      rw [decide_eq_true hheard]
      refine ⟨shown, H.reader, ?_, ?_, ?_⟩
      · simpa using status
      · intro n hn
        rw [unsettled] at hn
        cases hn
      · rintro (h | h)
        · cases h
        · exact absurd hheard h
    · rw [if_neg hheard] at reached
      have H : stream.Ended .close := reached
      obtain ⟨shown, status, settled⟩ := settle_of_ended dial H
      have hfail : .failWrite ∈ events := by
        by_contra hlink
        exact hheard (Streaming.heard_of_notMem hlink)
      rw [decide_eq_false hheard, if_pos hfail]
      exact ⟨shown, H.reader, status, settled, fun _ => still H⟩

theorem shows_frames_exit :
    let backend : Backend := { url := "ws://edge/ws" }
    let r : SessionRequest :=
      { fingerprint := some "key", verdict := some .accepted, size := some ⟨80, 24⟩, repo := none }
    let frameOf := Edge.Pipe.frameOf
    let events : List Streaming.Event :=
      [.receive (frameOf (.data [104])), .input [113], .receive .signal, .forwardInput, .failWrite,
        .receive (frameOf (.data [105])), .receive (frameOf (.exit 3)), .obey .reader,
        .receive (frameOf (.data [106]))]
    let last := (start backend r .opened {} {}).run events
    (∃ dial, r.dial backend = .ok dial) ∧ .leave ∉ events
      ∧ last.screen.written = [104, 105] ∧ last.settle.status? = some 3 := by
  intro backend r frameOf events last
  obtain ⟨dial, hdial⟩ : ∃ dial, r.dial backend = .ok dial := ⟨_, rfl⟩
  have hstays : .leave ∉ events := by simp [events]
  have hline : ({} : ClientLine).connected := rfl
  have hroom : ({} : Screen).writesLeft = none := rfl
  obtain ⟨-, written, -, -, status, -⟩ := shows_frames hdial hline hroom hstays
  have frames : Streaming.framesIn (Streaming.heard false events) =
      [frameOf (.data [104]), .signal, frameOf (.data [105]), frameOf (.exit 3)] := rfl
  have silent : Frame.message? .signal = none := rfl
  have ends : (Streaming.framesIn (Streaming.heard false events)).findSome? Frame.ending? =
      some (.exit 3) := by
    rw [frames]
    simp [frameOf, silent, Frame.ending?]
  rw [ends] at status
  refine ⟨⟨dial, hdial⟩, hstays, written.trans ?_, status.trans (by decide)⟩
  rw [frames]
  simp [frameOf, silent, Frame.transcript_cons, Frame.ending?, Frame.seen]

/-- The frames alone do not tell what a client sees: after a failed write the reader may end before
it has taken them. -/
theorem not_frames_alone :
    ¬ ∀ (backend : Backend) (r : SessionRequest) (dial : Dial) (line : ClientLine) (screen : Screen)
      (events : List Streaming.Event), r.dial backend = .ok dial → line.connected →
      screen.writesLeft = none → .leave ∉ events →
      let frames := Streaming.framesIn events
      let last := (start backend r .opened line screen).run events
      last.screen.written = screen.written ++ Frame.transcript frames
        ∧ last.settle.status? = (frames.findSome? Frame.ending?).map Frame.Ending.status := by
  intro h
  let backend : Backend := { url := "ws://edge/ws" }
  let r : SessionRequest :=
    { fingerprint := some "key", verdict := some .accepted, size := some ⟨80, 24⟩, repo := none }
  let data := Edge.Pipe.frameOf (.data [104])
  let exit := Edge.Pipe.frameOf (.exit 3)
  let events : List Streaming.Event :=
    [.failWrite, .obey .reader, .receive data, .receive exit]
  obtain ⟨dial, hdial⟩ : ∃ dial, r.dial backend = .ok dial := ⟨_, rfl⟩
  obtain ⟨written, -⟩ := h backend r dial {} {} events hdial rfl rfl (by simp [events])
  have frames : Streaming.framesIn events = [data, exit] := rfl
  have nothing : ((start backend r .opened {} {}).run events).screen.written = [] := rfl
  rw [frames, nothing] at written
  simp [data, exit, Frame.transcript_cons, Frame.ending?, Frame.seen] at written

end Session
end Gate
end TermLink
