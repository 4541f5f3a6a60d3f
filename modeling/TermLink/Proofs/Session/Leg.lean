import TermLink.Proofs.Edge.Pipe
import TermLink.Proofs.Host.Stream

/-!
# An edge in stream mode and its host

The edge's pipe and the host's stream with the frames that are on their way between them, under any
order of single steps. What is typed into the terminal is a beginning of what the arrived frames
hold.

## Implementation notes

Each way is a log of the frames sent and the number of those that have arrived, so that a frame
arrives only after all that were sent before it. A connection that its sender has ended delivers a
last `close`.
-/

namespace TermLink

/-- An edge in stream mode, and the host to which it opened a stream. -/
structure Leg where
  pipe : Edge.Pipe
  host : Host
  stream : Host.Stream
  /-- The number of the pipe's frames that have arrived at the host. -/
  arrived : Nat := 0
  /-- The number of the stream's frames that have arrived at the pipe. -/
  returned : Nat := 0

namespace Leg

/-- What can happen to an edge and its host. -/
inductive Event where
  /-- A frame of the gate arrives at the pipe. -/
  | fromGate (f : Frame)
  /-- The oldest frame on its way to the host arrives, in this environment. -/
  | arrive (env : Environment)
  /-- The oldest frame on its way to the pipe arrives. -/
  | back
  /-- The writer of the stream sends one message. -/
  | send
  /-- The reader of the stream ends if it must. -/
  | notice
  /-- The writer of the stream ends if it must. -/
  | stop
  /-- The writer of the stream ends because the peer cannot be reached. -/
  | lose
  | print (chunk : Bytes)
  | exit (code : Int32)

/-- What an event prints. -/
def Event.printed : Event → Bytes
  | .print chunk => chunk
  | _ => []

/-- The code that an event reports. -/
def Event.code? : Event → Option Int32
  | .exit code => some code
  | _ => none

/-- The frames that a stream has sent. -/
def framesOf (s : Host.Stream) : List Frame := Frame.ofSender s.sent (!s.writing)

/-- An edge that has just opened a stream of a host. -/
def opened (info : SessionInfo) (h : Host) : Leg where
  pipe := .start info .opened
  host := (Host.Stream.opened h).1
  stream := (Host.Stream.opened h).2

/-- The stream takes a frame of the pipe. -/
def take (l : Leg) (env : Environment) : Frame → Host × Host.Stream
  | .text payload | .binary payload => l.stream.receive l.host env payload
  | .signal => (l.host, l.stream)
  | .close => l.stream.hangUp l.host

/-- The leg after its stream has done something. -/
def withStream (l : Leg) (next : Host × Host.Stream) : Leg :=
  { l with host := next.1, stream := next.2 }

/-- The leg after an event. -/
def step (l : Leg) : Event → Leg
  | .fromGate f => { l with pipe := l.pipe.fromGate f }
  | .arrive env =>
    match l.pipe.toHost[l.arrived]? with
    | some f => { l.withStream (l.take env f) with arrived := l.arrived + 1 }
    | none => l
  | .back =>
    match (framesOf l.stream)[l.returned]? with
    | some f => { l with pipe := l.pipe.fromHost f, returned := l.returned + 1 }
    | none => l
  | .send => l.withStream (l.stream.sendNext l.host)
  | .notice => l.withStream (l.stream.notice l.host)
  | .stop => l.withStream (l.stream.stopWriting l.host)
  | .lose => if l.stream.writing then l.withStream (l.stream.endWriting l.host) else l
  | .print chunk => { l with host := l.host.publish chunk }
  | .exit code => { l with host := l.host.recordExit code }

/-- The messages that have arrived at the host. -/
def arrivals (l : Leg) : List Message := Frame.messages (l.pipe.toHost.take l.arrived)

/-- No frame that has not been sent has arrived. -/
def InOrder (l : Leg) : Prop := l.arrived ≤ l.pipe.toHost.length

/-- Nothing is typed before a terminal is asked for. -/
def AsksFirst (fs : List Frame) : Prop :=
  ∀ (n : Nat) (f : Frame) (size : Geometry) (repo : Option String), fs[n]? = some f →
    f.message? = some (.init size repo) → Message.payloads (Frame.messages (fs.take n)) = []

/-- A leg with a terminal that has printed `since`, until its exit what `closing` says, and that
was typed what has arrived. -/
def Told (l : Leg) (since : Bytes) (closing : Option (Bytes × Int32)) : Prop :=
  ∃ t, l.stream.Heard l.host t since closing
    ∧ t.pty.input <+: Message.payloads l.arrivals
    ∧ (l.stream.reading → t.running → t.pty.input = Message.payloads l.arrivals)

theorem take_append {fs : List Frame} {n : Nat} (h : n ≤ fs.length) (more : List Frame) :
    (fs ++ more).take n = fs.take n := List.take_append_of_le_length h

/-- What an event does to the pipe: nothing, unless a frame arrives there. -/
theorem pipe_step (l : Leg) (e : Event) :
    (l.step e).pipe = l.pipe
      ∨ (∃ f, e = .fromGate f ∧ (l.step e).pipe = l.pipe.fromGate f)
      ∨ ∃ f, (l.step e).pipe = l.pipe.fromHost f := by
  cases e with
  | fromGate f => exact .inr (.inl ⟨f, rfl, rfl⟩)
  | back =>
    simp only [step]
    split
    · exact .inr (.inr ⟨_, rfl⟩)
    · exact .inl rfl
  | arrive env =>
    simp only [step]
    split <;> exact .inl rfl
  | lose =>
    simp only [step]
    split <;> exact .inl rfl
  | _ => exact .inl rfl

theorem toHost_step (l : Leg) (e : Event) :
    ∃ more, (l.step e).pipe.toHost = l.pipe.toHost ++ more := by
  rcases pipe_step l e with h | ⟨f, -, h⟩ | ⟨f, h⟩
  · exact ⟨[], by rw [h, List.append_nil]⟩
  · obtain ⟨more, hmore, -⟩ := l.pipe.toHost_fromGate f
    exact ⟨more, by rw [h, hmore]⟩
  · obtain ⟨more, hmore, -⟩ := l.pipe.toHost_fromHost f
    exact ⟨more, by rw [h, hmore]⟩

theorem toGate_step (l : Leg) (e : Event) :
    ∃ more, (l.step e).pipe.toGate = l.pipe.toGate ++ more := by
  rcases pipe_step l e with h | ⟨f, -, h⟩ | ⟨f, h⟩
  · exact ⟨[], by rw [h, List.append_nil]⟩
  · obtain ⟨more, hmore, -⟩ := l.pipe.toGate_fromGate f
    exact ⟨more, by rw [h, hmore]⟩
  · obtain ⟨more, hmore, -⟩ := l.pipe.toGate_fromHost f
    exact ⟨more, by rw [h, hmore]⟩

/-- Only a frame of the gate brings a message to the host. -/
theorem messages_toHost_step (l : Leg) {e : Event} (he : ∀ f, e ≠ .fromGate f) :
    Frame.messages (l.step e).pipe.toHost = Frame.messages l.pipe.toHost
      ∧ ((l.step e).pipe.isOpen → l.pipe.isOpen) := by
  rcases pipe_step l e with h | ⟨f, hf, -⟩ | ⟨f, h⟩
  · rw [h]
    exact ⟨rfl, id⟩
  · exact absurd hf (he f)
  · obtain ⟨more, hmore, hmessages⟩ := l.pipe.toHost_fromHost f
    rw [h]
    constructor
    · rw [hmore, Frame.messages_append, hmessages, List.append_nil]
    · exact l.pipe.isOpen_of_fromHost f

theorem InOrder.step {l : Leg} (h : l.InOrder) (e : Event) : (l.step e).InOrder := by
  obtain ⟨more, hmore⟩ := toHost_step l e
  have le : l.arrived ≤ (l.step e).pipe.toHost.length := by
    rw [hmore, List.length_append]
    exact Nat.le_add_right_of_le h
  cases e with
  | arrive env =>
    simp only [Leg.step]
    split
    · exact (List.getElem?_eq_some_iff.mp ‹_›).1
    · exact h
  | back | lose =>
    apply Nat.le_trans (Nat.le_of_eq _) le
    simp only [Leg.step]
    split <;> rfl
  | _ => exact le

theorem arrivals_of_toHost {l next : Leg} (h : l.InOrder) {more : List Frame}
    (hmore : next.pipe.toHost = l.pipe.toHost ++ more) (harrived : next.arrived = l.arrived) :
    next.arrivals = l.arrivals := by
  rw [arrivals, hmore, harrived, take_append h]
  rfl

/-- A step in which only the stream acts, and what it does with its terminal. -/
theorem Told.withStream {l : Leg} {since : Bytes} {closing : Option (Bytes × Int32)}
    (H : l.Told since closing) {next : Host × Host.Stream}
    (hnext : ∀ t, l.stream.Heard l.host t since closing → ∃ u,
      next.2.Heard next.1 u since closing ∧ u.pty = t.pty ∧ u.running = t.running)
    (hreading : next.2.reading → l.stream.reading) :
    (l.withStream next).Told since closing := by
  obtain ⟨t, heard, hle, hall⟩ := H
  obtain ⟨u, heard', hpty, hrunning⟩ := hnext t heard
  refine ⟨u, heard', ?_, ?_⟩
  · rw [hpty]
    exact hle
  · intro hr hu
    rw [hrunning] at hu
    rw [hpty]
    exact hall (hreading hr) hu

theorem Told.kept {l : Leg} {since : Bytes} {closing : Option (Bytes × Int32)}
    (H : l.Told since closing) {next : Host × Host.Stream}
    (k : l.stream.Kept l.host next.2 next.1) : (l.withStream next).Told since closing :=
  H.withStream (fun t heard => ⟨t, heard.kept k, rfl, rfl⟩) fun hr => k.reading ▸ hr

theorem content_eq (payload : Bytes) :
    Host.Stream.content payload =
      Message.payloads (Message.decode? payload).toList := by
  cases h : Message.decode? payload <;> simp [Host.Stream.content, h]

theorem payloads_arrive {l : Leg} {f : Frame} (hf : l.pipe.toHost[l.arrived]? = some f) :
    Message.payloads (Frame.messages (l.pipe.toHost.take (l.arrived + 1))) =
      Message.payloads l.arrivals ++ Message.payloads f.message?.toList := by
  rw [Frame.messages_take_succ hf, Message.payloads_append]
  rfl

/-- What a stream with a terminal does with a frame that arrives. -/
theorem heard_take {l : Leg} {t : Terminal} {since : Bytes} {closing : Option (Bytes × Int32)}
    (H : l.stream.Heard l.host t since closing) (env : Environment) (f : Frame) :
    ∃ u, (l.take env f).2.Heard (l.take env f).1 u since closing ∧ u.running = t.running
      ∧ u.pty.input = t.pty.input ++
        if l.stream.reading && t.running then Message.payloads f.message?.toList else [] := by
  cases f with
  | text payload | binary payload =>
    have received := H.receive env payload
    rw [content_eq] at received
    exact received
  | signal => exact ⟨t, H, rfl, by simp [Frame.message?, Frame.payload?]⟩
  | close =>
    obtain ⟨u, hu, hpty, hrunning⟩ := H.hangUp
    exact ⟨u, hu, hrunning, by simp [hpty, Frame.message?, Frame.payload?]⟩

theorem reading_of_receive {s : Host.Stream} {h : Host} {env : Environment} {frame : Bytes}
    (hr : (s.receive h env frame).2.reading) : s.reading := by
  by_contra hn
  simp [Host.Stream.receive, hn] at hr

theorem reading_of_take {l : Leg} {env : Environment} {f : Frame}
    (hr : (l.take env f).2.reading) : l.stream.reading := by
  cases f with
  | text payload | binary payload => exact reading_of_receive hr
  | signal => exact hr
  | close =>
    by_contra hn
    simp [take, Host.Stream.hangUp, hn] at hr

theorem Told.arrive {l : Leg} {since : Bytes} {closing : Option (Bytes × Int32)}
    (H : l.Told since closing) (env : Environment) : (l.step (.arrive env)).Told since closing := by
  simp only [step]
  cases hf : l.pipe.toHost[l.arrived]? with
  | none => exact H
  | some f =>
    obtain ⟨t, heard, hle, hall⟩ := H
    obtain ⟨u, heard', hrunning, hinput⟩ := heard_take heard env f
    have more := payloads_arrive hf
    refine ⟨u, heard', ?_, ?_⟩
    · show u.pty.input <+: Message.payloads (Frame.messages (l.pipe.toHost.take (l.arrived + 1)))
      rw [more, hinput]
      split
      · next hboth =>
        simp only [Bool.and_eq_true] at hboth
        exact ⟨[], by rw [List.append_nil, hall hboth.1 hboth.2]⟩
      · simpa using hle.trans (List.prefix_append _ _)
    · intro hr hu
      show u.pty.input = Message.payloads (Frame.messages (l.pipe.toHost.take (l.arrived + 1)))
      have reading := reading_of_take hr
      have running : t.running := hrunning ▸ hu
      simp only [more, hinput, hall reading running, reading, running, Bool.and_self, if_true]

/-- Events that neither print nor report an exit leave what was printed as it is. -/
theorem Told.step_of_quiet {l : Leg} {since : Bytes} {closing : Option (Bytes × Int32)}
    (H : l.Told since closing) (h : l.InOrder) {e : Event} (hprint : ∀ chunk, e ≠ .print chunk)
    (hexit : ∀ code, e ≠ .exit code) : (l.step e).Told since closing := by
  obtain ⟨more, hmore⟩ := toHost_step l e
  cases e with
  | fromGate f =>
    have same := arrivals_of_toHost h hmore rfl
    rw [Told, same]
    exact H
  | back =>
    simp only [Leg.step] at hmore ⊢
    split at hmore
    · have same := arrivals_of_toHost h hmore rfl
      rw [Told, same]
      exact H
    · exact H
  | arrive env => exact H.arrive env
  | send => exact H.kept (Host.Stream.kept_sendNext _ _)
  | stop => exact H.kept (Host.Stream.kept_stopWriting _ _)
  | lose =>
    simp only [Leg.step]
    split
    · exact H.kept (Host.Stream.kept_endWriting _ _)
    · exact H
  | notice =>
    apply H.withStream (fun t heard => heard.notice)
    intro hr
    by_contra hn
    simp [Host.Stream.notice, hn] at hr
  | print chunk => exact absurd rfl (hprint chunk)
  | exit code => exact absurd rfl (hexit code)

theorem Told.step {l : Leg} {since : Bytes} {closing : Option (Bytes × Int32)}
    (H : l.Told since closing) (h : l.InOrder) (e : Event) :
    (l.step e).Told (since ++ e.printed) (closing.or (e.code?.map fun code => (since, code))) := by
  cases e with
  | print chunk =>
    obtain ⟨t, heard, hle, hall⟩ := H
    obtain ⟨u, heard', hpty, hrunning⟩ := heard.publish chunk
    simp only [Event.code?, Option.map_none, Option.or_none]
    exact ⟨u, heard', hpty ▸ hle, fun hr hu => hpty ▸ hall hr (hrunning ▸ hu)⟩
  | exit code =>
    obtain ⟨t, heard, hle, hall⟩ := H
    obtain ⟨u, heard', hpty, hrunning⟩ := heard.recordExit code
    simp only [Event.printed, List.append_nil]
    exact ⟨u, heard', hpty ▸ hle, fun hr hu => hpty ▸ hall hr (hrunning hu)⟩
  | _ =>
    simp only [Event.printed, Event.code?, List.append_nil, Option.map_none, Option.or_none]
    exact H.step_of_quiet h (by simp) (by simp)

/-- A leg whose stream has no terminal either still has none, or has been given one by a frame that
has arrived. -/
theorem step_of_idle {l : Leg} (H : l.stream.Idle l.host)
    (hasks : AsksFirst l.pipe.toHost) (e : Event) :
    (l.step e).stream.Idle (l.step e).host
      ∨ (l.step e).Told [] none ∧ (l.step e).stream.attachment.isSome := by
  cases e with
  | fromGate f => exact .inl H
  | back =>
    simp only [Leg.step]
    split <;> exact .inl H
  | arrive env =>
    simp only [Leg.step]
    cases hf : l.pipe.toHost[l.arrived]? with
    | none => exact .inl H
    | some f =>
      cases f with
      | text payload | binary payload =>
        rcases H.receive env payload with idle | ⟨t, size, repo, heard, hjoined, hinput, hm⟩
        · exact .inl idle
        · right
          have silent := hasks l.arrived _ size repo hf hm
          have nothing : Message.payloads
              (Frame.messages (l.pipe.toHost.take (l.arrived + 1))) = [] := by
            rw [payloads_arrive hf, arrivals, silent]
            simp [Frame.message?, Frame.payload?, hm, Message.payload]
          refine ⟨⟨t, heard, hinput ▸ List.nil_prefix, ?_⟩, hjoined⟩
          intro _ _
          exact hinput.trans nothing.symm
      | signal => exact .inl H
      | close =>
        left
        simp only [withStream, take, Host.Stream.hangUp]
        split
        · exact H.endReading
        · exact H
  | send => exact .inl (H.kept (Host.Stream.kept_sendNext _ _))
  | stop => exact .inl (H.kept (Host.Stream.kept_stopWriting _ _))
  | lose =>
    simp only [Leg.step]
    split
    · exact .inl (H.kept (Host.Stream.kept_endWriting _ _))
    · exact .inl H
  | notice =>
    left
    simp only [Leg.step, withStream, Host.Stream.notice]
    split
    · exact H.endReading
    · exact H
  | print chunk =>
    have same : l.host.publish chunk = l.host := by
      simp [Host.publish, Host.onTerminal, H.terminal]
    exact .inl (by simpa only [Leg.step, same] using H)
  | exit code =>
    have same : l.host.recordExit code = l.host := by
      simp [Host.recordExit, Host.onTerminal, H.terminal]
    exact .inl (by simpa only [Leg.step, same] using H)

theorem sends_step (l : Leg) (e : Event) : l.stream.Sends (l.step e).stream := by
  cases e with
  | arrive env =>
    simp only [step]
    split
    · next f _ =>
      cases f with
      | text payload | binary payload =>
        exact (Host.Stream.sameWriter_receive _ _ env payload).sends
      | signal => exact Host.Stream.SameWriter.sends ⟨rfl, rfl⟩
      | close =>
        simp only [withStream, take, Host.Stream.hangUp]
        split <;> exact Host.Stream.SameWriter.sends ⟨rfl, rfl⟩
    · exact Host.Stream.SameWriter.sends ⟨rfl, rfl⟩
  | back =>
    simp only [step]
    split <;> exact Host.Stream.SameWriter.sends ⟨rfl, rfl⟩
  | send => exact Host.Stream.sends_sendNext _ _
  | stop =>
    simp only [step, withStream, Host.Stream.stopWriting]
    split
    · exact Host.Stream.sends_endWriting _ l.host
    · exact Host.Stream.SameWriter.sends ⟨rfl, rfl⟩
  | lose =>
    simp only [step]
    split
    · exact Host.Stream.sends_endWriting _ l.host
    · exact Host.Stream.SameWriter.sends ⟨rfl, rfl⟩
  | notice =>
    simp only [step, withStream, Host.Stream.notice]
    split <;> exact Host.Stream.SameWriter.sends ⟨rfl, rfl⟩
  | fromGate | print | exit => exact Host.Stream.SameWriter.sends ⟨rfl, rfl⟩

theorem framesOf_step (l : Leg) (e : Event) : framesOf l.stream <+: framesOf (l.step e).stream := by
  obtain ⟨more, hsent, hended⟩ := sends_step l e
  rw [framesOf, framesOf, hsent]
  exact Frame.ofSender_prefix hended

/-- The pipe has passed on what has arrived from the host, up to its end. -/
structure PassedDown (l : Leg) : Prop where
  returned_le : l.returned ≤ (framesOf l.stream).length
  messages : ∃ rest, Frame.messages ((framesOf l.stream).take l.returned) =
    Frame.messages l.pipe.toGate ++ rest ∧ (l.pipe.isOpen → rest = [])

theorem PassedDown.step {l : Leg} (h : l.PassedDown) (e : Event) : (l.step e).PassedDown := by
  obtain ⟨rest, hrest, hopen⟩ := h.messages
  obtain ⟨more, hmore⟩ := framesOf_step l e
  have taken : (framesOf (l.step e).stream).take l.returned =
      (framesOf l.stream).take l.returned := by
    rw [← hmore, take_append h.returned_le]
  have le : l.returned ≤ (framesOf (l.step e).stream).length := by
    rw [← hmore, List.length_append]
    exact Nat.le_add_right_of_le h.returned_le
  cases e with
  | back =>
    simp only [Leg.step]
    cases hf : (framesOf l.stream)[l.returned]? with
    | none => exact h
    | some f =>
      obtain ⟨new, hnew, hmessages⟩ := l.pipe.toGate_fromHost f
      refine ⟨(List.getElem?_eq_some_iff.mp hf).1, ?_⟩
      show ∃ rest, Frame.messages ((framesOf l.stream).take (l.returned + 1)) =
        Frame.messages (l.pipe.fromHost f).toGate ++ rest ∧ ((l.pipe.fromHost f).isOpen → rest = [])
      rw [Frame.messages_take_succ hf, hnew, Frame.messages_append]
      exact Edge.Pipe.passed_append h.messages hmessages (Edge.Pipe.isOpen_of_fromHost _ _)
  | fromGate f =>
    obtain ⟨new, hnew, hmessages⟩ := l.pipe.toGate_fromGate f
    refine ⟨le, rest, ?_, fun hnext => hopen (Edge.Pipe.isOpen_of_fromGate _ _ hnext)⟩
    show _ = Frame.messages (l.pipe.fromGate f).toGate ++ rest
    rw [hnew, Frame.messages_append, hmessages, List.append_nil, ← hrest]
    rfl
  | arrive env =>
    have same : (l.step (.arrive env)).returned = l.returned
        ∧ (l.step (.arrive env)).pipe = l.pipe := by
      simp only [Leg.step]
      split <;> exact ⟨rfl, rfl⟩
    refine ⟨same.1.symm ▸ le, rest, ?_, same.2.symm ▸ hopen⟩
    rw [same.1, same.2, taken, hrest]
  | lose =>
    have same : (l.step .lose).returned = l.returned ∧ (l.step .lose).pipe = l.pipe := by
      simp only [Leg.step]
      split <;> exact ⟨rfl, rfl⟩
    refine ⟨same.1.symm ▸ le, rest, ?_, same.2.symm ▸ hopen⟩
    rw [same.1, same.2, taken, hrest]
  | _ => exact ⟨le, rest, (congrArg _ taken).trans hrest, hopen⟩

/-- A stream whose reader has ended subscribes to nothing. -/
theorem attachment_step {l : Leg} (hr : l.stream.reading = false) (e : Event) :
    (l.step e).stream.attachment = l.stream.attachment := by
  cases e with
  | arrive env =>
    simp only [step]
    split
    · next f _ => cases f <;> simp [withStream, take, Host.Stream.receive, Host.Stream.hangUp, hr]
    · rfl
  | back =>
    simp only [step]
    split <;> rfl
  | send => exact (Host.Stream.kept_sendNext _ _).attachment
  | stop => exact (Host.Stream.kept_stopWriting _ _).attachment
  | lose =>
    simp only [step]
    split <;> rfl
  | notice => simp [step, withStream, Host.Stream.notice, hr]
  | fromGate | print | exit => rfl

theorem Told.attachment_step {l : Leg} {since : Bytes} {closing : Option (Bytes × Int32)}
    (H : l.Told since closing) (h : l.stream.attachment = none) (e : Event) :
    (l.step e).stream.attachment = none := by
  obtain ⟨t, heard, -⟩ := H
  have ended : l.stream.reading = false := by
    rw [Bool.eq_false_iff]
    intro hr
    simpa [h] using heard.attached hr
  rw [Leg.attachment_step ended, h]

end Leg
end TermLink
