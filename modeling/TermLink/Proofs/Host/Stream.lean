import TermLink.Host.Stream
import TermLink.Proofs.Host.Basic
import TermLink.Proofs.Message.Output

/-!
# One stream of a host

What a stream has been sent compared with what its terminal printed, whatever the stream, its peer
and the process do next.

## Implementation notes

The stream is the only one of its host. It subscribes in the step in which it is given a terminal,
so `since`, what was printed after that, is all that was printed. `closing` is what was printed
until an exit was recorded, with its code. No operation on the pseudo-terminal fails.
-/

namespace TermLink.Host.Stream

/-- A stream that is opened before there is a terminal has nothing to subscribe to. -/
theorem opened_of_none {h : Host} (hfresh : h.terminal = none) :
    opened h =
      ({ h with room := (h.room.create h.queueDepth).1 },
        { mailbox := (h.room.create h.queueDepth).2 }) := by
  simp [opened, attach, attach?, hfresh]

/-- A stream of a terminal that runs subscribes without being sent anything. -/
theorem attach_of_running {s : Stream} {h : Host} {t : Terminal} (hs : s.attachment = none)
    (ht : h.terminal = some t) (hc : t.exitCode = none) :
    s.attach h =
      ({ h with terminal := some { t with subscribers := (t.subscribers.attach s.mailbox).1 } },
        { s with attachment := some (t.subscribers.lastId + 1) }) := by
  simp [attach, hs, attach?, ht, Terminal.attach, hc]

/-- All messages that were ever queued for the peer. -/
def queued (s : Stream) (h : Host) : List Message := s.sent ++ h.room.held s.mailbox

/-- The output that was ever queued for the peer. -/
def outputs (s : Stream) (h : Host) : List Message := (s.queued h).filter Message.isOutput

/-- What a frame types, if it holds a `data`. -/
def content (frame : Bytes) : Bytes := ((Message.decode? frame).map Message.payload).getD []

/-- A stream that has no terminal yet. -/
structure Idle (s : Stream) (h : Host) : Prop where
  terminal : h.terminal = none
  attachment : s.attachment = none
  outputs : s.outputs h = []

/-- A stream of a terminal that takes all input, and that has printed `since` so far, and until its
exit what `closing` says. -/
structure Heard (s : Stream) (h : Host) (t : Terminal) (since : Bytes)
    (closing : Option (Bytes × Int32)) : Prop where
  terminal : h.terminal = some t
  exitCode : t.exitCode = closing.map (·.2)
  fault : t.pty.fault = none
  sound : t.subscribers.Sound
  owner (x : Subscriber) : x ∈ t.subscribers.members →
    s.attachment = some x.id ∧ x.address = s.mailbox
  attached : s.reading → s.attachment.isSome
  before (all : Bytes) (code : Int32) : closing = some (all, code) → all <+: since
  log : ∃ (chunks : List Bytes) (tail : List Message),
    s.outputs h = chunks.map Message.data ++ tail
    ∧ chunks.flatten <+: (closing.map (·.1)).getD since
    ∧ (tail = [] ∨ ∃ all code, closing = some (all, code) ∧ tail = [.exit code]
      ∧ chunks.flatten = all)
    ∧ (closing = none → ∀ x ∈ t.subscribers.members, chunks.flatten = since)

variable {s next : Stream} {h host : Host} {t u : Terminal} {since : Bytes}
  {closing : Option (Bytes × Int32)}

theorem Heard.apart (H : s.Heard h t since closing) : t.subscribers.Apart := by
  intro x hx y hy _
  have hid : some x.id = some y.id := by rw [← (H.owner x hx).1, (H.owner y hy).1]
  exact H.sound.eq_of_id_eq hx hy (Option.some.inj hid)

/-- Nothing is lost by a step that queues no output and adds no member. -/
theorem Heard.calm (H : s.Heard h t since closing) (hterminal : host.terminal = some u)
    (hexit : u.exitCode = t.exitCode) (hfault : u.pty.fault = none) (hsound : u.subscribers.Sound)
    (hmembers : ∀ x ∈ u.subscribers.members,
      x ∈ t.subscribers.members ∧ next.attachment = s.attachment)
    (hattached : next.reading → next.attachment.isSome)
    (houtputs : next.outputs host = s.outputs h) (hmailbox : next.mailbox = s.mailbox) :
    next.Heard host u since closing where
  terminal := hterminal
  exitCode := hexit.trans H.exitCode
  fault := hfault
  sound := hsound
  owner x hx := by
    obtain ⟨hmem, hsame⟩ := hmembers x hx
    rw [hsame, hmailbox]
    exact H.owner x hmem
  attached := hattached
  before := H.before
  log := by
    obtain ⟨chunks, tail, hout, hle, htail, hall⟩ := H.log
    refine ⟨chunks, tail, houtputs.trans hout, hle, htail, ?_⟩
    intro hc x hx
    exact hall hc x (hmembers x hx).1

theorem outputs_reply (s : Stream) (h : Host) {m : Message} (hm : m.isOutput = false) :
    s.outputs (s.reply h m) = s.outputs h := by
  have held := Mailroom.held_offer h.room s.mailbox s.mailbox m
  cases htakes : h.room.takes s.mailbox <;>
    simp [outputs, queued, reply, held, hm, htakes]

theorem Idle.reply (H : s.Idle h) {m : Message} (hm : m.isOutput = false) :
    s.Idle (s.reply h m) where
  terminal := H.terminal
  attachment := H.attachment
  outputs := (outputs_reply s h hm).trans H.outputs

theorem Heard.reply (H : s.Heard h t since closing) {m : Message} (hm : m.isOutput = false) :
    s.Heard (s.reply h m) t since closing :=
  H.calm H.terminal rfl H.fault H.sound (fun _ hx => ⟨hx, rfl⟩) H.attached (outputs_reply s h hm)
    rfl

theorem Heard.typed (H : s.Heard h t since closing) (bytes : Bytes) :
    s.Heard { h with terminal := some (t.typed bytes) } (t.typed bytes) since closing :=
  H.calm rfl rfl H.fault H.sound (fun _ hx => ⟨hx, rfl⟩) H.attached rfl rfl

theorem Heard.sized (H : s.Heard h t since closing) (g : Geometry) :
    s.Heard { h with terminal := some (t.sized g) } (t.sized g) since closing :=
  H.calm rfl rfl H.fault H.sound (fun _ hx => ⟨hx, rfl⟩) H.attached rfl rfl

theorem Idle.attach (H : s.Idle h) : s.attach h = (h, s) := by
  simp [Stream.attach, H.attachment, attach?, H.terminal]

theorem Heard.attach (H : s.Heard h t since closing) (hr : s.reading) : s.attach h = (h, s) := by
  obtain ⟨i, hi⟩ := Option.isSome_iff_exists.mp (H.attached hr)
  simp [Stream.attach, hi]

theorem Idle.endReading (H : s.Idle h) : (s.endReading h).2.Idle (s.endReading h).1 := by
  have host : (s.endReading h).1 = h := by simp [Stream.endReading, H.attachment]
  rw [host]
  constructor
  · exact H.terminal
  · rfl
  · exact H.outputs

/-- A stream that gives up its subscription leaves no member behind. -/
theorem Heard.endReading (H : s.Heard h t since closing) :
    ∃ u, (s.endReading h).2.Heard (s.endReading h).1 u since closing ∧ u.pty = t.pty
      ∧ u.running = t.running := by
  cases ha : s.attachment with
  | none =>
    refine ⟨t, H.calm ?_ rfl H.fault H.sound ?_ ?_ ?_ rfl, rfl, rfl⟩
    · simp [Stream.endReading, ha, H.terminal]
    · intro x hx
      exact ⟨hx, by simp [Stream.endReading, ha]⟩
    · simp [Stream.endReading]
    · simp [Stream.endReading, ha, outputs, queued]
  | some i =>
    have gone : ∀ x, x ∉ (t.detach i).subscribers.members := by
      intro x hx
      obtain ⟨hmem, hne⟩ := (H.sound.mem_members_detach i x).mp hx
      have hid := (H.owner x hmem).1
      rw [ha] at hid
      exact hne (Option.some.inj hid).symm
    refine ⟨t.detach i, H.calm ?_ rfl H.fault (H.sound.detach i) ?_ ?_ ?_ rfl, rfl, rfl⟩
    · simp [Stream.endReading, ha, Host.detach, H.terminal]
    · intro x hx
      exact absurd hx (gone x)
    · simp [Stream.endReading]
    · simp [Stream.endReading, ha, Host.detach, outputs, queued]

/-- A stream is subscribed to a terminal that was just started before anything is printed. -/
theorem Idle.started (H : s.Idle h) {ceiling : Nat} (hnew : t.IsNew ceiling)
    {workspace : Checkout.Workspace} :
    (s.attach { h with workspace, terminal := some t }).2.Heard
        (s.attach { h with workspace, terminal := some t }).1
        { t with subscribers := (t.subscribers.attach s.mailbox).1 } [] none
      ∧ (s.attach { h with workspace, terminal := some t }).2.attachment.isSome := by
  have sound : t.subscribers.Sound := by
    rw [hnew.subscribers]
    exact Subscribers.sound_empty
  rw [attach_of_running H.attachment rfl hnew.exitCode]
  refine ⟨?_, rfl⟩
  constructor
  · rfl
  · exact hnew.exitCode
  · exact hnew.fault
  · exact sound.attach s.mailbox
  · intro x hx
    have nobody : x ∉ t.subscribers.members := by simp [hnew.subscribers, Subscribers.members]
    rcases (sound.mem_members_attach s.mailbox x).mp hx with rfl | hmem
    · exact ⟨rfl, rfl⟩
    · exact absurd hmem nobody
  · intro _
    rfl
  · intro all code hclosing
    cases hclosing
  · exact ⟨[], [], H.outputs, List.prefix_refl _, .inl rfl, fun _ _ _ => rfl⟩

/-- What a stream without a terminal does with a frame: it stays without one, or is given one by an
`init`. -/
theorem Idle.receive (H : s.Idle h) (env : Environment) (frame : Bytes) :
    (s.receive h env frame).2.Idle (s.receive h env frame).1
      ∨ ∃ t size repo, (s.receive h env frame).2.Heard (s.receive h env frame).1 t [] none
        ∧ (s.receive h env frame).2.attachment.isSome
        ∧ t.pty.input = [] ∧ Message.decode? frame = some (.init size repo) := by
  by_cases hr : s.reading
  · simp only [Stream.receive, hr, if_true, Message.decode?]
    cases hd : Message.decode frame with
    | error e => exact .inl ⟨H.terminal, H.attachment, H.outputs⟩
    | ok m =>
      cases m with
      | init size repo =>
        rcases establish_cases h env size repo with
          ⟨t, started, ht, -⟩ | ⟨workspace, e, he⟩ | ⟨-, workspace, t, started, hnew, he⟩
        · exact absurd (H.terminal.symm.trans ht) (by simp)
        · left
          have idle : s.Idle { h with workspace } := ⟨H.terminal, H.attachment, H.outputs⟩
          simp only [act, establish, he]
          exact idle.reply rfl
        · right
          have joined : (s.act h env (.init size repo)).2.Heard (s.act h env (.init size repo)).1
                { t with subscribers := (t.subscribers.attach s.mailbox).1 } [] none
              ∧ (s.act h env (.init size repo)).2.attachment.isSome := by
            simp only [act, establish, he]
            cases started.warning with
            | none => exact H.started hnew
            | some warning => exact (H.reply rfl).started hnew
          exact ⟨_, size, repo, joined.1, joined.2, hnew.input, rfl⟩
      | data payload | resize size =>
        left
        simp only [act, input, H.attach, write_of_none H.terminal]
        exact H.reply rfl
      | ping timestamp => exact .inl (H.reply rfl)
      | exit code => exact .inl H.endReading
      | pong | error | status => exact .inl H
  · simp only [Stream.receive, hr]
    exact .inl H

theorem content_of_decode {frame : Bytes} {m : Message} (hd : Message.decode frame = .ok m) :
    content frame = m.payload := by
  simp [content, Message.decode?, hd, Except.toOption]

/-- What a stream with a terminal does with a frame: it types what the frame holds while it reads
and the process runs. -/
theorem Heard.receive (H : s.Heard h t since closing) (env : Environment) (frame : Bytes) :
    ∃ u, (s.receive h env frame).2.Heard (s.receive h env frame).1 u since closing
      ∧ u.running = t.running
      ∧ u.pty.input = t.pty.input ++ if s.reading && t.running then content frame else [] := by
  by_cases hr : s.reading
  · simp only [Stream.receive, hr, if_true, Bool.true_and]
    cases hd : Message.decode frame with
    | error e =>
      refine ⟨t, ?_, rfl, ?_⟩
      · exact H.calm H.terminal rfl H.fault H.sound (fun _ hx => ⟨hx, rfl⟩) H.attached rfl rfl
      · simp [content, Message.decode?, hd, Except.toOption]
    | ok m =>
      rw [content_of_decode hd]
      cases m with
      | init size repo =>
        obtain ⟨started, hwarning, he⟩ := establish_sized H.terminal H.fault env size repo
        refine ⟨t.sized size, ?_, rfl, by simp [Message.payload, Terminal.sized]⟩
        simp only [act, establish, he, hwarning]
        rw [(H.sized size).attach hr]
        exact H.sized size
      | data payload =>
        simp only [act, input, H.attach hr, Message.payload]
        cases hrun : t.running with
        | true =>
          rw [write_data_of_running H.terminal hrun H.fault]
          exact ⟨_, H.typed payload, hrun, rfl⟩
        | false =>
          rw [write_data_of_not_running H.terminal hrun]
          exact ⟨t, H.reply rfl, hrun, by simp⟩
      | resize size =>
        simp only [act, input, H.attach hr, Message.payload]
        rw [write_resize H.terminal H.fault]
        exact ⟨_, H.sized size, rfl, by simp [Terminal.sized]⟩
      | ping timestamp => exact ⟨t, H.reply rfl, rfl, by simp [Message.payload]⟩
      | exit code =>
        obtain ⟨u, hu, hpty, hrun⟩ := H.endReading
        exact ⟨u, hu, hrun, by simp [hpty, Message.payload]⟩
      | pong | error | status => exact ⟨t, H, rfl, by simp [Message.payload]⟩
  · simp only [Stream.receive, hr]
    exact ⟨t, H, rfl, by simp⟩

theorem Heard.hangUp (H : s.Heard h t since closing) :
    ∃ u, (s.hangUp h).2.Heard (s.hangUp h).1 u since closing ∧ u.pty = t.pty
      ∧ u.running = t.running := by
  simp only [Stream.hangUp]
  split
  · exact H.endReading
  · exact ⟨t, H, rfl, rfl⟩

theorem Heard.notice (H : s.Heard h t since closing) :
    ∃ u, (s.notice h).2.Heard (s.notice h).1 u since closing ∧ u.pty = t.pty
      ∧ u.running = t.running := by
  simp only [Stream.notice]
  split
  · exact H.endReading
  · exact ⟨t, H, rfl, rfl⟩

theorem outputs_endWriting (s : Stream) (h : Host) :
    (s.endWriting h).2.outputs (s.endWriting h).1 = s.outputs h := by
  simp [endWriting, outputs, queued, Mailroom.held_close]

theorem queued_sendNext (s : Stream) (h : Host) :
    (s.sendNext h).2.queued (s.sendNext h).1 = s.queued h := by
  simp only [sendNext]
  split
  · cases ht : h.room.take? s.mailbox with
    | none => rfl
    | some e =>
      obtain ⟨m, room⟩ := e
      have held := Mailroom.held_take? ht s.mailbox
      rw [if_pos rfl] at held
      cases m <;> simp [queued, held, endWriting, Mailroom.held_close]
  · rfl

/-- The duties of a stream change neither its terminal nor what was queued for the peer. -/
structure Kept (s : Stream) (h : Host) (next : Stream) (host : Host) : Prop where
  terminal : host.terminal = h.terminal
  mailbox : next.mailbox = s.mailbox
  attachment : next.attachment = s.attachment
  reading : next.reading = s.reading
  outputs : next.outputs host = s.outputs h

theorem kept_endWriting (s : Stream) (h : Host) :
    s.Kept h (s.endWriting h).2 (s.endWriting h).1 :=
  ⟨rfl, rfl, rfl, rfl, outputs_endWriting s h⟩

theorem kept_sendNext (s : Stream) (h : Host) : s.Kept h (s.sendNext h).2 (s.sendNext h).1 := by
  have outputs : (s.sendNext h).2.outputs (s.sendNext h).1 = s.outputs h := by
    rw [Stream.outputs, queued_sendNext]
    rfl
  constructor
  case outputs => exact outputs
  all_goals
    simp only [sendNext]
    split
    · split
      · split <;> rfl
      · rfl
    · rfl

theorem kept_stopWriting (s : Stream) (h : Host) :
    s.Kept h (s.stopWriting h).2 (s.stopWriting h).1 := by
  simp only [stopWriting]
  split
  · exact kept_endWriting s h
  · exact ⟨rfl, rfl, rfl, rfl, rfl⟩

theorem Idle.kept (H : s.Idle h) (k : s.Kept h next host) : next.Idle host where
  terminal := k.terminal.trans H.terminal
  attachment := k.attachment.trans H.attachment
  outputs := k.outputs.trans H.outputs

theorem Heard.kept (H : s.Heard h t since closing) (k : s.Kept h next host) :
    next.Heard host t since closing := by
  have attached : next.reading → next.attachment.isSome := by
    rw [k.reading, k.attachment]
    exact H.attached
  exact H.calm (k.terminal.trans H.terminal) rfl H.fault H.sound (fun _ hx => ⟨hx, k.attachment⟩)
    attached k.outputs k.mailbox

theorem Heard.closing_eq_none (H : s.Heard h t since closing) (hc : t.exitCode = none) :
    closing = none := Option.map_eq_none_iff.mp (H.exitCode.symm.trans hc)

/-- What a broadcast of output adds to what was queued for the peer. -/
theorem outputs_of_served {next : Subscribers} {last : Mailroom} {m : Message} (hm : m.isOutput)
    (served : t.subscribers.Served h.room m next last) (u : Option Terminal) :
    s.outputs { h with terminal := u, room := last } =
      s.outputs h ++
        if t.subscribers.serves s.mailbox && h.room.takes s.mailbox then [m] else [] := by
  have boxes := served.box? s.mailbox
  cases hserves : t.subscribers.serves s.mailbox with
  | true =>
    rw [hserves, if_pos rfl] at boxes
    have held := Mailroom.held_of_offered boxes
    cases hr : h.room.takes s.mailbox <;> simp [outputs, queued, held, hr, hm]
  | false =>
    rw [hserves, if_neg Bool.false_ne_true] at boxes
    have held := Mailroom.held_congr boxes
    simp [outputs, queued, held]

/-- Where a broadcast does not reach the peer, no member is left. -/
theorem Heard.no_members (H : s.Heard h t since closing) {next : Subscribers} {last : Mailroom}
    {m : Message} (served : t.subscribers.Served h.room m next last)
    (hreach : (t.subscribers.serves s.mailbox && h.room.takes s.mailbox) = false)
    (x : Subscriber) : x ∉ next.members := by
  intro hx
  obtain ⟨hmem, htakes⟩ := (served.mem_members x).mp hx
  have address := (H.owner x hmem).2
  have serves : t.subscribers.serves s.mailbox := by
    simp only [Subscribers.serves, List.any_eq_true, decide_eq_true_eq]
    exact ⟨x, hmem, address⟩
  rw [address] at htakes
  simp [serves, htakes] at hreach

/-- Before the exit, only output was queued for the peer. -/
theorem Heard.log_of_running (H : s.Heard h t since none) :
    ∃ chunks : List Bytes, s.outputs h = chunks.map Message.data ∧ chunks.flatten <+: since
      ∧ ∀ x ∈ t.subscribers.members, chunks.flatten = since := by
  obtain ⟨chunks, tail, hout, hle, htail, hall⟩ := H.log
  rcases htail with rfl | ⟨all, code, hclosing, -⟩
  · rw [List.append_nil] at hout
    exact ⟨chunks, hout, hle, hall rfl⟩
  · cases hclosing

/-- Where a broadcast reaches the peer, it has been sent all that was printed. -/
theorem Heard.flatten_eq (H : s.Heard h t since none)
    (hreach : t.subscribers.serves s.mailbox && h.room.takes s.mailbox) :
    ∃ chunks : List Bytes, s.outputs h = chunks.map Message.data ∧ chunks.flatten = since := by
  obtain ⟨chunks, hout, -, hall⟩ := H.log_of_running
  simp only [Bool.and_eq_true, Subscribers.serves, List.any_eq_true] at hreach
  obtain ⟨⟨x, hx, -⟩, -⟩ := hreach
  exact ⟨chunks, hout, hall x hx⟩

/-- What is printed reaches the peer while it is a member, and is counted in any case. -/
theorem Heard.publish (H : s.Heard h t since closing) (chunk : Bytes) :
    ∃ u, s.Heard (h.publish chunk) u (since ++ chunk) closing ∧ u.pty = t.pty
      ∧ u.running = t.running := by
  refine ⟨(t.publish h.room chunk).1, ?_, by simp, by simp⟩
  rw [publish_eq H.terminal]
  cases hc : t.exitCode with
  | some code =>
    obtain ⟨⟨all, c⟩, rfl, rfl⟩ := Option.map_eq_some_iff.mp (H.exitCode.symm.trans hc)
    obtain ⟨chunks, tail, hout, hle, htail, -⟩ := H.log
    rw [Terminal.publish_of_exit h.room chunk hc]
    refine ⟨rfl, H.exitCode, H.fault, H.sound, H.owner, H.attached, ?_, ?_⟩
    · intro all' code' heq
      exact (H.before all' code' heq).trans (List.prefix_append _ _)
    · refine ⟨chunks, tail, hout, hle, htail, ?_⟩
      intro hnone
      cases hnone
  | none =>
    obtain rfl := H.closing_eq_none hc
    have served := Terminal.served_publish h.room chunk H.sound H.apart hc
    have outputs := outputs_of_served (s := s) rfl served (some (t.publish h.room chunk).1)
    have fault : (t.publish h.room chunk).1.pty.fault = none := by simp [H.fault]
    refine ⟨rfl, by simpa using hc, fault, served.sound, ?_, H.attached, ?_, ?_⟩
    · intro x hx
      exact H.owner x ((served.mem_members x).mp hx).1
    · intro all code heq
      cases heq
    · cases hreach : t.subscribers.serves s.mailbox && h.room.takes s.mailbox with
      | true =>
        obtain ⟨chunks, hout, hall⟩ := H.flatten_eq hreach
        rw [hreach, if_pos rfl, hout] at outputs
        have joined : (chunks ++ [chunk]).flatten = since ++ chunk := by simp [hall]
        refine ⟨chunks ++ [chunk], [], by simpa using outputs, ?_, .inl rfl, ?_⟩
        · simp [hall]
        · intro _ _ _
          exact joined
      | false =>
        obtain ⟨chunks, tail, hout, hle, htail, -⟩ := H.log
        rw [hreach, if_neg Bool.false_ne_true, List.append_nil, hout] at outputs
        refine ⟨chunks, tail, outputs, hle.trans (List.prefix_append _ _), htail, ?_⟩
        intro _ x hx
        exact absurd hx (H.no_members served hreach x)

/-- An exit that is recorded first is told to the peer while it is a member. -/
theorem Heard.recordExit (H : s.Heard h t since closing) (code : Int32) :
    ∃ u, s.Heard (h.recordExit code) u since (closing.or (some (since, code)))
      ∧ u.pty = t.pty ∧ (u.running → t.running) := by
  rw [recordExit_eq H.terminal]
  cases hc : t.exitCode with
  | some first =>
    obtain ⟨⟨all, c⟩, rfl, rfl⟩ := Option.map_eq_some_iff.mp (H.exitCode.symm.trans hc)
    rw [Terminal.recordExit_of_exit h.room code hc]
    exact ⟨t, H.calm rfl rfl H.fault H.sound (fun _ hx => ⟨hx, rfl⟩) H.attached rfl rfl, rfl, id⟩
  | none =>
    obtain rfl := H.closing_eq_none hc
    have served := Terminal.served_recordExit h.room code H.sound H.apart hc
    have outputs := outputs_of_served (s := s) rfl served (some (t.recordExit h.room code).1)
    refine ⟨(t.recordExit h.room code).1, ?_, by simp, ?_⟩
    · refine ⟨rfl, by simp [Terminal.exitCode_recordExit, hc], by simp [H.fault], served.sound, ?_,
        H.attached, ?_, ?_⟩
      · intro x hx
        exact H.owner x ((served.mem_members x).mp hx).1
      · intro all' code' heq
        obtain ⟨rfl, -⟩ := Prod.mk.inj (Option.some.inj heq)
        exact List.prefix_refl _
      · cases hreach : t.subscribers.serves s.mailbox && h.room.takes s.mailbox with
        | true =>
          obtain ⟨chunks, hout, hall⟩ := H.flatten_eq hreach
          rw [hreach, if_pos rfl, hout] at outputs
          refine ⟨chunks, [.exit code], outputs, by simp [hall], .inr ?_, ?_⟩
          · exact ⟨since, code, rfl, rfl, hall⟩
          · intro hnone
            cases hnone
        | false =>
          obtain ⟨chunks, hout, hle, -⟩ := H.log_of_running
          rw [hreach, if_neg Bool.false_ne_true, List.append_nil, hout] at outputs
          refine ⟨chunks, [], by simpa using outputs, hle, .inl rfl, ?_⟩
          intro hnone
          cases hnone
    · have stopped : (t.recordExit h.room code).1.running = false := by
        simp [Terminal.recordExit, hc, Terminal.broadcast]
      simp [stopped]

/-- The reader sends nothing itself. -/
def SameWriter (s next : Stream) : Prop := next.sent = s.sent ∧ next.writing = s.writing

theorem sameWriter_attach (s : Stream) (h : Host) : s.SameWriter (s.attach h).2 := by
  simp only [Stream.attach]
  split
  · exact ⟨rfl, rfl⟩
  · split <;> exact ⟨rfl, rfl⟩

theorem sameWriter_receive (s : Stream) (h : Host) (env : Environment) (frame : Bytes) :
    s.SameWriter (s.receive h env frame).2 := by
  simp only [Stream.receive]
  split
  · split
    · next m _ =>
      cases m with
      | init size repo =>
        simp only [act, establish]
        split
        · exact sameWriter_attach s _
        · exact ⟨rfl, rfl⟩
      | data payload | resize size =>
        simp only [act, input]
        split <;> exact sameWriter_attach s h
      | _ => exact ⟨rfl, rfl⟩
    · exact ⟨rfl, rfl⟩
  · exact ⟨rfl, rfl⟩

/-- What was sent stays sent, and a writer that has ended sends nothing more. -/
def Sends (s next : Stream) : Prop :=
  ∃ more, next.sent = s.sent ++ more ∧ (s.writing = true ∨ more = [] ∧ next.writing = false)

theorem SameWriter.sends {s next : Stream} (h : s.SameWriter next) : s.Sends next := by
  refine ⟨[], by simp [h.1], ?_⟩
  cases hw : s.writing with
  | true => exact .inl rfl
  | false => exact .inr ⟨rfl, h.2.trans hw⟩

theorem sends_endWriting (s : Stream) (h : Host) : s.Sends (s.endWriting h).2 :=
  ⟨[], by simp [endWriting], .inr ⟨rfl, rfl⟩⟩

theorem sends_sendNext (s : Stream) (h : Host) : s.Sends (s.sendNext h).2 := by
  simp only [sendNext]
  split
  · split
    · split <;> exact ⟨_, rfl, .inl ‹_›⟩
    · exact SameWriter.sends ⟨rfl, rfl⟩
  · exact SameWriter.sends ⟨rfl, rfl⟩

end TermLink.Host.Stream
