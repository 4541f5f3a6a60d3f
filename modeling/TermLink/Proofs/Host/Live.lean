import TermLink.Proofs.Deed
import TermLink.Proofs.Host.Stream

/-!
# A stream that keeps up

A stream that is the only member of its terminal, and that is never so far behind that its mailbox
is full. What is printed waits in the mailbox until the writer sends it, and nothing is lost.
-/

namespace TermLink.Host.Stream

/-- A stream of a terminal, in whose mailbox messages wait, and whose two duties go on. -/
structure Live (s : Stream) (h : Host) (t : Terminal) (depth : Nat) (waiting : List Message) :
    Prop where
  terminal : h.terminal = some t
  running : t.running = t.exitCode.isNone
  fault : t.pty.fault = none
  sound : t.subscribers.Sound
  member (x : Subscriber) : x ∈ t.subscribers.members ↔
    s.attachment = some x.id ∧ x.address = s.mailbox
  joined : ∃ i, s.attachment = some i ∧ i ∉ t.subscribers.evicted
  box : h.room.box? s.mailbox = some { capacity := depth, queued := waiting }
  reading : s.reading = true
  writing : s.writing = true
  ending : s.ending = false

variable {s : Stream} {h : Host} {t : Terminal} {depth : Nat} {waiting : List Message}

theorem Live.apart (H : s.Live h t depth waiting) : t.subscribers.Apart := by
  intro x hx y hy _
  have hid : some x.id = some y.id := by
    rw [← ((H.member x).mp hx).1, ← ((H.member y).mp hy).1]
  exact H.sound.eq_of_id_eq hx hy (Option.some.inj hid)

theorem Live.serves (H : s.Live h t depth waiting) : t.subscribers.serves s.mailbox = true := by
  obtain ⟨i, hi, -⟩ := H.joined
  simp only [Subscribers.serves, List.any_eq_true, decide_eq_true_eq]
  exact ⟨⟨i, s.mailbox⟩, (H.member _).mpr ⟨hi, rfl⟩, rfl⟩

theorem Live.takes (H : s.Live h t depth waiting) (hroom : waiting.length < depth) :
    h.room.takes s.mailbox = true := by
  simp [Mailroom.takes, H.box, Mailbox.accepts, hroom]

theorem Live.attach (H : s.Live h t depth waiting) : s.attach h = (h, s) := by
  obtain ⟨i, hi, -⟩ := H.joined
  simp [Stream.attach, hi]

theorem Live.isEvicted (H : s.Live h t depth waiting) : s.isEvicted h = false := by
  obtain ⟨i, hi, hkept⟩ := H.joined
  simpa [Stream.isEvicted, hi, H.terminal] using hkept

/-- Neither duty has a reason to end. -/
theorem Live.notice (H : s.Live h t depth waiting) : s.notice h = (h, s) := by
  simp [Stream.notice, H.ending, H.isEvicted]

theorem Live.stopWriting (H : s.Live h t depth waiting) : s.stopWriting h = (h, s) := by
  simp [Stream.stopWriting, H.ending]

theorem Live.waiting_eq (H : s.Live h t depth waiting) : s.waiting h = waiting.length := by
  simp [Stream.waiting, H.box]

/-- A message that is served to the members of the terminal waits for the writer. -/
theorem Live.served (H : s.Live h t depth waiting) (hroom : waiting.length < depth) {m : Message}
    {u : Terminal} {last : Mailroom} (served : t.subscribers.Served h.room m u.subscribers last)
    (hrunning : u.running = u.exitCode.isNone) (hfault : u.pty.fault = none) :
    s.Live { h with terminal := some u, room := last } u depth (waiting ++ [m]) where
  terminal := rfl
  running := hrunning
  fault := hfault
  sound := served.sound
  member x := by
    rw [served.mem_members, H.member]
    constructor
    · exact And.left
    · intro hx
      refine ⟨hx, ?_⟩
      rw [hx.2]
      exact H.takes hroom
  joined := by
    obtain ⟨i, hi, hkept⟩ := H.joined
    refine ⟨i, hi, ?_⟩
    intro hmem
    rcases (served.mem_evicted i).mp hmem with ⟨x, hx, -, hdeaf⟩ | hmem
    · rw [((H.member x).mp hx).2, H.takes hroom] at hdeaf
      cases hdeaf
    · exact hkept hmem
  box := by
    have accepts : Mailbox.accepts { capacity := depth, queued := waiting } = true := by
      simp [Mailbox.accepts, hroom]
    rw [served.box?, H.serves, if_pos rfl, H.box]
    exact congrArg some (Mailbox.offered_of_accepts accepts m)
  reading := H.reading
  writing := H.writing
  ending := H.ending

/-- What is printed waits for the writer. -/
theorem Live.publish (H : s.Live h t depth waiting) (hroom : waiting.length < depth)
    (hc : t.exitCode = none) (chunk : Bytes) :
    ∃ u, s.Live (h.publish chunk) u depth (waiting ++ [.data chunk]) ∧ u.pty = t.pty
      ∧ u.exitCode = none := by
  have served := Terminal.served_publish h.room chunk H.sound H.apart hc
  refine ⟨(t.publish h.room chunk).1, ?_, by simp, by simp [hc]⟩
  rw [publish_eq H.terminal]
  exact H.served hroom served (by simp [H.running]) (by simp [H.fault])

/-- An exit that is reported waits for the writer. -/
theorem Live.recordExit (H : s.Live h t depth waiting) (hroom : waiting.length < depth)
    (hc : t.exitCode = none) (code : Int32) :
    ∃ u, s.Live (h.recordExit code) u depth (waiting ++ [.exit code]) ∧ u.pty = t.pty
      ∧ u.exitCode = some code := by
  have served := Terminal.served_recordExit h.room code H.sound H.apart hc
  refine ⟨(t.recordExit h.room code).1, ?_, by simp, by simp [Terminal.exitCode_recordExit, hc]⟩
  rw [recordExit_eq H.terminal]
  exact H.served hroom served (Terminal.running_recordExit t h.room code H.running)
    (by simp [H.fault])

theorem Live.withPty (H : s.Live h t depth waiting) {pty : Pty} (hfault : pty.fault = none) :
    s.Live { h with terminal := some { t with pty } } { t with pty } depth waiting :=
  ⟨rfl, H.running, hfault, H.sound, H.member, H.joined, H.box, H.reading, H.writing, H.ending⟩

theorem Live.reply (H : s.Live h t depth waiting) (hroom : waiting.length < depth) (m : Message) :
    s.Live (s.reply h m) t depth (waiting ++ [m]) := by
  have accepts : Mailbox.accepts { capacity := depth, queued := waiting } = true := by
    simp [Mailbox.accepts, hroom]
  refine ⟨H.terminal, H.running, H.fault, H.sound, H.member, H.joined, ?_, H.reading, H.writing,
    H.ending⟩
  rw [Stream.reply, Mailroom.box?_offer, if_pos rfl, H.box]
  exact congrArg some (Mailbox.offered_of_accepts accepts m)

/-- What comes of a frame while the process runs. -/
theorem Live.receive (H : s.Live h t depth waiting) (hroom : waiting.length < depth)
    (hc : t.exitCode = none) (env : Environment) (payload : Bytes) :
    match (Frame.text payload).deed with
    | .nothing => ∃ host, s.receive h env payload = (host, s) ∧ s.Live host t depth waiting
    | .input i => ∃ host, s.receive h env payload = (host, s)
        ∧ s.Live host { t with pty := t.pty.given i } depth waiting
    | .answer timestamp => ∃ host, s.receive h env payload = (host, s)
        ∧ s.Live host t depth (waiting ++ [.pong timestamp])
    | .leave => s.receive h env payload = s.endReading h := by
  have running : t.running = true := by
    rw [H.running, hc]
    rfl
  have given (i : Input) : (t.pty.given i).fault = none := by simp [H.fault]
  simp only [Frame.deed, Stream.receive, H.reading, if_true, Message.decode?]
  cases hd : Message.decode payload with
  | error e =>
    exact ⟨_, rfl, H.terminal, H.running, H.fault, H.sound, H.member, H.joined, H.box, H.reading,
      H.writing, H.ending⟩
  | ok m =>
    cases m with
    | init size repo =>
      obtain ⟨started, hwarning, he⟩ := establish_sized H.terminal H.fault env size repo
      have resized := H.withPty (given (.size size))
      refine ⟨_, ?_, resized⟩
      simp only [act, establish, he, hwarning]
      exact resized.attach
    | data bytes =>
      refine ⟨_, ?_, H.withPty (given (.bytes bytes))⟩
      simp only [act, input, H.attach]
      rw [write_data_of_running H.terminal running H.fault]
      rfl
    | resize size =>
      refine ⟨_, ?_, H.withPty (given (.size size))⟩
      simp only [act, input, H.attach]
      rw [write_resize H.terminal H.fault]
      rfl
    | ping timestamp => exact ⟨_, rfl, H.reply hroom (.pong timestamp)⟩
    | exit code => rfl
    | pong | error | status => exact ⟨h, rfl, H⟩

theorem Live.withSent (H : s.Live h t depth waiting) (sent : List Message) :
    { s with sent }.Live h t depth waiting :=
  ⟨H.terminal, H.running, H.fault, H.sound, H.member, H.joined, H.box, H.reading, H.writing,
    H.ending⟩

/-- The writer sends the message that waits first. -/
theorem Live.take {m : Message} {rest : List Message} (H : s.Live h t depth (m :: rest)) :
    ∃ room, h.room.take? s.mailbox = some (m, room) ∧ s.Live { h with room } t depth rest := by
  refine ⟨h.room.update s.mailbox Mailbox.dropOldest, by simp [Mailroom.take?, H.box], ?_⟩
  refine ⟨H.terminal, H.running, H.fault, H.sound, H.member, H.joined, ?_, H.reading, H.writing,
    H.ending⟩
  rw [Mailroom.box?_update_self, H.box]
  rfl

/-- The writer sends what waits first, unless it is an `exit`. -/
theorem Live.sendMany {ms rest : List Message} (H : s.Live h t depth (ms ++ rest))
    (hms : ∀ code, Message.exit code ∉ ms) (n : Nat) :
    ∃ host, { s with sent := s.sent ++ ms }.Live host t depth rest
      ∧ s.sendMany h (ms.length + n) = { s with sent := s.sent ++ ms }.sendMany host n := by
  induction ms generalizing s h with
  | nil => exact ⟨h, by simpa using H.withSent s.sent, by simp⟩
  | cons m ms ih =>
    obtain ⟨room, htake, hlive⟩ := H.take
    have sent : s.sendNext h = ({ h with room }, { s with sent := s.sent ++ [m] }) := by
      simp only [sendNext, H.writing, if_true, htake]
      cases m with
      | exit code => exact absurd (by simp) (hms code)
      | _ => rfl
    have later : ∀ code, Message.exit code ∉ ms := by
      intro code hmem
      exact hms code (List.mem_cons_of_mem _ hmem)
    obtain ⟨host, hlast, heq⟩ := ih (hlive.withSent (s.sent ++ [m])) later
    refine ⟨host, by simpa using hlast, ?_⟩
    rw [List.length_cons, Nat.add_right_comm, Stream.sendMany]
    simpa [sent] using heq

/-- The writer ends once it has sent an `exit`. -/
theorem Live.sendMany_exit {ms : List Message} {code : Int32}
    (H : s.Live h t depth (ms ++ [.exit code])) (hms : ∀ code, Message.exit code ∉ ms) :
    ∃ host : Host, host.terminal = some t ∧ s.sendMany h (ms.length + 1) =
      { s with sent := s.sent ++ ms ++ [Message.exit code] }.endWriting host := by
  obtain ⟨host, hlive, heq⟩ := H.sendMany hms 1
  obtain ⟨room, htake, -⟩ := hlive.take
  refine ⟨{ host with room }, hlive.terminal, ?_⟩
  have writing : s.writing = true := H.writing
  have take : host.room.take? s.mailbox = some (.exit code, room) := htake
  rw [heq]
  simp only [Stream.sendMany, sendNext, writing, if_true, take]

/-- A stream subscribes to a terminal that was just started. -/
theorem live_attach (hattachment : s.attachment = none) (hreading : s.reading = true)
    (hwriting : s.writing = true) (hending : s.ending = false) (hterminal : h.terminal = some t)
    {ceiling : Nat} (hnew : t.IsNew ceiling)
    (hbox : h.room.box? s.mailbox = some { capacity := depth, queued := waiting }) :
    ∃ u, (s.attach h).2.Live (s.attach h).1 u depth waiting ∧ u.pty = t.pty ∧ u.exitCode = none
      ∧ (s.attach h).2.sent = s.sent := by
  have sound : t.subscribers.Sound := by
    rw [hnew.subscribers]
    exact Subscribers.sound_empty
  have nobody (x : Subscriber) : x ∉ t.subscribers.members := by
    simp [hnew.subscribers, Subscribers.members]
  rw [attach_of_running hattachment hterminal hnew.exitCode]
  refine ⟨{ t with subscribers := (t.subscribers.attach s.mailbox).1 }, ?_, rfl, hnew.exitCode, rfl⟩
  constructor
  · rfl
  · rw [hnew.running, hnew.exitCode]
    rfl
  · exact hnew.fault
  · exact sound.attach s.mailbox
  · intro x
    rw [sound.mem_members_attach]
    constructor
    · rintro (rfl | hx)
      · exact ⟨rfl, rfl⟩
      · exact absurd hx (nobody x)
    · rintro ⟨hid, haddress⟩
      left
      obtain ⟨i, a⟩ := x
      exact congrArg₂ Subscriber.mk (Option.some.inj hid).symm haddress
  · exact ⟨_, rfl, by simp [hnew.subscribers]⟩
  · exact hbox
  · exact hreading
  · exact hwriting
  · exact hending

/-- A stream that asks for the first terminal of its host, and is told what went wrong on the way
to it. -/
theorem live_opened (hfresh : h.terminal = none) (hdepth : 0 < h.queueDepth) {env : Environment}
    {size : Geometry} {repo : Option String} {started : Started}
    (hs : (h.establish env size repo).2 = .ok started) :
    ∃ workspace t u host last,
      h.establish env size repo = ({ h with workspace, terminal := some t }, .ok started)
      ∧ t.IsNew h.backlogCeiling ∧ u.pty = t.pty ∧ u.exitCode = none
      ∧ (opened h).2.receive (opened h).1 env (Message.init size repo).encode = (host, last)
      ∧ last.Live host u h.queueDepth (started.warning.map fun w => .status w.message).toList
      ∧ last.sent = [] := by
  obtain ⟨workspace, t, hnew, established⟩ := establish_fresh hfresh hs
  have box : (h.room.create h.queueDepth).1.box? (h.room.create h.queueDepth).2 =
      some { capacity := h.queueDepth } := by
    rw [Mailroom.box?_create]
    exact if_pos rfl
  -- The mailbox holds what is told of the way to the terminal before the stream subscribes.
  have told : ∃ room, room.box? (h.room.create h.queueDepth).2 =
        some ⟨h.queueDepth, (started.warning.map fun w => Message.status w.message).toList, true⟩
      ∧ (opened h).2.receive (opened h).1 env (Message.init size repo).encode =
        attach { mailbox := (h.room.create h.queueDepth).2 }
          { h with room, workspace, terminal := some t } := by
    simp only [opened_of_none hfresh, receive, if_true, Message.decode_encode, act, establish,
      established]
    cases started.warning with
    | none => exact ⟨_, box, rfl⟩
    | some w =>
      refine ⟨_, ?_, rfl⟩
      have accepts : Mailbox.accepts { capacity := h.queueDepth } = true := by
        simp [Mailbox.accepts, hdepth]
      rw [Mailroom.box?_offer, if_pos rfl, box]
      exact congrArg some (Mailbox.offered_of_accepts accepts _)
  obtain ⟨room, hbox, hreceived⟩ := told
  obtain ⟨u, hlive, hpty, hexit, hsent⟩ :=
    live_attach (s := { mailbox := (h.room.create h.queueDepth).2 })
      (h := { h with room, workspace, terminal := some t }) rfl rfl rfl rfl rfl hnew hbox
  exact ⟨workspace, t, u, _, _, established h.room, hnew, hpty, hexit, hreceived, hlive, hsent⟩

end TermLink.Host.Stream
