import TermLink.Proofs.Host.Live
import TermLink.Proofs.Session.Leg

/-!
# A leg at rest

What has become of a leg once every frame on its way has arrived and every duty of the stream has
done what there was to do.

## Implementation notes

In one round all frames go up, the stream works, and all frames go down. A second round takes the
closing of a pipe by its host back up. Both are runs of the machine of single steps.
-/

namespace TermLink.Leg

/-- The leg after events in order. -/
def run (l : Leg) (events : List Event) : Leg := events.foldl step l

/-- Every frame on its way to the host arrives. -/
def raise (l : Leg) (env : Environment) : Leg :=
  l.run (List.replicate (l.pipe.toHost.length - l.arrived) (.arrive env))

/-- The stream sends what waits, and its duties end if they must. -/
def work (l : Leg) : Leg :=
  l.run (List.replicate (l.stream.waiting l.host) .send ++ [.notice, .stop])

/-- Every frame on its way to the pipe arrives. -/
def lower (l : Leg) : Leg :=
  l.run (List.replicate ((framesOf l.stream).length - l.returned) .back)

/-- All frames go up, the stream works, and all frames go down. -/
def round (l : Leg) (env : Environment) : Leg := (l.raise env).work.lower

/-- The leg at rest. -/
def settle (l : Leg) (env : Environment) : Leg := (l.round env).round env

/-- The messages that were sent to the gate. -/
def told (l : Leg) : List Message := Frame.messages l.pipe.toGate

/-- A leg that has come to its end. -/
structure Over (l : Leg) : Prop where
  isOpen : l.pipe.isOpen = false
  reading : l.stream.reading = false
  writing : l.stream.writing = false

/-- The pseudo-terminal of a leg. -/
def pty? (l : Leg) : Option Pty := l.host.terminal.map (·.pty)

theorem run_append (l : Leg) (as bs : List Event) : l.run (as ++ bs) = (l.run as).run bs :=
  List.foldl_append

theorem pty?_publish (h : Host) (chunk : Bytes) :
    (h.publish chunk).terminal.map (·.pty) = h.terminal.map (·.pty) := by
  cases ht : h.terminal <;> simp [Host.publish, Host.onTerminal, ht]

theorem pty?_recordExit (h : Host) (code : Int32) :
    (h.recordExit code).terminal.map (·.pty) = h.terminal.map (·.pty) := by
  cases ht : h.terminal <;> simp [Host.recordExit, Host.onTerminal, ht]

/-- Nothing happens to a leg after its end. -/
theorem Over.step {l : Leg} (H : l.Over) (e : Event) :
    (l.step e).Over ∧ (l.step e).told = l.told ∧ (l.step e).pty? = l.pty? := by
  obtain ⟨hopen, hreading, hwriting⟩ := H
  have still : l.Over ∧ l.told = l.told ∧ l.pty? = l.pty? :=
    ⟨⟨hopen, hreading, hwriting⟩, rfl, rfl⟩
  cases e with
  | fromGate f =>
    have same : l.step (.fromGate f) = l := by simp [Leg.step, Edge.Pipe.fromGate, hopen]
    rwa [same]
  | arrive env =>
    simp only [Leg.step]
    split
    · next f _ =>
      have same : l.take env f = (l.host, l.stream) := by
        cases f <;> simp [take, Host.Stream.receive, Host.Stream.hangUp, hreading]
      rw [same]
      exact ⟨⟨hopen, hreading, hwriting⟩, rfl, rfl⟩
    · exact still
  | back =>
    simp only [Leg.step]
    split
    · next f _ =>
      have same : l.pipe.fromHost f = l.pipe := by simp [Edge.Pipe.fromHost, hopen]
      rw [same]
      exact ⟨⟨hopen, hreading, hwriting⟩, rfl, rfl⟩
    · exact still
  | send =>
    have same : l.step .send = l := by
      simp [Leg.step, withStream, Host.Stream.sendNext, hwriting]
    rwa [same]
  | notice =>
    have same : l.step .notice = l := by
      simp [Leg.step, withStream, Host.Stream.notice, hreading]
    rwa [same]
  | stop =>
    have same : l.step .stop = l := by
      simp [Leg.step, withStream, Host.Stream.stopWriting, hwriting]
    rwa [same]
  | lose =>
    have same : l.step .lose = l := by simp [Leg.step, hwriting]
    rwa [same]
  | print chunk => exact ⟨⟨hopen, hreading, hwriting⟩, rfl, pty?_publish l.host chunk⟩
  | exit code => exact ⟨⟨hopen, hreading, hwriting⟩, rfl, pty?_recordExit l.host code⟩

theorem Over.run {l : Leg} (H : l.Over) (events : List Event) :
    (l.run events).Over ∧ (l.run events).told = l.told ∧ (l.run events).pty? = l.pty? := by
  induction events generalizing l with
  | nil => exact ⟨H, rfl, rfl⟩
  | cons e rest ih =>
    obtain ⟨hstep, htold, hpty⟩ := H.step e
    obtain ⟨hrest, htold', hpty'⟩ := ih hstep
    exact ⟨hrest, htold'.trans htold, hpty'.trans hpty⟩

theorem Over.round {l : Leg} (H : l.Over) (env : Environment) :
    (l.round env).Over ∧ (l.round env).told = l.told ∧ (l.round env).pty? = l.pty? := by
  obtain ⟨hraised, htold, hpty⟩ := H.run _
  obtain ⟨hworked, htold', hpty'⟩ := hraised.run _
  obtain ⟨hlast, htold'', hpty''⟩ := hworked.run _
  exact ⟨hlast, htold''.trans (htold'.trans htold), hpty''.trans (hpty'.trans hpty)⟩

theorem Over.settle {l : Leg} (H : l.Over) (env : Environment) :
    (l.settle env).Over ∧ (l.settle env).told = l.told ∧ (l.settle env).pty? = l.pty? := by
  obtain ⟨hround, htold, hpty⟩ := H.round env
  obtain ⟨hlast, htold', hpty'⟩ := hround.round env
  exact ⟨hlast, htold'.trans htold, hpty'.trans hpty⟩

/-- A leg whose stream keeps up, on which nothing is on its way. -/
structure Going (l : Leg) (t : Terminal) (depth : Nat) (waiting : List Message) : Prop where
  stream : l.stream.Live l.host t depth waiting
  isOpen : l.pipe.isOpen = true
  arrived : l.arrived = l.pipe.toHost.length
  returned : l.returned = l.stream.sent.length

/-- A leg whose stream has been left. -/
structure Left (l : Leg) : Prop where
  reading : l.stream.reading = false
  writing : l.stream.writing = true
  ending : l.stream.ending = true
  waiting : l.stream.waiting l.host = 0
  arrived : l.arrived = l.pipe.toHost.length
  returned : l.returned = l.stream.sent.length

theorem run_send (l : Leg) (n : Nat) :
    l.run (List.replicate n .send) = l.withStream (l.stream.sendMany l.host n) := by
  induction n generalizing l with
  | zero => rfl
  | succ n ih => exact ih (l.step .send)

theorem run_back (l : Leg) {fs : List Frame} (hfs : (framesOf l.stream).drop l.returned = fs) :
    l.run (List.replicate fs.length .back) =
      { l with
        pipe := fs.foldl Edge.Pipe.fromHost l.pipe
        returned := l.returned + fs.length } := by
  induction fs generalizing l with
  | nil => rfl
  | cons f fs ih =>
    have next : (framesOf l.stream)[l.returned]? = some f := by
      rw [← List.head?_drop, hfs]
      rfl
    have stepped : l.step .back =
        { l with pipe := l.pipe.fromHost f, returned := l.returned + 1 } := by
      simp [step, next]
    have left : (framesOf l.stream).drop (l.returned + 1) = fs := by
      rw [← List.drop_drop, hfs]
      rfl
    have rest := ih { l with pipe := l.pipe.fromHost f, returned := l.returned + 1 } left
    rw [run] at rest
    rw [List.length_cons, List.replicate_succ, run, List.foldl_cons, stepped, rest]
    simp [Nat.add_comm 1, Nat.add_assoc]

theorem lower_eq (l : Leg) :
    l.lower =
      { l with
        pipe := ((framesOf l.stream).drop l.returned).foldl Edge.Pipe.fromHost l.pipe
        returned := l.returned + ((framesOf l.stream).drop l.returned).length } := by
  rw [← run_back l rfl, lower, List.length_drop]

theorem stream_lower (l : Leg) : l.lower.stream = l.stream := by
  rw [lower_eq]

theorem pty?_lower (l : Leg) : l.lower.pty? = l.pty? := by
  rw [lower_eq]
  rfl

/-- A leg whose stream has ended comes to its end with the pipe. -/
theorem over_lower {l : Leg} (hreading : l.stream.reading = false)
    (hwriting : l.stream.writing = false) (hopen : l.lower.pipe.isOpen = false) :
    l.lower.Over := by
  constructor
  · exact hopen
  · rw [stream_lower]
    exact hreading
  · rw [stream_lower]
    exact hwriting

theorem raise_of_arrived {l : Leg} (h : l.arrived = l.pipe.toHost.length) (env : Environment) :
    l.raise env = l := by
  rw [raise, h, Nat.sub_self]
  rfl

theorem settle_of_arrived {l : Leg} (h : l.arrived = l.pipe.toHost.length) (env : Environment) :
    l.settle env = l.work.lower.round env := by
  have first : l.round env = l.work.lower := by rw [round, raise_of_arrived h]
  rw [settle, first]

/-- The one frame on its way to the host arrives. -/
theorem raise_one {l : Leg} {fs : List Frame} {f : Frame} (hfs : l.pipe.toHost = fs ++ [f])
    (h : l.arrived = fs.length) (env : Environment) :
    l.raise env = { l.withStream (l.take env f) with arrived := l.arrived + 1 } := by
  have one : l.pipe.toHost.length - l.arrived = 1 := by simp [hfs, h]
  have next : l.pipe.toHost[l.arrived]? = some f := by simp [hfs, h]
  rw [raise, one]
  simp [run, step, next]

variable {l : Leg} {t : Terminal} {depth : Nat} {waiting : List Message}

theorem Going.pty? (H : l.Going t depth waiting) : l.pty? = some t.pty := by
  simp [Leg.pty?, H.stream.terminal]

theorem run_work (l : Leg) (n : Nat) {next : Host × Host.Stream}
    (hnext : l.stream.sendMany l.host n = next) :
    l.run (List.replicate n .send ++ [.notice, .stop]) =
      l.withStream ((next.2.notice next.1).2.stopWriting (next.2.notice next.1).1) := by
  rw [run_append, run_send, hnext]
  rfl

/-- What waits goes down to the gate. -/
theorem Going.flush (H : l.Going t depth waiting) (hms : ∀ code, Message.exit code ∉ waiting) :
    l.work.lower.Going t depth [] ∧ l.work.lower.told = l.told ++ waiting := by
  have all : l.stream.Live l.host t depth (waiting ++ []) := by simpa using H.stream
  obtain ⟨host, hlive, hsent⟩ := all.sendMany hms 0
  have worked : l.work =
      l.withStream (host, { l.stream with sent := l.stream.sent ++ waiting }) := by
    rw [work, H.stream.waiting_eq, run_work l waiting.length hsent, Host.Stream.sendMany,
      hlive.notice, hlive.stopWriting]
  have writing : l.stream.writing = true := H.stream.writing
  have frames : (framesOf l.work.stream).drop l.work.returned = waiting.map Edge.Pipe.frameOf := by
    rw [worked]
    simp [withStream, framesOf, Frame.ofSender, writing, H.returned]
  have lowered : l.work.lower =
      { l.work with
        pipe := { l.pipe with toGate := l.pipe.toGate ++ waiting.map Edge.Pipe.frameOf }
        returned := l.returned + waiting.length } := by
    rw [lower_eq, frames, worked, withStream, Edge.Pipe.foldl_fromHost H.isOpen hms]
    simp
  rw [lowered, worked]
  refine ⟨⟨hlive, H.isOpen, H.arrived, ?_⟩, ?_⟩
  · simp [withStream, H.returned]
  · simp [told]

theorem Going.round (H : l.Going t depth waiting) (hms : ∀ code, Message.exit code ∉ waiting)
    (env : Environment) :
    (l.round env).Going t depth [] ∧ (l.round env).told = l.told ++ waiting := by
  rw [Leg.round, raise_of_arrived H.arrived]
  exact H.flush hms

/-- A leg that goes on comes to rest once the stream has worked. -/
theorem Going.rest (H : l.Going t depth waiting) (hms : ∀ code, Message.exit code ∉ waiting)
    (env : Environment) :
    (l.work.lower.round env).Going t depth []
      ∧ (l.work.lower.round env).told = l.told ++ waiting := by
  obtain ⟨hflushed, htold⟩ := H.flush hms
  obtain ⟨hlast, htold'⟩ := hflushed.round (by simp) env
  exact ⟨hlast, by rw [htold', htold, List.append_nil]⟩

theorem Going.settle (H : l.Going t depth waiting) (hms : ∀ code, Message.exit code ∉ waiting)
    (env : Environment) :
    (l.settle env).Going t depth [] ∧ (l.settle env).told = l.told ++ waiting := by
  rw [settle_of_arrived H.arrived]
  exact H.rest hms env

/-- A leg whose stream has been told of the exit comes to its end with it. -/
theorem Going.settle_exit {ms : List Message} {code : Int32}
    (H : l.Going t depth (ms ++ [.exit code])) (hms : ∀ code, Message.exit code ∉ ms)
    (env : Environment) :
    (l.settle env).Over ∧ (l.settle env).told = l.told ++ ms ++ [.exit code]
      ∧ (l.settle env).pty? = l.pty? := by
  obtain ⟨host, hterminal, hsent⟩ := H.stream.sendMany_exit hms
  have reading : l.stream.reading = true := H.stream.reading
  have worked : l.work =
      l.withStream (({ l.stream with
        sent := l.stream.sent ++ ms ++ [.exit code], writing := false, ending := true
        : Host.Stream }).endReading { host with room := host.room.close l.stream.mailbox }) := by
    rw [work, H.stream.waiting_eq, List.length_append, List.length_singleton, run_work l _ hsent]
    simp [Host.Stream.endWriting, Host.Stream.notice, reading, Host.Stream.stopWriting,
      Host.Stream.endReading]
  have frames : (framesOf l.work.stream).drop l.work.returned =
      (ms ++ [Message.exit code]).map Edge.Pipe.frameOf ++ [Frame.close] := by
    rw [worked]
    simp [withStream, Host.Stream.endReading, framesOf, Frame.ofSender, H.returned]
  have lowered : l.work.lower.pipe =
      { isOpen := false
        toHost := l.pipe.toHost ++ [.close]
        toGate := l.pipe.toGate ++ (ms ++ [Message.exit code]).map Edge.Pipe.frameOf
          ++ [Frame.close] } := by
    have same : l.work.pipe = l.pipe := by
      rw [worked]
      rfl
    rw [lower_eq, frames, same, Edge.Pipe.foldl_fromHost_exit H.isOpen hms]
  have ended : l.work.lower.Over := by
    apply over_lower
    · rw [worked]
      rfl
    · rw [worked]
      rfl
    · rw [lowered]
  have told : l.work.lower.told = l.told ++ ms ++ [.exit code] := by
    rw [Leg.told, lowered, Frame.messages_append, Frame.messages_append,
      Frame.messages_map_frameOf, Frame.messages_close, List.append_nil, ← List.append_assoc]
    rfl
  have pty : l.work.lower.pty? = l.pty? := by
    rw [pty?_lower, worked, H.pty?]
    cases ha : l.stream.attachment <;>
      simp [Leg.pty?, withStream, Host.Stream.endReading, Host.detach, ha, hterminal,
        Terminal.detach]
  obtain ⟨hlast, htold, hpty⟩ := ended.round env
  rw [settle_of_arrived H.arrived]
  exact ⟨hlast, htold.trans told, hpty.trans pty⟩

/-- A leg whose stream has been left comes to its end. -/
theorem Left.settle (H : l.Left) (env : Environment) :
    (l.work.lower.round env).Over ∧ (l.work.lower.round env).told = l.told
      ∧ (l.work.lower.round env).pty? = l.pty? := by
  have worked : l.work = l.withStream (l.stream.endWriting l.host) := by
    rw [work, H.waiting, run_work l 0 rfl]
    simp [Host.Stream.sendMany, Host.Stream.notice, H.reading, Host.Stream.stopWriting, H.writing,
      H.ending]
  have frames : (framesOf l.work.stream).drop l.work.returned = [.close] := by
    rw [worked]
    simp [withStream, Host.Stream.endWriting, framesOf, Frame.ofSender, H.returned]
  have lowered : l.work.lower.pipe = l.pipe.fromHost .close := by
    have same : l.work.pipe = l.pipe := by
      rw [worked]
      rfl
    rw [lower_eq, frames, same]
    rfl
  have ended : l.work.lower.Over := by
    apply over_lower
    · rw [worked]
      exact H.reading
    · rw [worked]
      rfl
    · rw [lowered]
      cases ho : l.pipe.isOpen <;> simp [Edge.Pipe.fromHost, Edge.Pipe.shut, ho]
  have told : l.work.lower.told = l.told := by
    rw [Leg.told, lowered]
    cases ho : l.pipe.isOpen <;>
      simp [Edge.Pipe.fromHost, Edge.Pipe.shut, ho, Leg.told]
  have pty : l.work.lower.pty? = l.pty? := by
    rw [pty?_lower, worked]
    rfl
  obtain ⟨hlast, htold, hpty⟩ := ended.round env
  exact ⟨hlast, htold.trans told, hpty.trans pty⟩

/-- What a deed makes of a leg at rest. -/
def Does (l next : Leg) (t : Terminal) (depth : Nat) : Deed → Prop
  | .nothing => next.Going t depth [] ∧ next.told = l.told
  | .input i => next.Going { t with pty := t.pty.given i } depth [] ∧ next.told = l.told
  | .answer timestamp => next.Going t depth [] ∧ next.told = l.told ++ [.pong timestamp]
  | .leave => next.Over ∧ next.told = l.told ∧ next.pty? = l.pty?

theorem Going.left (H : l.Going t depth []) {pipe : Edge.Pipe} {arrived : Nat}
    (harrived : arrived = pipe.toHost.length) :
    { l.withStream (l.stream.endReading l.host) with pipe, arrived }.Left
      ∧ (l.withStream (l.stream.endReading l.host)).pty? = l.pty? := by
  refine ⟨⟨rfl, H.stream.writing, rfl, ?_, harrived, H.returned⟩, ?_⟩
  · have box := H.stream.box
    cases ha : l.stream.attachment <;>
      simp [withStream, Host.Stream.endReading, Host.Stream.waiting, Host.detach, ha, box]
  · cases ha : l.stream.attachment <;>
      simp [Leg.pty?, withStream, Host.Stream.endReading, Host.detach, ha, H.stream.terminal,
        Terminal.detach]

/-- A frame of the gate that is more than a sign of life arrives at the host. -/
theorem Going.raise_frame (H : l.Going t depth waiting) {f : Frame} (hf : f ≠ .signal)
    (env : Environment) :
    (l.step (.fromGate f)).raise env =
        { l.withStream (l.take env f) with pipe := l.pipe.fromGate f, arrived := l.arrived + 1 }
      ∧ l.arrived + 1 = (l.pipe.fromGate f).toHost.length := by
  have sent : (l.pipe.fromGate f).toHost = l.pipe.toHost ++ [f] := by
    cases f with
    | signal => exact absurd rfl hf
    | _ => simp [Edge.Pipe.fromGate, H.isOpen, Edge.Pipe.sendHost, Edge.Pipe.shut]
  refine ⟨raise_one (l := l.step (.fromGate f)) sent H.arrived env, ?_⟩
  rw [sent, H.arrived, List.length_append, List.length_singleton]

/-- What comes of a frame that carries bytes while the process runs. -/
theorem Going.frame_of_payload (H : l.Going t depth []) (hdepth : 0 < depth)
    (hc : t.exitCode = none) (env : Environment) {f : Frame} {payload : Bytes}
    (hf : f.payload? = some payload) :
    l.Does ((l.step (.fromGate f)).settle env) t depth (Frame.text payload).deed := by
  have settled : (l.step (.fromGate f)).settle env =
      ((l.step (.fromGate f)).raise env).work.lower.round env := rfl
  have taken : l.take env f = l.stream.receive l.host env payload := by
    cases f <;> cases hf <;> rfl
  have passed : l.pipe.fromGate f = l.pipe.sendHost f := by
    cases f <;> cases hf <;> simp [Edge.Pipe.fromGate, H.isOpen]
  obtain ⟨raised, harrived⟩ := H.raise_frame (f := f) (by rintro rfl; cases hf) env
  rw [passed] at raised harrived
  rw [settled, raised, taken]
  -- A stream that goes on sends what it answers, if it answers anything.
  have goesOn {host : Host} {u : Terminal} {ms : List Message}
      (hlive : l.stream.Live host u depth ms) (hms : ∀ code, Message.exit code ∉ ms) :=
    Going.rest (l := { l.withStream (host, l.stream) with
        pipe := l.pipe.sendHost f, arrived := l.arrived + 1 })
      ⟨hlive, H.isOpen, harrived, H.returned⟩ hms env
  have received := H.stream.receive hdepth hc env payload
  cases hd : (Frame.text payload).deed with
  | nothing | input i =>
    rw [hd] at received
    obtain ⟨host, heq, hlive⟩ := received
    obtain ⟨hlast, htold⟩ := goesOn hlive (by simp)
    rw [List.append_nil] at htold
    rw [heq]
    exact ⟨hlast, htold⟩
  | answer timestamp =>
    rw [hd] at received
    obtain ⟨host, heq, hlive⟩ := received
    obtain ⟨hlast, htold⟩ := goesOn hlive (by simp)
    rw [heq]
    exact ⟨hlast, htold⟩
  | leave =>
    rw [hd] at received
    obtain ⟨hleft, hpty⟩ := H.left harrived
    obtain ⟨hlast, htold, hpty'⟩ := hleft.settle env
    rw [received]
    exact ⟨hlast, htold, hpty'.trans hpty⟩

/-- What comes of a frame of the gate while the process runs. -/
theorem Going.frame (H : l.Going t depth []) (hdepth : 0 < depth) (hc : t.exitCode = none)
    (env : Environment) (f : Frame) :
    l.Does ((l.step (.fromGate f)).settle env) t depth f.deed := by
  cases f with
  | text payload | binary payload => exact H.frame_of_payload hdepth hc env rfl
  | signal =>
    have same : l.step (.fromGate .signal) = l := by
      simp [step, Edge.Pipe.fromGate, H.isOpen]
    obtain ⟨hlast, htold⟩ := H.settle (by simp) env
    rw [List.append_nil] at htold
    rw [same]
    exact ⟨hlast, htold⟩
  | close =>
    have settled : (l.step (.fromGate .close)).settle env =
        ((l.step (.fromGate .close)).raise env).work.lower.round env := rfl
    obtain ⟨raised, harrived⟩ := H.raise_frame (f := .close) (by simp) env
    have left : l.take env .close = l.stream.endReading l.host := by
      simp [take, Host.Stream.hangUp, H.stream.reading]
    obtain ⟨hleft, hpty⟩ := H.left harrived
    obtain ⟨hlast, htold, hpty'⟩ := hleft.settle env
    rw [settled, raised, left]
    have silent : Frame.messages (l.pipe.fromGate .close).toGate = l.told := by
      simp [told, Edge.Pipe.fromGate, H.isOpen, Edge.Pipe.shut]
    exact ⟨hlast, htold.trans silent, hpty'.trans hpty⟩

/-- A leg that was opened on a host without a terminal has got one, and has told the gate what went
wrong on the way to it. -/
theorem going_opened {h : Host} (hfresh : h.terminal = none) (hdepth : 0 < h.queueDepth)
    (info : SessionInfo) {size : Geometry} {repo : Option String}
    (hrequest : info.request = .init size repo) {env : Environment} {started : Host.Started}
    (hs : (h.establish env size repo).2 = .ok started) :
    ∃ workspace t u,
      h.establish env size repo = ({ h with workspace, terminal := some t }, .ok started)
      ∧ t.IsNew h.backlogCeiling ∧ u.pty = t.pty ∧ u.exitCode = none
      ∧ ((opened info h).settle env).Going u h.queueDepth []
      ∧ ((opened info h).settle env).told =
        (started.warning.map fun w => .status w.message).toList := by
  obtain ⟨workspace, t, u, host, last, hestablish, hnew, hpty, hexit, hreceive, hlive, hsent⟩ :=
    Host.Stream.live_opened hfresh hdepth hs
  refine ⟨workspace, t, u, hestablish, hnew, hpty, hexit, ?_⟩
  have sent : (opened info h).pipe.toHost = [] ++ [Edge.Pipe.frameOf info.request] := rfl
  have raised := raise_one sent rfl env
  have taken : (opened info h).take env (Edge.Pipe.frameOf info.request) = (host, last) := by
    rw [hrequest]
    exact hreceive
  have going : ((opened info h).raise env).Going u h.queueDepth
      (started.warning.map fun w => Message.status w.message).toList := by
    rw [raised, taken]
    constructor
    · exact hlive
    · rfl
    · rfl
    · rw [withStream, hsent]
      rfl
  have calm (code : Int32) :
      Message.exit code ∉ (started.warning.map fun w => Message.status w.message).toList := by
    cases started.warning <;> simp
  obtain ⟨hlast, htold⟩ := going.rest calm env
  have silent : ((opened info h).raise env).told = [] := by
    rw [raised]
    rfl
  rw [silent, List.nil_append] at htold
  exact ⟨hlast, htold⟩

end TermLink.Leg
