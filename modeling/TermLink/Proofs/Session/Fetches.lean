import TermLink.Proofs.Host.Unheard
import TermLink.Proofs.Session.Beat

/-!
# A session that polls, beat by beat

What a session that polls says to the gate, and what it leaves unread at its host.
-/

namespace TermLink.Polling

/-- A session that polls a host whose terminal has something unread. -/
structure Fetches (q : Polling) (settings : Edge.Settings) (h : Host) (s : Span) (u : Terminal) :
    Prop where
  poll : q.poll.Going
  host : q.host.Unheard u
  ceiling : u.backlog.ceiling = max h.backlogCeiling 1
  unread : u.backlog.bytes.length ≤ s.unread
  exited : u.exitCode.isSome → s.exited = true
  rest : s.pending = false → u.unread = []
  ticks : q.poll.ticks = decide (settings.pollMillis ≠ 0)
  drainOnPing : q.poll.drainOnPing = settings.drainOnPing
  due : q.poll.due = s.due

/-- The pseudo-terminal of the session's host. -/
def pty? (q : Polling) : Option Pty := q.host.terminal.map (·.pty)

variable {q : Polling} {settings : Edge.Settings} {h : Host} {s : Span} {u : Terminal}
  (env : Environment) (metrics : Bool)

theorem unread_of_running (hc : u.exitCode = none) :
    u.unread = if u.backlog.bytes = [] then [] else [.data u.backlog.bytes] := by
  simp [Terminal.unread_eq, hc]

theorem exit_not_mem_unread (bytes : Bytes) (code : Int32) :
    Message.exit code ∉ if bytes = [] then [] else [Message.data bytes] := by
  split <;> simp

theorem Fetches.pty? (F : q.Fetches settings h s u) : q.pty? = some u.pty := by
  simp [Polling.pty?, F.host.terminal]

/-- A terminal of which nothing is unread has not ended. -/
theorem exitCode_of_unread (hu : u.unread = []) : u.exitCode = none ∧ u.backlog.bytes = [] := by
  rw [Terminal.unread_eq, List.append_eq_nil_iff] at hu
  obtain ⟨hbytes, hexit⟩ := hu
  constructor
  · simpa using hexit
  · by_contra hne
    simp [hne] at hbytes

theorem Fetches.exitCode (F : q.Fetches settings h s u) (hs : s.exited = false) :
    u.exitCode = none := by
  cases hc : u.exitCode with
  | none => rfl
  | some code =>
    have exited := F.exited (by rw [hc]; rfl)
    exact absurd (hs.symm.trans exited) Bool.false_ne_true

/-- What is printed is unread. -/
theorem Fetches.print (F : q.Fetches settings h s u) {chunk : Bytes} (hne : chunk ≠ [])
    (hs : s.exited = false) (hroom : s.unread + chunk.length ≤ max h.backlogCeiling 1)
    (ask : Edge.Exchange Host) :
    ∃ v, (q.beat ask (.print chunk)).Fetches settings h (s.after settings (.print chunk)) v
      ∧ v.pty = u.pty ∧ v.exitCode = none
      ∧ v.unread = [.data (u.backlog.bytes ++ chunk)] := by
  have running := F.exitCode hs
  have fits : u.backlog.bytes.length + chunk.length ≤ u.backlog.ceiling := by
    rw [F.ceiling]
    exact Nat.le_trans (Nat.add_le_add_right F.unread _) hroom
  obtain ⟨v, hv, hpty, hexit, hbacklog⟩ := F.host.publish running fits
  refine ⟨v, ⟨F.poll, hv, ?_, ?_, ?_, ?_, F.ticks, F.drainOnPing, F.due⟩, hpty, hexit, ?_⟩
  · rw [hbacklog]
    exact F.ceiling
  · rw [hbacklog, List.length_append]
    exact Nat.add_le_add_right F.unread _
  · simp [hexit]
  · intro hp
    exact absurd hp (by simp [Span.after])
  · simp [unread_of_running hexit, hbacklog, hne]

/-- An exit is unread after all that was printed. -/
theorem Fetches.exit (F : q.Fetches settings h s u) (hs : s.exited = false) (code : Int32)
    (ask : Edge.Exchange Host) :
    ∃ v, (q.beat ask (.exit code)).Fetches settings h (s.after settings (.exit code)) v
      ∧ v.pty = u.pty ∧ v.exitCode = some code ∧ v.unread = u.unread ++ [.exit code] := by
  have running := F.exitCode hs
  obtain ⟨v, hv, hpty, hexit, hbacklog⟩ := F.host.recordExit running code
  refine ⟨v, ⟨F.poll, hv, ?_, ?_, fun _ => rfl, ?_, F.ticks, F.drainOnPing, F.due⟩, hpty, hexit, ?_⟩
  · rw [hbacklog]
    exact F.ceiling
  · rw [hbacklog]
    exact F.unread
  · intro hp
    exact absurd hp (by simp [Span.after])
  · simp [Terminal.unread_eq, hexit, hbacklog, running]

/-- What a stream sends does not matter to a session that polls. -/
theorem Fetches.push (F : q.Fetches settings h s u) :
    q.Fetches settings h (s.after settings .push) u :=
  { F with }

theorem Fetches.wantsOutput (F : q.Fetches settings h s u)
    (hwants : settings.pollMillis ≠ 0 ∨ s.due = true) : q.poll.wantsOutput = true := by
  have fetching := F.poll.fetching
  rcases hwants with hticks | hdue
  · simp [Edge.Poll.wantsOutput, fetching, F.ticks, hticks]
  · simp [Edge.Poll.wantsOutput, fetching, F.due, hdue]

/-- A fetch gives all that is unread. -/
theorem Fetches.fetch (F : q.Fetches settings h s u)
    (hwants : settings.pollMillis ≠ 0 ∨ s.due = true) :
    ∃ host v p, q.beat (Host.exchange env metrics) .drain = ⟨host, (p.forward u.unread).settle⟩
      ∧ host.Unheard v ∧ v.pty = u.pty ∧ v.exitCode = u.exitCode
      ∧ v.backlog = { u.backlog with bytes := [] }
      ∧ p.Going ∧ p = { q.poll with due := false } := by
  obtain ⟨host, v, hread, hv, hpty, hexit, hbacklog⟩ := F.host.read
  obtain ⟨hlistening, hfetching, hwriting, hending, hqueue⟩ := F.poll
  refine ⟨host, v, { q.poll with due := false }, ?_, hv, hpty, hexit, hbacklog,
    ⟨hlistening, hfetching, hwriting, hending, hqueue⟩, rfl⟩
  simp [beat, Edge.Poll.fetch, F.wantsOutput hwants, Host.fetch_exchange, hread, Except.mapError]

/-- A session whose terminal runs says what was printed, and goes on. -/
theorem Fetches.drain (F : q.Fetches settings h s u)
    (hwants : settings.pollMillis ≠ 0 ∨ s.due = true) (hc : u.exitCode = none) :
    ∃ v, (q.beat (Host.exchange env metrics) .drain).Fetches settings h
        (s.after settings .drain) v
      ∧ v.pty = u.pty ∧ v.exitCode = none ∧ v.unread = []
      ∧ (q.beat (Host.exchange env metrics) .drain).poll.sent = q.poll.sent ++ u.unread := by
  obtain ⟨host, v, p, hbeat, hv, hpty, hexit, hbacklog, hgoing, hp⟩ :=
    F.fetch env metrics hwants
  have calm : ∀ code, Message.exit code ∉ u.unread := by
    rw [unread_of_running hc]
    exact exit_not_mem_unread _
  have read : v.unread = [] := by simp [Terminal.unread_eq, hexit, hc, hbacklog]
  rw [hbeat, hgoing.settle_forward calm]
  obtain ⟨hlistening, hfetching, hwriting, hending, hqueue⟩ := hgoing
  refine ⟨v, ⟨⟨hlistening, hfetching, hwriting, hending, hqueue⟩, hv, ?_, ?_, ?_, fun _ => read,
    ?_, ?_, ?_⟩, hpty, hexit.trans hc, read, ?_⟩
  · rw [hbacklog]
    exact F.ceiling
  · simp [hbacklog]
  · simp [hexit, hc]
  · rw [hp]
    exact F.ticks
  · rw [hp]
    exact F.drainOnPing
  · rw [hp]
    rfl
  · rw [hp]

/-- A session whose terminal has ended says so last, and ends. -/
theorem Fetches.drain_exit (F : q.Fetches settings h s u)
    (hwants : settings.pollMillis ≠ 0 ∨ s.due = true) (hc : u.exitCode.isSome) :
    (q.beat (Host.exchange env metrics) .drain).poll.Over
      ∧ (q.beat (Host.exchange env metrics) .drain).poll.sent = q.poll.sent ++ u.unread
      ∧ (q.beat (Host.exchange env metrics) .drain).pty? = q.pty? := by
  obtain ⟨code, hcode⟩ := Option.isSome_iff_exists.mp hc
  obtain ⟨host, v, p, hbeat, hv, hpty, -, -, hgoing, hp⟩ :=
    F.fetch env metrics hwants
  have unread : u.unread =
      (if u.backlog.bytes = [] then [] else [.data u.backlog.bytes]) ++ [.exit code] := by
    rw [Terminal.unread_eq, hcode]
    rfl
  obtain ⟨hover, hsent⟩ := hgoing.settle_forward_exit code (exit_not_mem_unread u.backlog.bytes)
  rw [hp] at hsent
  rw [hbeat, unread]
  refine ⟨hover, ?_, ?_⟩
  · rw [hp]
    exact hsent
  · rw [F.pty?, Polling.pty?, hv.terminal, Option.map_some, hpty]

/-- What a deed makes of a session that fetches. -/
def Does (q next : Polling) (settings : Edge.Settings) (h : Host) (s : Span) (u : Terminal) :
    Deed → Prop
  | .nothing => next.Fetches settings h s u ∧ next.poll.sent = q.poll.sent
  | .input i =>
    next.Fetches settings h s { u with pty := u.pty.given i } ∧ next.poll.sent = q.poll.sent
  | .answer timestamp =>
    next.Fetches settings h s u ∧ next.poll.sent = q.poll.sent ++ [.pong timestamp]
  | .leave => next.poll.Over ∧ next.poll.sent = q.poll.sent ∧ next.pty? = q.pty?

/-- A frame that is no ping asks for no output. -/
theorem Fetches.keep (F : q.Fetches settings h s u) {f : Frame} (hf : f.isPing = false) :
    q.Fetches settings h (s.after settings (.frame f)) u := by
  have due : (s.after settings (.frame f)).due = s.due := by simp [Span.after, hf]
  exact { F with due := F.due.trans due.symm }

/-- What comes of a frame of the gate once all output has been fetched. -/
theorem Fetches.frame (F : q.Fetches settings h s u) (hrest : s.pending = false) (f : Frame)
    (hsmall : f.isSmall = true) :
    q.Does (q.beat (Host.exchange env metrics) (.frame f)) settings h
      (s.after settings (.frame f)) u f.deed := by
  obtain ⟨running, -⟩ := exitCode_of_unread (F.rest hrest)
  have received := F.poll.receive (Host.exchange env metrics) q.host f
  cases hd : f.deed with
  | nothing =>
    rw [hd] at received
    have same : q.beat (Host.exchange env metrics) (.frame f) = q := by
      simp only [beat, received, F.poll.settle]
    rw [same]
    exact ⟨F.keep (by simp [Frame.isPing, hd]), rfl⟩
  | input i =>
    rw [hd] at received
    have runs : u.running = true := by
      rw [F.host.running, running]
      rfl
    have next : q.beat (Host.exchange env metrics) (.frame f) =
        { q with
          host := { q.host with terminal := some { u with pty := u.pty.given i } } } := by
      have small : i.message.encode.length ≤ Http.bodyLimit := by
        simpa [Frame.isSmall, hd] using hsmall
      simp only [beat, received, Edge.Poll.submit, Host.submit_exchange _ _ _ small,
        Host.write_input F.host.terminal runs F.host.fault, Except.mapError, F.poll.settle]
    have kept := F.keep (f := f) (by simp [Frame.isPing, hd])
    rw [next]
    exact ⟨{ kept with host := F.host.withPty ((u.pty.fault_given i).trans F.host.fault) }, rfl⟩
  | answer timestamp =>
    rw [hd] at received
    have settled := Edge.Poll.settle_of_queue
      (p := { q.poll with
        queue := [.pong timestamp], due := q.poll.due || q.poll.drainOnPing })
      (by simp) F.poll.listening F.poll.writing F.poll.ending rfl
    have next : q.beat (Host.exchange env metrics) (.frame f) =
        { q with poll := { q.poll with
            queue := []
            due := q.poll.due || q.poll.drainOnPing
            sent := q.poll.sent ++ [.pong timestamp] } } := by
      simp only [beat, received, settled]
    obtain ⟨hlistening, hfetching, hwriting, hending, hqueue⟩ := F.poll
    rw [next]
    refine ⟨⟨⟨hlistening, hfetching, hwriting, hending, rfl⟩, F.host, F.ceiling, F.unread, F.exited,
      F.rest, F.ticks, F.drainOnPing, ?_⟩, rfl⟩
    simp [Span.after, Frame.isPing, hd, F.due, F.drainOnPing]
  | leave =>
    rw [hd] at received
    obtain ⟨hover, hsent⟩ := F.poll.settle_left
    simp only [Does, beat, received]
    exact ⟨hover, hsent, rfl⟩

/-- Nothing happens to a session after its end. -/
theorem beat_of_over (H : q.poll.Over) (ask : Edge.Exchange Host) (b : Beat) :
    (q.beat ask b).poll.Over ∧ (q.beat ask b).poll.sent = q.poll.sent
      ∧ (q.beat ask b).pty? = q.pty? := by
  cases b with
  | frame f =>
    have same : q.beat ask (.frame f) = q := by simp only [beat, H.receive, H.settle]
    rw [same]
    exact ⟨H, rfl, rfl⟩
  | print chunk => exact ⟨H, rfl, Leg.pty?_publish q.host chunk⟩
  | exit code => exact ⟨H, rfl, Leg.pty?_recordExit q.host code⟩
  | push => exact ⟨H, rfl, rfl⟩
  | drain =>
    have same : q.beat ask .drain = q := by simp only [beat, H.fetch, H.settle]
    rw [same]
    exact ⟨H, rfl, rfl⟩

/-- A session that got the first terminal of its host has told the gate what went wrong on the way
to it. -/
theorem fetches_start (settings : Edge.Settings) {info : SessionInfo} {size : Geometry}
    {repo : Option String} (hrequest : info.request = .init size repo)
    (hsmall : info.request.encode.length ≤ Http.bodyLimit) {workspace : Checkout.Workspace}
    {started : Host.Started} {t : Terminal} (hnew : t.IsNew h.backlogCeiling)
    (hs : h.establish env size repo = ({ h with workspace, terminal := some t }, .ok started))
    (hpid : started.pid < UInt32.size) :
    (start settings info (Host.exchange env metrics) h).Fetches settings h {} t
      ∧ (start settings info (Host.exchange env metrics) h).poll.sent =
        (started.warning.map fun w => .status w.message).toList := by
  have bounded : ∀ s, (h.establish env size repo).2 = .ok s → s.pid < UInt32.size := by
    intro s hstarted
    rw [hs] at hstarted
    obtain rfl := Except.ok.inj hstarted
    exact hpid
  rw [hrequest] at hsmall
  have asked := h.requestTerminal_exchange env metrics hsmall bounded
  have calm : ∀ code,
      Message.exit code ∉ (started.warning.map fun w => Message.status w.message).toList := by
    cases started.warning <;> simp
  have going : ({ ticks := settings.pollMillis ≠ 0, drainOnPing := settings.drainOnPing
      : Edge.Poll }).Going := ⟨rfl, rfl, rfl, rfl, rfl⟩
  have unread : t.unread = [] := by
    simp [Terminal.unread_eq, hnew.exitCode, hnew.backlog, Backlog.ofCeiling]
  have begun : start settings info (Host.exchange env metrics) h =
      ⟨{ h with workspace, terminal := some t },
        { ticks := settings.pollMillis ≠ 0, drainOnPing := settings.drainOnPing
          sent := (started.warning.map fun w => .status w.message).toList }⟩ := by
    have settled := going.settle_forward calm
    simp only [start, Edge.Poll.start, hrequest, asked, hs, Except.mapError, Except.map]
    apply Eq.trans _ (congrArg (Polling.mk _) settled)
    cases hw : started.warning with
    | none => simp [Host.reportOf, hw, Edge.Poll.forward]
    | some w => simp [Host.reportOf, hw, Edge.Poll.forward, Edge.Poll.say]
  rw [begun]
  have running : t.running = t.exitCode.isNone := by
    rw [hnew.running, hnew.exitCode]
    rfl
  constructor
  · constructor
    case poll => exact ⟨rfl, rfl, rfl, rfl, rfl⟩
    case host => exact ⟨rfl, running, hnew.fault, hnew.subscribers⟩
    case ceiling => simp [hnew.backlog, Backlog.ofCeiling]
    case unread => simp [hnew.backlog, Backlog.ofCeiling]
    case exited => simp [hnew.exitCode]
    case rest =>
      intro _
      exact unread
    case ticks => rfl
    case drainOnPing => rfl
    case due => rfl
  · rfl

end TermLink.Polling
