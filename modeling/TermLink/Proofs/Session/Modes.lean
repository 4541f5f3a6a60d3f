import TermLink.Proofs.Message.Join
import TermLink.Proofs.Session.Fetches

/-!
# The two modes agree

A session that streams and one that polls, whose hosts were set up alike and to which the same
happens in order. Both tell the gate the same, once neighbouring payloads are put together, both
give the terminal the same, and both end at the same point.

## Implementation notes

The simulation has three cases. Both sessions go on, and what waits in the stream comes to the same
as what is unread in the other; or the stream has told the exit and has ended, while the other has
not fetched it yet; or both have ended.
-/

namespace TermLink

open Message (joinData)

/-- How a session that streams stands to one that polls. -/
inductive Agree (settings : Edge.Settings) (h : Host) (s : Span) (l : Leg) (q : Polling) : Prop
  | going {t u : Terminal} {waiting : List Message} (leg : l.Going t h.queueDepth waiting)
    (fetches : q.Fetches settings h s u) (pty : t.pty = u.pty) (exitCode : t.exitCode = u.exitCode)
    (told : joinData (l.told ++ waiting) = joinData (q.poll.sent ++ u.unread))
    (waits : waiting.length ≤ s.waiting)
    (last : ∃ ms, waiting = ms ++ (u.exitCode.map Message.exit).toList
      ∧ ∀ code, Message.exit code ∉ ms)
    (rest : s.pending = false → waiting = [])
  | ahead {u : Terminal} (leg : l.Over) (fetches : q.Fetches settings h s u)
    (pty : l.pty? = some u.pty) (exited : u.exitCode.isSome)
    (told : joinData l.told = joinData (q.poll.sent ++ u.unread))
  | ended {pty : Pty} (leg : l.Over) (poll : q.poll.Over) (streamed : l.pty? = some pty)
    (polled : q.pty? = some pty) (told : joinData l.told = joinData q.poll.sent)

namespace Agree

variable {settings : Edge.Settings} {h : Host} {s : Span} {l : Leg} {q : Polling}
  (env : Environment) (metrics : Bool)

/-- Nothing happens to the two after their end. -/
theorem after_ended {pty : Pty} (leg : l.Over) (poll : q.poll.Over) (streamed : l.pty? = some pty)
    (polled : q.pty? = some pty) (told : joinData l.told = joinData q.poll.sent) (b : Beat) :
    Agree settings h (s.after settings b) (l.beat env b)
      (q.beat (Host.exchange env metrics) b) := by
  obtain ⟨hpoll, hsent, hpolled⟩ := Polling.beat_of_over poll (Host.exchange env metrics) b
  have hleg : (l.beat env b).Over ∧ (l.beat env b).told = l.told
      ∧ (l.beat env b).pty? = l.pty? := by
    cases b with
    | frame f =>
      obtain ⟨hstep, htold, hpty⟩ := leg.step (.fromGate f)
      obtain ⟨hlast, htold', hpty'⟩ := hstep.settle env
      exact ⟨hlast, htold'.trans htold, hpty'.trans hpty⟩
    | print chunk => exact leg.step (.print chunk)
    | exit code => exact leg.step (.exit code)
    | push | drain => exact leg.settle env
  obtain ⟨hleg, htold, hstreamed⟩ := hleg
  apply Agree.ended hleg hpoll (hstreamed.trans streamed) (hpolled.trans polled)
  rw [htold, hsent, told]

theorem beat_frame (l : Leg) (env : Environment) (f : Frame) :
    l.beat env (.frame f) = (l.step (.fromGate f)).settle env := rfl

theorem frame (A : Agree settings h s l q) (hdepth : 0 < h.queueDepth) {f : Frame}
    (hb : s.Admits settings h (.frame f)) :
    Agree settings h (s.after settings (.frame f)) (l.beat env (.frame f))
      (q.beat (Host.exchange env metrics) (.frame f)) := by
  obtain ⟨hrest, hsmall⟩ := hb
  cases A with
  | @going t u waiting leg fetches pty exitCode told waits last rest =>
    obtain rfl := rest hrest
    have unread := fetches.rest hrest
    obtain ⟨running, -⟩ := Polling.exitCode_of_unread unread
    have streamed := leg.frame hdepth (exitCode.trans running) env f
    have polled := fetches.frame env metrics hrest f hsmall
    have told : joinData l.told = joinData q.poll.sent := by simpa [unread] using told
    cases hd : f.deed with
    | nothing =>
      rw [hd] at streamed polled
      obtain ⟨hleg, htold⟩ := streamed
      obtain ⟨hpoll, hsent⟩ := polled
      refine .going hleg hpoll pty exitCode ?_ (Nat.zero_le _) last (fun _ => rfl)
      rw [beat_frame, htold, hsent, unread, List.append_nil, List.append_nil, told]
    | input i =>
      rw [hd] at streamed polled
      obtain ⟨hleg, htold⟩ := streamed
      obtain ⟨hpoll, hsent⟩ := polled
      have given : t.pty.given i = u.pty.given i := by rw [pty]
      have still : Terminal.unread { u with pty := u.pty.given i } = [] := unread
      refine .going hleg hpoll given exitCode ?_ (Nat.zero_le _) last (fun _ => rfl)
      rw [beat_frame, htold, hsent, still, List.append_nil, List.append_nil, told]
    | answer timestamp =>
      rw [hd] at streamed polled
      obtain ⟨hleg, htold⟩ := streamed
      obtain ⟨hpoll, hsent⟩ := polled
      refine .going hleg hpoll pty exitCode ?_ (Nat.zero_le _) last (fun _ => rfl)
      rw [beat_frame, htold, hsent, unread, List.append_nil, List.append_nil]
      exact Message.joinData_append_congr_left told _
    | leave =>
      rw [hd] at streamed polled
      obtain ⟨hleg, htold, hstreamed⟩ := streamed
      obtain ⟨hpoll, hsent, hpolled⟩ := polled
      refine .ended hleg hpoll (hstreamed.trans leg.pty?) ?_ ?_
      · rw [hpolled, fetches.pty?, pty]
      · rw [beat_frame, htold, hsent, told]
  | ahead leg fetches pty exited told =>
    obtain ⟨running, -⟩ := Polling.exitCode_of_unread (fetches.rest hrest)
    simp [running] at exited
  | ended leg poll streamed polled told =>
    exact after_ended env metrics leg poll streamed polled told _

theorem print (A : Agree settings h s l q) {chunk : Bytes}
    (hb : s.Admits settings h (.print chunk)) :
    Agree settings h (s.after settings (.print chunk)) (l.beat env (.print chunk))
      (q.beat (Host.exchange env metrics) (.print chunk)) := by
  obtain ⟨hne, hexited, hceiling, hroom⟩ := hb
  cases A with
  | @going t u waiting leg fetches pty exitCode told waits last rest =>
    have running := fetches.exitCode hexited
    obtain ⟨t', hlive, hpty, hexit⟩ := leg.stream.publish (Nat.lt_of_le_of_lt waits hroom)
      (exitCode.trans running) chunk
    obtain ⟨v, hfetches, hpty', hexit', hunread⟩ :=
      fetches.print hne hexited hceiling (Host.exchange env metrics)
    obtain ⟨ms, hlast, calm⟩ := last
    obtain rfl : waiting = ms := by simpa [running] using hlast
    have printed : (l.beat env (.print chunk)).Going t' h.queueDepth (waiting ++ [.data chunk]) :=
      ⟨hlive, leg.isOpen, leg.arrived, leg.returned⟩
    have same : t'.pty = v.pty := by rw [hpty, hpty', pty]
    refine .going printed hfetches same (hexit.trans hexit'.symm) ?_ ?_
      ⟨waiting ++ [.data chunk], ?_, ?_⟩ ?_
    · have before := Message.joinData_append_congr_left told [.data chunk]
      have same : joinData (q.poll.sent ++ u.unread ++ [.data chunk]) =
          joinData (q.poll.sent ++ v.unread) := by
        rw [List.append_assoc, hunread]
        apply Message.joinData_append_congr
        rw [Polling.unread_of_running running]
        split
        · next hnil => simp [hnil]
        · exact Message.joinData_data_data _ _ []
      rw [← List.append_assoc]
      exact before.trans same
    · rw [List.length_append]
      exact Nat.add_le_add_right waits 1
    · simp [hexit']
    · simpa using calm
    · intro hp
      exact absurd hp (by simp [Span.after])
  | ahead leg fetches pty exited told => simp [fetches.exitCode hexited] at exited
  | ended leg poll streamed polled told =>
    exact after_ended env metrics leg poll streamed polled told _

theorem exit (A : Agree settings h s l q) {code : Int32} (hb : s.Admits settings h (.exit code)) :
    Agree settings h (s.after settings (.exit code)) (l.beat env (.exit code))
      (q.beat (Host.exchange env metrics) (.exit code)) := by
  obtain ⟨hexited, hroom⟩ := hb
  cases A with
  | @going t u waiting leg fetches pty exitCode told waits last rest =>
    have running := fetches.exitCode hexited
    obtain ⟨t', hlive, hpty, hexit⟩ := leg.stream.recordExit (Nat.lt_of_le_of_lt waits hroom)
      (exitCode.trans running) code
    obtain ⟨v, hfetches, hpty', hexit', hunread⟩ :=
      fetches.exit hexited code (Host.exchange env metrics)
    obtain ⟨ms, hlast, calm⟩ := last
    obtain rfl : waiting = ms := by simpa [running] using hlast
    have reported : (l.beat env (.exit code)).Going t' h.queueDepth (waiting ++ [.exit code]) :=
      ⟨hlive, leg.isOpen, leg.arrived, leg.returned⟩
    have same : t'.pty = v.pty := by rw [hpty, hpty', pty]
    refine .going reported hfetches same (hexit.trans hexit'.symm) ?_ ?_ ⟨waiting, ?_, calm⟩ ?_
    · have before := Message.joinData_append_congr_left told [.exit code]
      rw [hunread, ← List.append_assoc, ← List.append_assoc]
      exact before
    · rw [List.length_append]
      exact Nat.add_le_add_right waits 1
    · simp [hexit']
    · intro hp
      exact absurd hp (by simp [Span.after])
  | ahead leg fetches pty exited told => simp [fetches.exitCode hexited] at exited
  | ended leg poll streamed polled told =>
    exact after_ended env metrics leg poll streamed polled told _

theorem push (A : Agree settings h s l q) :
    Agree settings h (s.after settings .push) (l.beat env .push)
      (q.beat (Host.exchange env metrics) .push) := by
  cases A with
  | @going t u waiting leg fetches pty exitCode told waits last rest =>
    have pushed := fetches.push
    obtain ⟨ms, hlast, calm⟩ := last
    cases hc : u.exitCode with
    | none =>
      obtain rfl : waiting = ms := by simpa [hc] using hlast
      obtain ⟨hleg, htold⟩ := leg.settle calm env
      refine .going hleg pushed pty exitCode ?_ (Nat.zero_le _) ⟨[], ?_, by simp⟩ (fun _ => rfl)
      · rw [List.append_nil, Leg.beat, htold]
        exact told
      · simp [hc]
    | some code =>
      obtain rfl : waiting = ms ++ [.exit code] := by simpa [hc] using hlast
      obtain ⟨hover, htold, hpty⟩ := leg.settle_exit calm env
      refine .ahead hover pushed ?_ (by simp [hc]) ?_
      · rw [Leg.beat, hpty, leg.pty?, pty]
      · rw [Leg.beat, htold, List.append_assoc]
        exact told
  | @ahead u leg fetches pty exited told =>
    obtain ⟨hover, htold, hpty⟩ := leg.settle env
    apply Agree.ahead hover fetches.push (hpty.trans pty) exited
    rw [htold]
    exact told
  | ended leg poll streamed polled told =>
    exact after_ended env metrics leg poll streamed polled told _

/-- Once the stream has sent what waited, a fetch makes the other tell the same. -/
theorem fetch (A : Agree settings h s l q) (hsent : s.waiting = 0)
    (hwants : settings.pollMillis ≠ 0 ∨ s.due = true) :
    Agree settings h (s.after settings .drain) l (q.beat (Host.exchange env metrics) .drain) := by
  cases A with
  | @going t u waiting leg fetches pty exitCode told waits last rest =>
    have nothing : waiting = [] := by
      rw [hsent] at waits
      exact List.eq_nil_of_length_eq_zero (Nat.le_zero.mp waits)
    subst nothing
    obtain ⟨ms, hlast, -⟩ := last
    have running : u.exitCode = none := by
      simpa using (List.append_eq_nil_iff.mp hlast.symm).2
    obtain ⟨v, hfetches, hpty, hexit, hunread, hsaid⟩ := fetches.drain env metrics hwants running
    refine .going leg hfetches (pty.trans hpty.symm) ?_ ?_ (Nat.zero_le _) ⟨[], ?_, by simp⟩
      (fun _ => rfl)
    · rw [exitCode, running, hexit]
    · rw [hunread, hsaid, List.append_nil (q.poll.sent ++ u.unread)]
      exact told
    · simp [hexit]
  | ahead leg fetches pty exited told =>
    obtain ⟨hpoll, hsaid, hpolled⟩ := fetches.drain_exit env metrics hwants exited
    apply Agree.ended leg hpoll pty (hpolled.trans fetches.pty?)
    rw [hsaid]
    exact told
  | ended leg poll streamed polled told =>
    obtain ⟨hpoll, hsaid, hpolled⟩ :=
      Polling.beat_of_over poll (Host.exchange env metrics) .drain
    apply Agree.ended leg hpoll streamed (hpolled.trans polled)
    rw [hsaid]
    exact told

/-- A drain is a push and then a fetch. -/
theorem drain (A : Agree settings h s l q) (hb : s.Admits settings h .drain) :
    Agree settings h (s.after settings .drain) (l.beat env .drain)
      (q.beat (Host.exchange env metrics) .drain) :=
  (A.push env metrics).fetch env metrics rfl hb

/-- A beat that is in order leaves the two as they stood to each other. -/
theorem beat (A : Agree settings h s l q) (hdepth : 0 < h.queueDepth) {b : Beat}
    (hb : s.Admits settings h b) :
    Agree settings h (s.after settings b) (l.beat env b)
      (q.beat (Host.exchange env metrics) b) := by
  cases b with
  | frame f => exact A.frame env metrics hdepth hb
  | print chunk => exact A.print env metrics hb
  | exit code => exact A.exit env metrics hb
  | push => exact A.push env metrics
  | drain => exact A.drain env metrics hb

/-- Beats that are in order leave the two as they stood to each other. -/
theorem run (A : Agree settings h s l q) (hdepth : 0 < h.queueDepth) {beats : List Beat}
    (horderly : Orderly settings h s beats) :
    Agree settings h (s.run settings beats) (l.beats env beats)
      (q.beats (Host.exchange env metrics) beats) := by
  induction beats generalizing s l q with
  | nil => exact A
  | cons b rest ih =>
    obtain ⟨hb, hrest⟩ := horderly
    exact ih (A.beat env metrics hdepth hb) hrest

/-- Two sessions that have just been started. -/
theorem start {info : SessionInfo} {started : Host.Started} (hfresh : h.terminal = none)
    (hdepth : 0 < h.queueDepth)
    (hs : (h.establish env info.size (info.repo.filter fun r => !Text.blank r)).2 = .ok started)
    (hpid : started.pid < UInt32.size) (hsmall : info.request.encode.length ≤ Http.bodyLimit) :
    Agree settings h {} (Leg.start info env h)
      (Polling.start settings info (Host.exchange env metrics) h) := by
  obtain ⟨workspace, t, u, hestablish, hnew, hpty, hexit, hleg, htold⟩ :=
    Leg.going_opened hfresh hdepth info rfl hs
  obtain ⟨hfetches, hsent⟩ :=
    Polling.fetches_start env metrics settings rfl hsmall hnew hestablish hpid
  have unread := hfetches.rest rfl
  refine .going hleg hfetches hpty (hexit.trans hnew.exitCode.symm) ?_ (Nat.le_refl _)
    ⟨[], ?_, by simp⟩ (fun _ => rfl)
  · rw [Leg.start, htold, hsent, unread]
  · simp [hnew.exitCode]

/-- What two sessions have in common where all output has been fetched. -/
theorem settled (A : Agree settings h s l q) (hrest : s.pending = false) :
    joinData l.told = joinData q.poll.sent
      ∧ (∃ pty, l.pty? = some pty ∧ q.pty? = some pty)
      ∧ (l.pipe.isOpen = false ↔ q.poll.isClosed) := by
  cases A with
  | @going t u waiting leg fetches pty exitCode told waits last rest =>
    obtain rfl := rest hrest
    refine ⟨by simpa [fetches.rest hrest] using told, ⟨t.pty, leg.pty?, ?_⟩, ?_⟩
    · rw [fetches.pty?, pty]
    · simp [leg.isOpen, Edge.Poll.isClosed, fetches.poll.writing]
  | ahead leg fetches pty exited told =>
    obtain ⟨running, -⟩ := Polling.exitCode_of_unread (fetches.rest hrest)
    simp [running] at exited
  | ended leg poll streamed polled told =>
    refine ⟨told, ⟨_, streamed, polled⟩, ?_⟩
    simp [leg.isOpen, Edge.Poll.isClosed, poll.writing]

end Agree

/-- Over beats that are in order, and after which nothing is left to be fetched, a session that
streams and one that polls tell the gate the same, give the terminal the same, and end with the same
frame or the same output. -/
theorem modes_agree {settings : Edge.Settings} {info : SessionInfo} {env : Environment} {h : Host}
    {started : Host.Started} (metrics : Bool) (hfresh : h.terminal = none)
    (hs : (h.establish env info.size (info.repo.filter fun r => !Text.blank r)).2 = .ok started)
    (hpid : started.pid < UInt32.size) (hsmall : info.request.encode.length ≤ Http.bodyLimit)
    (hdepth : 0 < h.queueDepth) {beats : List Beat} (horderly : Orderly settings h {} beats)
    (hrest : (Span.run {} settings beats).pending = false) :
    let ask := Host.exchange env metrics
    let streamed := (Leg.start info env h).beats env
    let polled := (Polling.start settings info ask h).beats ask
    joinData (Frame.messages (streamed beats).pipe.toGate) = joinData (polled beats).poll.sent
      ∧ (∃ t u, (streamed beats).host.terminal = some t ∧ (polled beats).host.terminal = some u
        ∧ t.pty = u.pty)
      ∧ ∀ early, early <+: beats → (Span.run {} settings early).pending = false →
        ((streamed early).pipe.isOpen = false ↔ (polled early).poll.isClosed) := by
  intro ask streamed polled
  have begun : Agree settings h {} (Leg.start info env h) (Polling.start settings info ask h) :=
    Agree.start env metrics hfresh hdepth hs hpid hsmall
  obtain ⟨htold, ⟨pty, hstreamed, hpolled⟩, -⟩ :=
    (begun.run env metrics hdepth horderly).settled hrest
  obtain ⟨t, ht, hpty⟩ := Option.map_eq_some_iff.mp hstreamed
  obtain ⟨u, hu, hpty'⟩ := Option.map_eq_some_iff.mp hpolled
  refine ⟨htold, ⟨t, u, ht, hu, hpty.trans hpty'.symm⟩, ?_⟩
  rintro early ⟨late, rfl⟩ hearly
  have upto : Agree settings h (Span.run {} settings early) (streamed early) (polled early) :=
    begun.run env metrics hdepth horderly.of_append
  exact (upto.settled hearly).2.2

theorem modes_agree_printed :
    let settings : Edge.Settings := { hostUrl := "http://host", mode := .poll }
    let info : SessionInfo := ⟨some "key", ⟨80, 24⟩, none⟩
    let env : Environment := { git := fun _ _ => .failed "", spawn := fun _ => .ok 7 }
    let h : Host := { backlogCeiling := 16, queueDepth := 4, workspace := ⟨⟨[47], ""⟩, [], []⟩ }
    let beats : List Beat :=
      [.print [104], .drain, .frame (.text (Message.encode (.ping 9))), .print [105], .exit 3,
        .push, .drain]
    (∃ started, (h.establish env info.size (info.repo.filter fun r => !Text.blank r)).2 =
        .ok started ∧ started.pid < UInt32.size)
      ∧ info.request.encode.length ≤ Http.bodyLimit
      ∧ Orderly settings h {} beats ∧ (Span.run {} settings beats).pending = false
      ∧ joinData (Frame.messages ((Leg.start info env h).beats env beats).pipe.toGate) =
        joinData ((Polling.start settings info (Host.exchange env false) h).beats
          (Host.exchange env false) beats).poll.sent := by
  intro settings info env h beats
  obtain ⟨started, hs, hpid⟩ : ∃ started, (h.establish env info.size
      (info.repo.filter fun r => !Text.blank r)).2 = .ok started ∧ started.pid < UInt32.size :=
    ⟨_, rfl, by decide⟩
  have small : info.request.encode.length ≤ Http.bodyLimit := by decide
  have ping : (Frame.text (Message.encode (.ping 9))).deed = .answer 9 := by
    simp [Frame.deed, Message.decode?_encode, Message.deed]
  have orderly : Orderly settings h {} beats := by
    have small : (Frame.text (Message.encode (.ping 9))).isSmall = true := by
      simp [Frame.isSmall, ping]
    exact ⟨by decide, by decide, ⟨rfl, small⟩, by decide, by decide, by decide, by decide,
      trivial⟩
  refine ⟨⟨started, hs, hpid⟩, small, orderly, rfl, ?_⟩
  exact (modes_agree false rfl hs hpid small (by decide) orderly rfl).1

end TermLink
