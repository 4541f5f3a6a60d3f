import TermLink.Proofs.Gate.Client
import TermLink.Proofs.Session.Link

/-!
# What a session types and shows

What is typed reaches the terminal, and what the terminal prints reaches the screen, in order and
without a gap; a session that ends with an exit code has shown all that was printed until the exit.
-/

namespace TermLink.Link

variable {l : Link} {asked first : Message} {before typed : Bytes} {p : Progress}

/-- What has arrived at the gate was queued by the stream, in this order. -/
theorem Inv.messages_prefix (H : l.Inv asked first before typed p) :
    Frame.messages (l.leg.pipe.toGate.take l.fallen) <+: l.leg.stream.queued l.leg.host := by
  obtain ⟨rest, hrest, -⟩ := H.down.messages
  have fallen := Frame.messages_prefix (List.take_prefix l.fallen l.leg.pipe.toGate)
  have passed : Frame.messages l.leg.pipe.toGate <+:
      Frame.messages ((Leg.framesOf l.leg.stream).take l.leg.returned) := ⟨rest, hrest.symm⟩
  have returned := Frame.messages_prefix
    (List.take_prefix l.leg.returned (Leg.framesOf l.leg.stream))
  rw [Leg.framesOf, Frame.messages_ofSender] at returned
  exact ((fallen.trans passed).trans returned).trans (List.prefix_append _ _)

theorem payloads_shown (done : List Message) :
    Message.payloads (done.filter fun m => (Gate.shown? m).isSome) = Message.payloads done := by
  apply Message.payloads_filter
  intro m _ hm
  cases m <;> simp_all [Gate.shown?, Message.payload]

/-- What was shown of the output was queued by the stream. -/
theorem Inv.shown_prefix (H : l.Inv asked first before typed p) :
    Message.payloads l.shown <+: Message.payloads (l.leg.stream.outputs l.leg.host) := by
  obtain ⟨done, rest, hms, hshown, -⟩ := H.reads.log
  rw [hshown, payloads_shown, Host.Stream.outputs, Message.payloads_filter_isOutput]
  have arrived : done <+: Frame.messages (l.leg.pipe.toGate.take l.fallen) := ⟨rest, hms.symm⟩
  exact Message.payloads_prefix (arrived.trans H.messages_prefix)

theorem Inv.shown_of_idle (H : l.Inv asked first before typed none) :
    Message.payloads l.shown = [] := by
  have idle : l.leg.stream.Idle l.leg.host := H.leg
  have shown := H.shown_prefix
  rw [idle.outputs] at shown
  exact List.prefix_nil.mp shown

theorem Inv.shown_of_told {since : Bytes} {closing : Option (Bytes × Int32)}
    (H : l.Inv asked first before typed (some (since, closing))) :
    Message.payloads l.shown <+: since := by
  obtain ⟨t, heard, -⟩ := H.leg
  obtain ⟨chunks, tail, hout, hle, htail, -⟩ := heard.log
  have silent : Message.payloads tail = [] := by
    rcases htail with rfl | ⟨all, code, -, rfl, -⟩ <;> rfl
  have shown := H.shown_prefix
  rw [hout, Message.payloads_append, Message.payloads_map_data, silent, List.append_nil] at shown
  apply (shown.trans hle).trans
  cases closing with
  | none => exact List.prefix_refl _
  | some e => exact heard.before e.1 e.2 rfl

theorem eq_of_append_singleton_prefix {α : Type} {as bs : List α} {a b : α} (ha : a ∉ bs)
    (h : as ++ [a] <+: bs ++ [b]) : as = bs ∧ a = b := by
  rcases List.prefix_concat_iff.mp h with heq | hle
  · obtain ⟨hab, hlast⟩ := List.append_inj' heq rfl
    exact ⟨hab, List.singleton_inj.mp hlast⟩
  · exact absurd (hle.subset (by simp)) ha

/-- A session that was ended by an exit code has shown all that was printed until the exit. -/
theorem Inv.shown_of_exit (H : l.Inv asked first before typed p) {code : Int32}
    (hcode : l.gate.exitCode = some code) :
    ∃ since all, p = some (since, some (all, code)) ∧ Message.payloads l.shown = all := by
  obtain ⟨done, rest, hms, hshown, -, hexit⟩ := H.reads.log
  obtain ⟨more, rfl⟩ := hexit code hcode
  have queued := H.messages_prefix
  rw [hms] at queued
  have outputs : done.filter Message.isOutput ++ [.exit code] <+:
      l.leg.stream.outputs l.leg.host := by
    have upto : done ++ [.exit code] <+: done ++ .exit code :: more := ⟨more, by simp⟩
    have filtered := (upto.trans queued).filter Message.isOutput
    rw [List.filter_append] at filtered
    exact filtered
  cases p with
  | none =>
    have idle : l.leg.stream.Idle l.leg.host := H.leg
    rw [idle.outputs] at outputs
    simp at outputs
  | some progress =>
    obtain ⟨since, closing⟩ := progress
    obtain ⟨t, heard, -⟩ := H.leg
    obtain ⟨chunks, tail, hout, -, htail, -⟩ := heard.log
    have absent : .exit code ∉ chunks.map Message.data := by simp
    rw [hout] at outputs
    rcases htail with rfl | ⟨all, c, rfl, rfl, hall⟩
    · rw [List.append_nil] at outputs
      exact absurd (outputs.subset (by simp)) absent
    · obtain ⟨hdone, hc⟩ := eq_of_append_singleton_prefix absent outputs
      obtain rfl : code = c := by simpa using hc
      refine ⟨since, all, rfl, ?_⟩
      rw [hshown, payloads_shown, ← Message.payloads_filter_isOutput, hdone,
        Message.payloads_map_data, hall]

/-- What is typed into the terminal is a beginning of what the client typed. -/
theorem Inv.input_prefix (H : l.Inv asked first before typed p) (hasked : asked.payload = [])
    {t : Terminal} (ht : l.leg.host.terminal = some t) : t.pty.input <+: typed := by
  cases p with
  | none =>
    have idle : l.leg.stream.Idle l.leg.host := H.leg
    exact absurd (idle.terminal.symm.trans ht) (by simp)
  | some progress =>
    obtain ⟨u, heard, hle, -⟩ := H.leg
    obtain rfl : u = t := Option.some.inj (heard.terminal.symm.trans ht)
    exact hle.trans (H.payloads_arrivals hasked)

/-- Over a run, a session comes to some point of its progress. -/
theorem Inv.run_reached (H : l.Inv asked first before [] none) (hasked : asked.payload = [])
    (events : List Event) : ∃ q, (l.run events).Inv asked first before (typedIn events) q := by
  rcases H.run_idle hasked events with hidle | ⟨early, e, late, rfl, -, htold, -⟩
  · exact ⟨none, by simpa using hidle⟩
  · have told := htold.run_told late
    rw [← run_append, List.append_assoc, List.singleton_append] at told
    exact ⟨_, by simpa [typedIn] using told⟩

/-- A run that was ended by an exit code has shown all that was printed from the moment when the
stream subscribed until the exit. -/
theorem Inv.run_exit (H : l.Inv asked first before typed none) (hasked : asked.payload = [])
    {events : List Event} {code : Int32} (hcode : (l.run events).gate.exitCode = some code) :
    ∃ early e during late, events = early ++ e :: (during ++ .leg (.exit code) :: late)
      ∧ (l.run early).isAttached = false ∧ (l.run (early ++ [e])).isAttached
      ∧ (∀ c, .leg (.exit c) ∉ during)
      ∧ Message.payloads (l.run events).shown = printedIn during := by
  rcases H.run_idle hasked events with hidle | ⟨early, e, late, hsplit, hearly, htold, hjoined⟩
  · obtain ⟨since, all, hp, -⟩ := hidle.shown_of_exit hcode
    cases hp
  · have told := htold.run_told late
    rw [← run_append, List.append_assoc, List.singleton_append, ← hsplit] at told
    obtain ⟨since, all, hp, hshown⟩ := told.shown_of_exit hcode
    obtain ⟨-, hclosing⟩ := Prod.mk.inj (Option.some.inj hp)
    obtain ⟨during, after, rfl, hnone, hall⟩ := closingIn_eq_some hclosing
    exact ⟨early, e, during, after, hsplit, isAttached_of_idle hearly.leg, hjoined, hnone,
      hshown.trans hall⟩

/-- The first message of a dial asks for a terminal. -/
theorem first_of_dial {backend : Gate.Backend} {r : Gate.SessionRequest} {dial : Gate.Dial}
    (hdial : r.dial backend = .ok dial) : ∃ size repo, dial.first = .request size repo := by
  obtain ⟨_, size, -, -, -, hfirst⟩ := Gate.SessionRequest.dial_eq_ok_iff.mp hdial
  exact ⟨size, r.repo, hfirst⟩

/-- Whatever the order of steps, what is typed into the terminal is a beginning of what the client
typed, the output on the screen is a beginning of what was printed since the stream subscribed, and
a session that was ended by an exit code has shown all that was printed until the exit. -/
theorem typed_and_shown {backend : Gate.Backend} {r : Gate.SessionRequest} {dial : Gate.Dial}
    (hdial : r.dial backend = .ok dial) (info : SessionInfo) {h : Host}
    (hfresh : h.terminal = none) (screen : Gate.Screen) (events : List Event) :
    let opened := start backend dial info h screen
    let last := opened.run events
    (∀ t, last.leg.host.terminal = some t → t.pty.input <+: typedIn events)
      ∧ last.gate.screen.written =
        screen.written ++ last.shown.flatMap (fun m => (Gate.shown? m).getD [])
      ∧ (∀ early e late, events = early ++ e :: late → (opened.run early).isAttached = false →
        (opened.run (early ++ [e])).isAttached →
          Message.payloads last.shown <+: printedIn late)
      ∧ ((∀ early, early <+: events → (opened.run early).isAttached = false) →
        Message.payloads last.shown = [])
      ∧ ∀ code, last.gate.exitCode = some code → ∃ early e during late,
        events = early ++ e :: (during ++ .leg (.exit code) :: late)
          ∧ (opened.run early).isAttached = false ∧ (opened.run (early ++ [e])).isAttached
          ∧ (∀ c, .leg (.exit c) ∉ during)
          ∧ Message.payloads last.shown = printedIn during := by
  intro opened last
  have hfirst : dial.first.payload = [] := by
    obtain ⟨size, repo, hfirst⟩ := first_of_dial hdial
    rw [hfirst]
    rfl
  have inv : opened.Inv info.request dial.first screen.written [] none :=
    inv_start backend info hfresh hfirst screen
  have hasked : info.request.payload = [] := rfl
  obtain ⟨p, hlast⟩ := inv.run_reached hasked events
  refine ⟨?_, hlast.written, ?_, ?_, ?_⟩
  · intro t ht
    exact hlast.input_prefix hasked ht
  · rintro early e late rfl hnot hjoined
    have told := (inv.run_attach hasked hnot hjoined).run_told late
    rw [← run_append, List.append_assoc, List.singleton_append, List.nil_append] at told
    exact told.shown_of_told
  · intro hnever
    rcases inv.run_idle hasked events with hidle | ⟨early, e, late, rfl, -, -, hjoined⟩
    · exact hidle.shown_of_idle
    · rw [hnever (early ++ [e]) ⟨late, by simp⟩] at hjoined
      exact absurd hjoined Bool.false_ne_true
  · intro code hcode
    exact inv.run_exit hasked hcode

theorem typed_and_shown_printed :
    let backend : Gate.Backend := { url := "ws://edge/ws" }
    let r : Gate.SessionRequest :=
      { fingerprint := some "key", verdict := some .accepted, size := some ⟨80, 24⟩, repo := none }
    let info : SessionInfo := ⟨some "key", ⟨80, 24⟩, none⟩
    let env : Environment := { git := fun _ _ => .failed "", spawn := fun _ => .ok 7 }
    let h : Host := { backlogCeiling := 16, queueDepth := 4, workspace := ⟨⟨[47], ""⟩, [], []⟩ }
    let dial := (r.dial backend).toOption.getD ⟨[], info.request⟩
    let arrive : Event := .leg (.arrive env)
    let typing : List Event :=
      [.gate (.input [120]), .gate .forwardInput, .gate .write, .rise, .rise]
    let printing : List Event := [arrive, arrive, .leg (.print [104])]
    let fetching : List Event := [.leg .send, .leg .back, .fall]
    let late := typing ++ (printing ++ .leg (.exit 3) :: (fetching ++ fetching))
    let last := (start backend dial info h {}).run (arrive :: late)
    r.dial backend = .ok dial ∧ h.terminal = none
      ∧ (∃ t, last.leg.host.terminal = some t ∧ t.pty.input = [120]
        ∧ [120] <+: typedIn (arrive :: late))
      ∧ last.gate.screen.written = [104]
      ∧ Message.payloads last.shown <+: printedIn late
      ∧ last.gate.exitCode = some 3
      ∧ ∃ during, (∃ early after, arrive :: late = early ++ (during ++ .leg (.exit 3) :: after))
        ∧ Message.payloads last.shown = printedIn during := by
  intro backend r info env h dial arrive typing printing fetching late last
  have hdial : r.dial backend = .ok dial := rfl
  have hfresh : h.terminal = none := rfl
  have input : last.leg.host.terminal.map (·.pty.input) = some [120] := by decide +kernel
  have written : last.gate.screen.written = [104] := by decide +kernel
  have ended : last.gate.exitCode = some 3 := by decide +kernel
  have apart : ((start backend dial info h {}).run []).isAttached = false := by decide +kernel
  have attached : ((start backend dial info h {}).run [arrive]).isAttached := by decide +kernel
  subst last
  have all := typed_and_shown hdial info hfresh {} (arrive :: late)
  refine ⟨hdial, hfresh, ?_, written, ?_, ended, ?_⟩
  · obtain ⟨t, ht, hinput⟩ := Option.map_eq_some_iff.mp input
    have typed := all.1 t ht
    rw [hinput] at typed
    exact ⟨t, ht, hinput, typed⟩
  · exact all.2.2.1 [] arrive late rfl apart attached
  · obtain ⟨early, e, during, after, split, -, -, -, whole⟩ := all.2.2.2.2 3 ended
    refine ⟨during, ⟨early ++ [e], after, ?_⟩, whole⟩
    rw [split, List.append_assoc, List.singleton_append]

end TermLink.Link
