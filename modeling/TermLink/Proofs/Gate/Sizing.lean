import TermLink.Proofs.Gate.Channel

/-!
# Whether a client has a terminal

A session is refused for want of a terminal just when no size was told on its channel. A request for
a terminal tells a size; so does a change of the window, whether a terminal was asked for or not.
-/

namespace TermLink.Gate

namespace Call

/-- No size was told last just when none was told. -/
theorem lastSize_eq_none_iff {calls : List Call} :
    lastSize calls = none ↔ ∀ call ∈ calls, call.size? = none := by
  rw [lastSize, List.getLast?_eq_none_iff, List.filterMap_eq_nil_iff]

/-- Where the window is changed only after a terminal was asked for, a size was told just when a
terminal was asked for. -/
theorem size?_eq_none_iff_of_asked {calls : List Call}
    (h : ∀ early size late, calls = early ++ .window size :: late →
      ∃ asked, .terminal asked ∈ early) :
    (∀ call ∈ calls, call.size? = none) ↔ ∀ size, .terminal size ∉ calls := by
  constructor
  · intro none_told size hasked
    cases none_told _ hasked
  · intro none_asked call hcall
    cases call with
    | terminal size => exact absurd hcall (none_asked size)
    | window size =>
      obtain ⟨early, late, rfl⟩ := List.append_of_mem hcall
      obtain ⟨asked, hasked⟩ := h early size late rfl
      exact absurd (List.mem_append_left _ hasked) (none_asked asked)
    | openChannel | shell | exec | data | endOfInput | close => rfl

end Call

namespace SessionRequest

variable {r : SessionRequest} {f : String}

/-- An admitted client is refused for want of a terminal just when its terminal has no size. -/
theorem dial_eq_terminalMissing_iff (backend : Backend) (hid : r.identity = .ok f) :
    r.dial backend = .error .terminalMissing ↔ r.size = none := by
  rw [SessionRequest.dial, hid]
  cases r.size with
  | none => simp [bind, Except.bind]
  | some size =>
    cases hheaders : SessionInfo.toHeaders? f size r.repo backend.secret <;>
      simp [bind, Except.bind, hheaders]

end SessionRequest

namespace Connection

variable {c : Connection} {i : ChannelId} {ch : Channel} {call : Call} {r : SessionRequest}

/-- A session is only started on an open channel without one, by a call that asks for one. -/
theorem channel_of_start (h : (c.step i call).order = some (.start r)) :
    ∃ ch, c.channel? i = some ch ∧ ch.started = false ∧ call.starts
      ∧ r = c.request ch call.repo? := by
  cases hch : c.channel? i with
  | none => cases call <;> simp [step, hch] at h
  | some ch =>
    cases hb : call.bounds with
    | true =>
      rw [step_of_channel hch] at h
      cases call with
      | openChannel | close =>
        simp only [onChannel] at h
        split at h <;> cases h
      | terminal | window | shell | exec | data | endOfInput => cases hb
    | false =>
      rw [(step_within hch hb).2] at h
      split at h
      · cases Call.isStart_of_told? h
      · next idle =>
        split at h
        · next asks =>
          cases h
          exact ⟨ch, rfl, eq_false_of_ne_true idle, asks, rfl⟩
        · cases h

/-- An open channel was opened, and has not been opened again or closed since. -/
theorem exists_opening (hfresh : c.channel? i = none) {calls : List (ChannelId × Call)}
    (hch : (c.run calls).1.channel? i = some ch) :
    ∃ before after, calls = before ++ (i, .openChannel) :: after
      ∧ ∀ call ∈ ofChannel i after, call.bounds = false := by
  induction calls using List.reverseRecOn generalizing ch with
  | nil =>
    rw [run, hfresh] at hch
    cases hch
  | append_singleton earlier e ih =>
    obtain ⟨j, call⟩ := e
    have last : (((c.run earlier).1.step j call).next.channel? i).isSome := by
      rw [run_append] at hch
      exact Option.isSome_iff_exists.mpr ⟨ch, hch⟩
    by_cases hopen : j = i ∧ call = .openChannel
    · obtain ⟨rfl, rfl⟩ := hopen
      exact ⟨earlier, [], rfl, by simp [ofChannel]⟩
    · have kept : ((c.run earlier).1.channel? i).isSome ∧ (j = i → call.bounds = false) := by
        by_cases hj : j = i
        · subst hj
          rw [isSome_channel?_step] at last
          cases hb : call.bounds <;> simp_all
        · rw [← channel?_only, only_step_of_ne _ _ hj, channel?_only] at last
          exact ⟨last, fun h => absurd h hj⟩
      obtain ⟨found, within⟩ := kept
      obtain ⟨ch', hch'⟩ := Option.isSome_iff_exists.mp found
      obtain ⟨before, after, rfl, hbounds⟩ := ih hch'
      refine ⟨before, after ++ [(j, call)], by simp, ?_⟩
      intro next hnext
      rw [ofChannel, List.filter_append, List.map_append, List.mem_append] at hnext
      rcases hnext with old | new
      · exact hbounds next old
      · by_cases hj : j = i
        · obtain rfl : next = call := by simpa [hj] using new
          exact within hj
        · simp [hj] at new

/-- A session that an admitted client asks for is refused for want of a terminal just when no size
was told since its channel was opened. A change of the window tells one as well. Where the window is
changed only after a terminal was asked for, no session goes without a terminal. -/
theorem dial_of_sized (backend : Backend) {who : String × Verdict}
    (hwho : who.2 = .accepted ∨ who.2 = .registered) {calls : List (ChannelId × Call)}
    {i : ChannelId} {call : Call} {r : SessionRequest}
    (h : ((({ identity := some who } : Connection).run calls).1.step i call).order =
      some (.start r)) :
    ∃ before after, calls = before ++ (i, .openChannel) :: after
      ∧ let told := ofChannel i after
        (∀ call ∈ told, call.bounds = false)
          ∧ (r.dial backend = .error .terminalMissing ↔ ∀ call ∈ told, call.size? = none)
          ∧ ((∀ call ∈ told, call.size? = none) → ∀ outcome line screen,
            let s := Session.start backend r outcome line screen
            s = Session.refuse .terminalMissing screen ∧ s.status? = some 1 ∧ s.sent = [])
          ∧ ((∀ early size late, told = early ++ .window size :: late →
              ∃ asked, .terminal asked ∈ early) →
            (r.dial backend = .error .terminalMissing ↔ ∀ size, .terminal size ∉ told)) := by
  obtain ⟨ch, hch, idle, -, rfl⟩ := channel_of_start h
  obtain ⟨before, after, rfl, hbounds⟩ := exists_opening rfl hch
  have identity := identity_run { identity := some who } (before ++ (i, .openChannel) :: after)
  have hid : (request _ ch call.repo?).identity = .ok who.1 :=
    SessionRequest.identity_eq_ok_iff.mpr
      ⟨by rw [request, identity]; rfl, by simpa [request, identity] using hwho⟩
  have size : ch.size = Call.lastSize (ofChannel i after) := by
    rw [run_append, run] at hch
    have known := (identity_step _ i .openChannel).trans
      (identity_run { identity := some who } before)
    obtain ⟨⟨last, hlast, -, hsize⟩, -⟩ := run_opened known (channel?_of_open _ i) hbounds
    obtain rfl : last = ch := Option.some.inj (hlast.symm.trans hch)
    exact hsize idle
  have missing := (SessionRequest.dial_eq_terminalMissing_iff backend hid).trans
    ((Iff.of_eq (congrArg (· = none) size)).trans Call.lastSize_eq_none_iff)
  refine ⟨before, after, rfl, hbounds, missing, ?_, ?_⟩
  · intro untold outcome line screen s
    have refused : s = Session.refuse .terminalMissing screen :=
      Session.start_of_error (missing.mpr untold)
    rw [refused]
    exact ⟨rfl, rfl, rfl⟩
  · intro hasked
    exact missing.trans (Call.size?_eq_none_iff_of_asked hasked)

theorem dial_of_sized_untold :
    let backend : Backend := { url := "ws://edge/ws" }
    let opened : Connection :=
      (({ identity := some ("key", .accepted) } : Connection).run [(0, .openChannel)]).1
    ∃ r, (opened.step 0 .shell).order = some (.start r)
      ∧ r.dial backend = .error .terminalMissing := by
  intro backend opened
  obtain ⟨r, hr⟩ : ∃ r, (opened.step 0 .shell).order = some (.start r) := ⟨_, rfl⟩
  obtain ⟨before, after, hsplit, -, missing, -, -⟩ := dial_of_sized backend (.inl rfl) hr
  have nothing : after = [] := by
    have length := congrArg List.length hsplit
    simp only [List.length_append, List.length_cons, List.length_nil] at length
    exact List.length_eq_zero_iff.mp (by omega)
  rw [nothing] at missing
  exact ⟨r, hr, missing.mpr nofun⟩

/-- A client that has changed its window, and never asked for a terminal, gets a session. -/
theorem dial_without_terminal :
    let backend : Backend := { url := "ws://edge/ws" }
    let calls : List (ChannelId × Call) := [(0, .openChannel), (0, .window ⟨33, 44⟩)]
    let last := (({ identity := some ("key", .accepted) } : Connection).run calls).1
    (∀ size, (0, .terminal size) ∉ calls)
      ∧ ∃ r dial, (last.step 0 .shell).order = some (.start r) ∧ r.dial backend = .ok dial
        ∧ Session.start backend r .opened {} {} = .streaming dial (.ofDial backend dial {} {}) := by
  intro backend calls last
  exact ⟨by simp [calls], _, _, rfl, rfl, rfl⟩

end Connection
end TermLink.Gate
