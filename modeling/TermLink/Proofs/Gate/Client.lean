import TermLink.Gate.Client

/-!
# What a client gets

A dial names the key with which the client was admitted, and is made for a client whose key is
accepted or registered. The sessions of a client are those that it has started, as far as they have
come.
-/

namespace TermLink

/-- The fields about a session begin with the client's key. -/
theorem SessionInfo.first?_of_toHeaders? {id : String} {size : Geometry}
    {repo secret : Option String} {headers : Headers}
    (h : SessionInfo.toHeaders? id size repo secret = some headers) :
    headers.first? SessionInfo.idField = some ⟨SessionInfo.idField, Utf8.encode id⟩ := by
  simp only [SessionInfo.toHeaders?, List.cons_append, List.nil_append, List.mapM_cons,
    Option.bind_eq_bind, Option.bind_eq_some_iff, Option.pure_def, Option.some.injEq] at h
  obtain ⟨header, hheader, rest, -, rfl⟩ := h
  rw [Header.ofText?] at hheader
  split at hheader
  · cases hheader
    rw [Headers.first?, List.find?_cons_of_pos (by simp)]
  · cases hheader

namespace Gate

namespace SessionRequest

variable {r : SessionRequest} {backend : Backend} {dial : Dial} {f : String}

/-- A client's key is known to be admitted just when it was accepted or registered. -/
theorem identity_eq_ok_iff : r.identity = .ok f ↔
    r.fingerprint = some f ∧ (r.verdict = some .accepted ∨ r.verdict = some .registered) := by
  rw [identity]
  split <;> simp_all

theorem identity_of_indeterminate (hf : r.fingerprint = some f)
    (hv : r.verdict = some .indeterminate) : r.identity = .error .unverified := by
  rw [identity, hf, hv]

/-- A dial is made for a client whose key is known to be admitted and whose terminal has a size, if
all there is to tell can be written into fields. -/
theorem dial_eq_ok_iff : r.dial backend = .ok dial ↔
    ∃ f size, r.identity = .ok f ∧ r.size = some size
      ∧ SessionInfo.toHeaders? f size r.repo backend.secret = some dial.headers
      ∧ dial.first = .request size r.repo := by
  rw [SessionRequest.dial]
  cases r.identity with
  | error cause => simp [bind, Except.bind]
  | ok f =>
    cases r.size with
    | none => simp [bind, Except.bind]
    | some size =>
      cases hheaders : SessionInfo.toHeaders? f size r.repo backend.secret with
      | none => simp [bind, Except.bind, hheaders]
      | some headers =>
        obtain ⟨written, first⟩ := dial
        simp only [bind, Except.bind, hheaders, Except.ok.injEq, Dial.mk.injEq, Option.some.injEq]
        constructor
        · rintro ⟨rfl, rfl⟩
          exact ⟨f, size, rfl, rfl, hheaders, rfl⟩
        · rintro ⟨_, _, rfl, rfl, hwritten, rfl⟩
          rw [hheaders] at hwritten
          exact ⟨Option.some.inj hwritten, rfl⟩

theorem identity_of_dial (h : r.dial backend = .ok dial) :
    ∃ f, r.identity = .ok f
      ∧ dial.headers.first? SessionInfo.idField =
        some ⟨SessionInfo.idField, Utf8.encode f⟩ := by
  obtain ⟨f, size, hid, -, hheaders, -⟩ := dial_eq_ok_iff.mp h
  exact ⟨f, hid, SessionInfo.first?_of_toHeaders? hheaders⟩

theorem dial_of_identity_error {cause : Refusal} (h : r.identity = .error cause) :
    r.dial backend = .error cause := by
  rw [SessionRequest.dial, h]
  rfl

end SessionRequest

namespace Session

variable {r : SessionRequest} {backend : Backend} {outcome : Dial.Outcome} {line : ClientLine}
  {screen : Screen} {dial : Dial} {stream : Streaming}

/-- A session that streams has made the dial of its request. -/
theorem dial_of_start (h : start backend r outcome line screen = .streaming dial stream) :
    r.dial backend = .ok dial := by
  rw [start] at h
  split at h
  · cases h
  · split at h <;> cases h
    assumption

theorem start_of_error {cause : Refusal} (h : r.dial backend = .error cause) :
    start backend r outcome line screen = refuse cause screen := by
  rw [start, h]

/-- A session goes on streaming with the dial that it has made. -/
theorem streaming_of_step {s : Session} {e : Streaming.Event}
    (h : s.step e = .streaming dial stream) : ∃ before, s = .streaming dial before := by
  cases s with
  | refused => cases h
  | streaming d before =>
    cases h
    exact ⟨before, rfl⟩

end Session

namespace Connection

variable (c : Connection) (i : ChannelId) (call : Call)

theorem step_of_channel {c : Connection} {i : ChannelId} {ch : Channel} {call : Call}
    (h : c.channel? i = some ch) : c.step i call = c.onChannel i ch call := by
  simp only [step, h]

theorem identity_start (repo : Option String) : (c.start i repo).next.identity = c.identity := by
  rw [start]
  split
  · rfl
  · split <;> rfl

/-- A call does not change who the client is. -/
theorem identity_step : (c.step i call).next.identity = c.identity := by
  cases hch : c.channel? i with
  | none => cases call <;> simp only [step, hch, put, drop]
  | some ch =>
    rw [step_of_channel hch]
    cases call with
    | shell => exact c.identity_start i none
    | exec command => exact c.identity_start i _
    | endOfInput =>
      rw [onChannel]
      split <;> rfl
    | openChannel | terminal | window | data | close => rfl

/-- A session is asked for in the name of the connection's client. -/
theorem request_of_start {repo : Option String} {r : SessionRequest}
    (h : (c.start i repo).order = some (.start r)) :
    r.fingerprint = c.identity.map Prod.fst ∧ r.verdict = c.identity.map Prod.snd := by
  rw [start] at h
  split at h
  · cases h
  · split at h
    · cases h
    · cases h
      exact ⟨rfl, rfl⟩

theorem request_of_step {r : SessionRequest} (h : (c.step i call).order = some (.start r)) :
    r.fingerprint = c.identity.map Prod.fst ∧ r.verdict = c.identity.map Prod.snd := by
  cases hch : c.channel? i with
  | none => cases call <;> simp [step, hch] at h
  | some ch =>
    rw [step_of_channel hch] at h
    cases call with
    | shell => exact c.request_of_start i h
    | exec command => exact c.request_of_start i h
    | terminal size => cases h
    | openChannel | window | data | endOfInput | close =>
      simp only [onChannel] at h
      split at h <;> cases h

end Connection

namespace Client

variable {c : Client} {i : ChannelId} {P : Session → Prop}

theorem sessions_onSession {f : Session → Session} (h : ∀ e ∈ c.sessions, P e.2)
    (hf : ∀ s, P s → P (f s)) : ∀ e ∈ (c.onSession i f).sessions, P e.2 := by
  intro e he
  obtain ⟨e', he', rfl⟩ := List.mem_map.mp he
  split
  · exact hf _ (h e' he')
  · exact h e' he'

/-- What each event preserves holds of all sessions of a client, if it holds of those that are
started. -/
theorem sessions_call (backend : Backend) (outcome : Dial.Outcome) (call : Call)
    (h : ∀ e ∈ c.sessions, P e.2) (hstep : ∀ s e, P s → P (s.step e))
    (hstart : ∀ r, (c.connection.step i call).order = some (.start r) →
      P (Session.start backend r outcome {} {})) :
    ∀ e ∈ (c.call backend outcome i call).1.sessions, P e.2 := by
  cases horder : (c.connection.step i call).order with
  | none => simpa only [Client.call, horder] using h
  | some o =>
    simp only [Client.call, horder]
    cases o with
    | start r =>
      rintro e (_ | ⟨_, he⟩)
      · exact hstart r horder
      · exact h e ((List.mem_filter.mp he).1)
    | input chunk => exact sessions_onSession h fun s => hstep s _
    | resize size => exact sessions_onSession h fun s => hstep s _
    | endInput => exact sessions_onSession h fun s => hstep s _
    | leave => exact sessions_onSession h fun s => hstep s _

theorem connection_call (c : Client) (backend : Backend) (outcome : Dial.Outcome) (i : ChannelId)
    (call : Call) :
    (c.call backend outcome i call).1.connection = (c.connection.step i call).next := by
  cases horder : (c.connection.step i call).order with
  | none => simp only [Client.call, horder]
  | some o => cases o <;> simp only [Client.call, horder, obey, Order.event?, onSession]

end Client

end Gate
end TermLink
