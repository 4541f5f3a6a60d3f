import TermLink.Edge.Options
import TermLink.Edge.Reception
import TermLink.Proofs.Session.Metadata

/-!
# The secret that gate and edge share

A gate that is told the edge's secret is let in, as long as the secret reaches the edge as it is:
it must be written of visible ASCII characters, and not begin or end with a space or a tab. No other
secret lets a gate in, and neither does none.

## Implementation notes

A request may carry further fields, and each of the dial's fields may lose the spaces and tabs at
the ends of its value on the way, or some of them.
-/

namespace TermLink

variable {backend : Gate.Backend} {r : Gate.SessionRequest} {dial : Gate.Dial}
  {sent arrived : Headers}

namespace Headers

/-- A request with header fields that arrive presents just the secret that was sent, worn or not. -/
def ConveysSecret (sent arrived : Headers) : Prop :=
  List.Forall₂ Header.Worn (sent.filter fun h => h.name = SessionInfo.secretField)
    (arrived.filter fun h => h.name = SessionInfo.secretField)

theorem text?_eq_filter (hs : Headers) (name : String) :
    hs.text? name = (hs.filter fun h => h.name = name).head?.bind Header.text? := by
  rw [List.head?_filter]
  rfl

/-- Where no secret was sent, none arrives. -/
theorem ConveysSecret.none (h : ConveysSecret sent arrived)
    (hread : ∀ field ∈ sent, field.text?.isSome)
    (hsent : sent.text? SessionInfo.secretField = none) :
    arrived.text? SessionInfo.secretField = none := by
  rw [text?_eq_filter] at hsent ⊢
  cases hfields : sent.filter fun h => h.name = SessionInfo.secretField with
  | nil =>
    rw [ConveysSecret, hfields] at h
    rw [List.forall₂_nil_left_iff.mp h]
    rfl
  | cons field rest =>
    have mem : field ∈ sent := List.mem_of_mem_filter (hfields ▸ List.mem_cons_self)
    rw [hfields, List.head?_cons, Option.bind_some] at hsent
    exact absurd (hread field mem) (by simp [hsent])

/-- The secret that was sent arrives, perhaps without spaces and tabs at its ends. -/
theorem ConveysSecret.some (h : ConveysSecret sent arrived) {t : String}
    (hsent : sent.text? SessionInfo.secretField = some t) :
    ∃ lead inner tail, arrived.text? SessionInfo.secretField = some inner
      ∧ (∀ c ∈ lead, Header.isPaddingChar c) ∧ (∀ c ∈ tail, Header.isPaddingChar c)
      ∧ t.toList = lead ++ inner.toList ++ tail := by
  rw [text?_eq_filter] at hsent
  cases hfields : sent.filter fun h => h.name = SessionInfo.secretField with
  | nil =>
    rw [hfields] at hsent
    cases hsent
  | cons field rest =>
    rw [hfields, List.head?_cons, Option.bind_some] at hsent
    rw [ConveysSecret, hfields] at h
    obtain ⟨got, others, worn, -, harrived⟩ := List.forall₂_cons_left_iff.mp h
    obtain ⟨lead, inner, tail, hinner, around⟩ := worn.text? hsent
    refine ⟨lead, inner, tail, ?_, around⟩
    rw [text?_eq_filter, harrived]
    exact hinner

/-- Fields may arrive without any of the spaces and tabs around their values. -/
theorem conveysSecret_delivered (sent : Headers) :
    ConveysSecret sent (sent.map Header.delivered) := by
  rw [ConveysSecret, List.filter_map]
  apply List.forall₂_map_right_iff.mpr
  apply List.forall₂_same.mpr
  intro h _
  exact h.worn_delivered

theorem text?_delivered {name t : String} (hsent : sent.text? name = some t) :
    text? (sent.map Header.delivered) name = some (Header.unpadded t) := by
  rw [text?, first?] at hsent ⊢
  obtain ⟨field, hfield, htext⟩ := Option.bind_eq_some_iff.mp hsent
  rw [List.find?_map]
  have found : sent.find? ((fun h => decide (h.name = name)) ∘ Header.delivered) = some field :=
    hfield
  rw [found]
  exact Header.text?_delivered htext

end Headers

/-- A session can be told about if whatever there is to tell can be written. -/
theorem SessionInfo.isSome_toHeaders?_iff (id : String) (size : Geometry)
    (repo secret : Option String) :
    (toHeaders? id size repo secret).isSome ↔
      (toHeaders? id size none none).isSome ∧ (∀ r ∈ repo, Header.Writable r)
        ∧ ∀ s ∈ secret.filter (· ≠ ""), Header.Writable s := by
  have given (name : String) (value : Option String) :
      (∀ field ∈ (value.map fun v => (name, v)).toList,
          (Header.ofText? field.1 field.2).isSome) ↔ ∀ v ∈ value, Header.Writable v := by
    cases value <;> simp [Header.isSome_ofText?]
  have nothing : (none : Option String).filter (· ≠ "") = none := rfl
  simp only [toHeaders?, isSome_mapM, List.forall_mem_append, given, nothing]
  simp [and_assoc]

/-- A secret keeps no dial from being made that could be made without one, unless it cannot be
written. -/
theorem SessionInfo.isSome_toHeaders? {s : String} (hs : s ≠ "") (id : String) (size : Geometry)
    (repo : Option String) :
    (toHeaders? id size repo (some s)).isSome ↔
      (toHeaders? id size repo none).isSome ∧ Header.Writable s := by
  have given : (some s).filter (· ≠ "") = some s := by simp [hs]
  have nothing : (none : Option String).filter (· ≠ "") = none := rfl
  rw [isSome_toHeaders?_iff, isSome_toHeaders?_iff id size repo none, given, nothing]
  simp [and_assoc]

namespace Gate

theorem Settings.secret_of_ofReading {options : CommandLine.Reading} {gate : Settings}
    (h : Settings.ofReading options = .ok gate) :
    gate.backend.secret = (options.text? Options.secret).filter (· ≠ "") := by
  unfold Settings.ofReading at h
  dsimp only [bind, Except.bind] at h
  split at h
  · split at h
    · cases h
    · rw [← Except.ok.inj h]
  · cases h

theorem SessionRequest.exists_dial : (∃ dial, r.dial backend = .ok dial) ↔
    ∃ f size, r.identity = .ok f ∧ r.size = some size
      ∧ (SessionInfo.toHeaders? f size r.repo backend.secret).isSome := by
  simp only [dial_eq_ok_iff, Option.isSome_iff_exists]
  constructor
  · rintro ⟨dial, f, size, hf, hsize, hheaders, -⟩
    exact ⟨f, size, hf, hsize, dial.headers, hheaders⟩
  · rintro ⟨f, size, hf, hsize, headers, hheaders⟩
    exact ⟨⟨headers, .request size r.repo⟩, f, size, hf, hsize, hheaders, rfl⟩

theorem SessionRequest.exists_dial_secret {s : String} (hs : s ≠ "")
    (hbackend : backend.secret = some s) :
    (∃ dial, r.dial backend = .ok dial) ↔
      (∃ dial, r.dial { backend with secret := none } = .ok dial) ∧ Header.Writable s := by
  simp only [exists_dial, hbackend, SessionInfo.isSome_toHeaders? hs]
  constructor
  · rintro ⟨f, size, hf, hsize, written, hwritable⟩
    exact ⟨⟨f, size, hf, hsize, written⟩, hwritable⟩
  · rintro ⟨⟨f, size, hf, hsize, written⟩, hwritable⟩
    exact ⟨f, size, hf, hsize, written, hwritable⟩

theorem SessionRequest.secret_of_dial (h : r.dial backend = .ok dial) :
    (∀ field ∈ dial.headers, field.text?.isSome)
      ∧ dial.headers.text? SessionInfo.secretField = backend.secret.filter (· ≠ "") := by
  obtain ⟨f, size, -, -, hheaders, -⟩ := dial_eq_ok_iff.mp h
  obtain ⟨readable, hid, hcols, hrows, hrepo, hsecret⟩ := SessionInfo.text?_of_toHeaders? hheaders
  exact ⟨readable, hsecret⟩

/-- A secret is presented, whatever happens to its field on the way, just when nothing can happen
to it. -/
theorem SessionRequest.presents_iff {s : String} (hs : s ≠ "") (hbackend : backend.secret = some s)
    (hdial : r.dial backend = .ok dial) :
    (∀ arrived, Headers.ConveysSecret dial.headers arrived →
        arrived.text? SessionInfo.secretField = some s) ↔
      Header.unpadded s = s := by
  have sent : dial.headers.text? SessionInfo.secretField = some s := by
    rw [(secret_of_dial hdial).2, hbackend]
    simp [hs]
  constructor
  · intro always
    have arrives := always _ (Headers.conveysSecret_delivered dial.headers)
    rw [Headers.text?_delivered sent] at arrives
    exact Option.some.inj arrives
  · intro clean arrived conveys
    obtain ⟨lead, inner, tail, hinner, hlead, htail, heq⟩ := conveys.some sent
    have kept : trim Header.isPaddingChar s.toList = s.toList := by
      rw [← String.toList_ofList (l := trim Header.isPaddingChar s.toList)]
      exact congrArg String.toList clean
    rw [heq] at kept
    obtain ⟨rfl, rfl⟩ := eq_nil_of_trim_eq_self hlead htail kept
    rw [List.nil_append, List.append_nil] at heq
    rw [hinner, String.toList_inj.mp heq]

/-- Only a secret that is the same up to the spaces and tabs at its ends can be taken for
another. -/
theorem SessionRequest.unpadded_of_presents {s : String} (hdial : r.dial backend = .ok dial)
    (conveys : Headers.ConveysSecret dial.headers arrived)
    (hs : arrived.text? SessionInfo.secretField = some s) :
    ∃ t, backend.secret = some t ∧ Header.unpadded t = Header.unpadded s := by
  obtain ⟨readable, sent⟩ := secret_of_dial hdial
  cases hsent : dial.headers.text? SessionInfo.secretField with
  | none =>
    rw [conveys.none readable hsent] at hs
    cases hs
  | some t =>
    obtain ⟨lead, inner, tail, hinner, hlead, htail, heq⟩ := conveys.some hsent
    obtain rfl : inner = s := Option.some.inj (hinner.symm.trans hs)
    refine ⟨t, (Option.filter_eq_some_iff.mp (sent.symm.trans hsent)).1, ?_⟩
    rw [Header.unpadded, Header.unpadded, heq, trim_append_right htail, trim_append_left hlead]

end Gate

namespace Edge

theorem ServerSettings.secret_of_ofReading {options : CommandLine.Reading} {edge : ServerSettings}
    (h : ServerSettings.ofReading options = .ok edge) :
    edge.settings.secret = (options.text? Options.secret).filter (· ≠ "") := by
  unfold ServerSettings.ofReading at h
  dsimp only [bind, Except.bind] at h
  split at h
  · split at h
    · rw [← Except.ok.inj h]
    · cases h
  · cases h

variable {σ : Type} {settings : Settings} (line : HostLine σ) (h : σ)
  (refusal : Option Http.UpgradeRefusal) {s : String}

theorem receive_of_not_admits (hno : admits settings.secret arrived = false) :
    receive settings line h refusal arrived = (h, .answered unauthorized) := by
  unfold receive
  rw [hno, if_neg Bool.false_ne_true]

/-- Nobody who is let in gets the response to a gate without the secret. -/
theorem receive_ne_unauthorized (hnone : settings.secret = none) :
    receive settings line h refusal arrived ≠ (h, .answered unauthorized) := by
  intro heq
  unfold receive at heq
  rw [hnone, admits, if_pos rfl] at heq
  cases refusal with
  | some cause =>
    have status : cause.status = 401 := by
      have response : cause.response = unauthorized := by
        injection (congrArg Prod.snd heq)
      exact congrArg Http.Response.status response
    cases cause <;> simp [Http.UpgradeRefusal.status] at status
  | none =>
    have session := congrArg Prod.snd heq
    simp only [beginSession] at session
    split at session <;> cases session

/-- A gate is let in, as if there was no secret, just when it presents the one that is set. -/
theorem receive_eq_iff (hs : settings.secret = some s) :
    receive settings line h refusal arrived =
        receive { settings with secret := none } line h refusal arrived ↔
      arrived.text? SessionInfo.secretField = some s := by
  have admitted : admits settings.secret arrived ↔
      arrived.text? SessionInfo.secretField = some s := by
    rw [hs, admits, decide_eq_true_eq]
  rw [← admitted]
  cases ha : admits settings.secret arrived with
  | true =>
    refine ⟨fun _ => rfl, fun _ => ?_⟩
    unfold receive
    rw [ha]
    rfl
  | false =>
    rw [receive_of_not_admits line h refusal ha]
    refine ⟨fun heq => ?_, nofun⟩
    exact absurd heq.symm (receive_ne_unauthorized line h refusal rfl)

end Edge

/-- A gate and an edge are told secrets. A gate that is told the edge's own can dial unless the
secret cannot be written, and it is let in, whatever happens to the field on its way, just when the
secret neither begins nor ends with a space or a tab. A gate without a secret, or with one that
differs by more than such ends, is turned away, and nothing reaches the host. -/
theorem let_in_with_secret {gateOptions edgeOptions : CommandLine.Reading} {gate : Gate.Settings}
    {edge : Edge.ServerSettings} (hgate : Gate.Settings.ofReading gateOptions = .ok gate)
    (hedge : Edge.ServerSettings.ofReading edgeOptions = .ok edge) {s : String} (hs : s ≠ "")
    (hset : edgeOptions.text? Edge.Options.secret = some s) (r : Gate.SessionRequest) {σ : Type}
    (line : Edge.HostLine σ) (h : σ) (refusal : Option Http.UpgradeRefusal) :
    let receive := Edge.receive edge.settings line h refusal
    let receiveFreely := Edge.receive { edge.settings with secret := none } line h refusal
    (gateOptions.text? Gate.Options.secret = some s →
      ((∃ dial, r.dial gate.backend = .ok dial) ↔
        (∃ dial, r.dial { gate.backend with secret := none } = .ok dial) ∧ Header.Writable s)
      ∧ ∀ dial, r.dial gate.backend = .ok dial →
        ((∀ arrived, Headers.ConveysSecret dial.headers arrived →
            receive arrived = receiveFreely arrived) ↔
          Header.unpadded s = s))
      ∧ ((∀ t, gate.backend.secret = some t → Header.unpadded t ≠ Header.unpadded s) →
        ∀ dial, r.dial gate.backend = .ok dial →
          ∀ arrived, Headers.ConveysSecret dial.headers arrived →
            receive arrived = (h, .answered Edge.unauthorized)) := by
  intro receive receiveFreely
  have expected : edge.settings.secret = some s := by
    rw [Edge.ServerSettings.secret_of_ofReading hedge, hset]
    simp [hs]
  constructor
  · intro same
    have offered : gate.backend.secret = some s := by
      rw [Gate.Settings.secret_of_ofReading hgate, same]
      simp [hs]
    refine ⟨Gate.SessionRequest.exists_dial_secret hs offered, ?_⟩
    intro dial hdial
    rw [← Gate.SessionRequest.presents_iff hs offered hdial]
    apply forall₂_congr
    intro arrived _
    exact Edge.receive_eq_iff line h refusal expected
  · intro differs dial hdial arrived conveys
    apply Edge.receive_of_not_admits
    rw [expected, Edge.admits, decide_eq_false_iff_not]
    intro presented
    obtain ⟨t, offered, alike⟩ :=
      Gate.SessionRequest.unpadded_of_presents hdial conveys presented
    exact differs t offered alike

theorem let_in_with_secret_plain :
    let options : CommandLine.Reading :=
      { given := [("worker-url", .text "ws://edge/ws"), ("auth-secret", .text "open sesame")] }
    let gate : Gate.Settings :=
      { listen := .v4 [0, 0, 0, 0] 2222, hostKey := "/etc/ssh-relay/host_key"
        keyStore := "/var/lib/ssh-relay/keys.db", autoRegister := true
        backend := { url := "ws://edge/ws", secret := some "open sesame", pingMillis := 100 } }
    let edge : Edge.ServerSettings :=
      { listen := .v4 [0, 0, 0, 0] 8081
        settings :=
          { hostUrl := "http://127.0.0.1:8080", mode := .stream, secret := some "open sesame" }
        timeoutSeconds := 30 }
    let r : Gate.SessionRequest :=
      { fingerprint := some "key", verdict := some .accepted, size := some ⟨80, 24⟩, repo := none }
    Gate.Settings.ofReading options = .ok gate ∧ Edge.ServerSettings.ofReading options = .ok edge
      ∧ ∃ dial, r.dial gate.backend = .ok dial
        ∧ ∀ (line : Edge.HostLine Unit) (refusal : Option Http.UpgradeRefusal) (arrived : Headers),
          Headers.ConveysSecret dial.headers arrived →
            Edge.receive edge.settings line () refusal arrived =
              Edge.receive { edge.settings with secret := none } line () refusal arrived := by
  intro options gate edge r
  have hgate : Gate.Settings.ofReading options = .ok gate := by decide +kernel
  have hedge : Edge.ServerSettings.ofReading options = .ok edge := by decide +kernel
  obtain ⟨dial, hdial⟩ : ∃ dial, r.dial gate.backend = .ok dial := ⟨_, rfl⟩
  refine ⟨hgate, hedge, dial, hdial, ?_⟩
  intro line refusal
  have both := (let_in_with_secret hgate hedge (by decide) rfl r line () refusal).1 rfl
  exact (both.2 dial hdial).mpr (by decide +kernel)

/-- A secret that both sides take does not let the gate in where it begins with a space, which is
lost on the way. -/
theorem turned_away_with_spaced_secret :
    let options : CommandLine.Reading :=
      { given := [("worker-url", .text "ws://edge/ws"), ("auth-secret", .text " s")] }
    let r : Gate.SessionRequest :=
      { fingerprint := some "key", verdict := some .accepted, size := some ⟨80, 24⟩, repo := none }
    ∃ gate edge dial, Gate.Settings.ofReading options = .ok gate
      ∧ Edge.ServerSettings.ofReading options = .ok edge ∧ r.dial gate.backend = .ok dial
      ∧ ∃ arrived, Headers.ConveysSecret dial.headers arrived
        ∧ ∀ (line : Edge.HostLine Unit) (refusal : Option Http.UpgradeRefusal),
          Edge.receive edge.settings line () refusal arrived =
            ((), .answered Edge.unauthorized) := by
  intro options r
  let gate : Gate.Settings :=
    { listen := .v4 [0, 0, 0, 0] 2222, hostKey := "/etc/ssh-relay/host_key"
      keyStore := "/var/lib/ssh-relay/keys.db", autoRegister := true
      backend := { url := "ws://edge/ws", secret := some " s", pingMillis := 100 } }
  let edge : Edge.ServerSettings :=
    { listen := .v4 [0, 0, 0, 0] 8081
      settings := { hostUrl := "http://127.0.0.1:8080", mode := .stream, secret := some " s" }
      timeoutSeconds := 30 }
  obtain ⟨dial, hdial⟩ : ∃ dial, r.dial gate.backend = .ok dial := ⟨_, rfl⟩
  refine ⟨gate, edge, dial, by decide +kernel, by decide +kernel, hdial,
    dial.headers.map Header.delivered, Headers.conveysSecret_delivered _, ?_⟩
  intro line refusal
  apply Edge.receive_of_not_admits
  have sent : dial.headers.text? SessionInfo.secretField = some " s" :=
    (Gate.SessionRequest.secret_of_dial hdial).2
  rw [Edge.admits, Headers.text?_delivered sent]
  decide +kernel

end TermLink
