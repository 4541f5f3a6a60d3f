import TermLink.Proofs.Gate.Admission
import TermLink.Proofs.Gate.Client

/-!
# Visits

A client that has come to a gate shows its keys, one after the other, and asks for sessions once it
is admitted. Every dial that is made for it names the key with which it was admitted, and no failure
of the store turns it away.

## Implementation notes

A client shows one key at a time, and none after it was admitted; before that it cannot ask for
anything. The findings and the changes of a decision, and the dials of a client, are not needed to
go on; they only tell what has happened.
-/

namespace TermLink.Gate

/-- A decision about a key that a client has shown. -/
structure Hearing where
  key : ClientKey
  stage : Admission.Stage := .lookup
  /-- What the store has told, oldest first. -/
  findings : List Admission.Finding := []
  /-- Whether a call has changed the keys in the store. -/
  changed : Bool := false
  deriving DecidableEq, Repr

namespace Hearing

/-- Makes the next call to the store. -/
def consult (autoRegister : Bool) (now : Instant) (fails : Bool) (h : Hearing) (keys : Keyring) :
    Hearing × Keyring :=
  let (stage, keys') := h.stage.step autoRegister h.key now fails keys
  let told := h.stage.tells fails (keys.contains h.key.fingerprint)
    (keys'.contains h.key.fingerprint)
  ({ h with stage, findings := h.findings ++ told, changed := h.changed || keys' != keys }, keys')

/-- Its course fits what the store has told, and nothing is changed for a key that the store does
not vouch for. -/
structure Sound (autoRegister : Bool) (h : Hearing) : Prop where
  course : Admission.Course autoRegister h.findings h.stage
  changed : h.changed = true → Admission.Vouched h.findings

variable {autoRegister : Bool} {h : Hearing}

theorem Sound.consult (hsound : h.Sound autoRegister) (now : Instant) (fails : Bool)
    (keys : Keyring) : (h.consult autoRegister now fails keys).1.Sound autoRegister := by
  obtain ⟨course, vouched⟩ :=
    (Admission.moves_step autoRegister h.key now fails h.stage keys).course hsound.course
  refine ⟨course, fun hchanged => ?_⟩
  rcases (Bool.or_eq_true _ _).mp hchanged with before | now
  · exact (hsound.changed before).imp (List.mem_append_left _) (List.mem_append_left _)
  · exact vouched (bne_iff_ne.mp now)

end Hearing

/-- A client that has come to the gate. -/
structure Visit where
  client : Client := {}
  /-- The decision that is under way. -/
  hearing : Option Hearing := none
  /-- The decisions that were taken, oldest first. -/
  heard : List Hearing := []
  /-- The dials that were made for the client, oldest first. -/
  dials : List Dial := []

namespace Visit

/-- Who the client is, once it was admitted. -/
def identity (visit : Visit) : Option (String × Verdict) := visit.client.connection.identity

/-- All decisions about the client's keys, oldest first. -/
def hearings (visit : Visit) : List Hearing := visit.heard ++ visit.hearing.toList

/-- The client shows a key. -/
def offer (visit : Visit) (key : ClientKey) : Visit :=
  if visit.hearing.isNone && visit.identity.isNone then { visit with hearing := some { key } }
  else visit

/-- A decision was taken. -/
def conclude (visit : Visit) (h : Hearing) (v : Verdict) : Visit :=
  let connection := visit.client.connection.authenticate h.key.fingerprint v
  { visit with
    client := { visit.client with connection }
    hearing := none
    heard := visit.heard ++ [h] }

/-- The decision that is under way makes its next call to the store. -/
def consult (autoRegister : Bool) (now : Instant) (fails : Bool) (visit : Visit) (keys : Keyring) :
    Visit × Keyring :=
  match visit.hearing with
  | none => (visit, keys)
  | some h =>
    let (h, keys) := h.consult autoRegister now fails keys
    match h.stage with
    | .decided v => (visit.conclude h v, keys)
    | _ => ({ visit with hearing := some h }, keys)

/-- The dial that a call on a channel leads to. -/
def dial? (backend : Backend) (visit : Visit) (i : ChannelId) (call : Call) : Option Dial :=
  match (visit.client.connection.step i call).order with
  | some (.start r) => (r.dial backend).toOption
  | _ => none

/-- The client calls on a channel, which it can do once it was admitted. -/
def call (backend : Backend) (visit : Visit) (i : ChannelId) (call : Call)
    (outcome : Dial.Outcome) : Visit :=
  if visit.identity.isNone then visit
  else
    { visit with
      client := (visit.client.call backend outcome i call).1
      dials := visit.dials ++ (visit.dial? backend i call).toList }

/-- Something happens to the session of a channel. -/
def work (visit : Visit) (i : ChannelId) (e : Streaming.Event) : Visit :=
  { visit with client := visit.client.onSession i fun s => s.step e }

/-- Whether a session is refused because the client's key could not be verified. -/
def Unverified (s : Session) : Prop := ∃ screen, s = .refused .unverified screen

/-- Whether the dial of a session that streams is one of those. -/
def StreamsBy (dials : List Dial) (s : Session) : Prop :=
  ∀ dial stream, s = .streaming dial stream → dial ∈ dials

theorem StreamsBy.step {dials : List Dial} {s : Session} (h : StreamsBy dials s)
    (e : Streaming.Event) : StreamsBy dials (s.step e) := by
  intro dial stream hstream
  obtain ⟨before, rfl⟩ := Session.streaming_of_step hstream
  exact h dial before rfl

theorem Unverified.step {s : Session} (h : Unverified s) (e : Streaming.Event) :
    Unverified (s.step e) := by
  obtain ⟨screen, rfl⟩ := h
  exact ⟨screen, rfl⟩

/-- What holds of a client at any time. -/
structure Sound (autoRegister : Bool) (visit : Visit) : Prop where
  hearing {h : Hearing} (hh : visit.hearing = some h) :
    h.Sound autoRegister ∧ visit.identity = none ∧ ∀ v, h.stage ≠ .decided v
  heard {h : Hearing} (hh : h ∈ visit.heard) : h.Sound autoRegister
  /-- A client whose key was not rejected is admitted. -/
  settled {h : Hearing} (hh : h ∈ visit.heard) : h.stage = .decided .rejected
    ∨ ∃ v, h.stage = .decided v ∧ visit.identity = some (h.key.fingerprint, v)
  /-- A client is admitted because of a decision. -/
  named {f : String} {v : Verdict} (hid : visit.identity = some (f, v)) :
    ∃ h ∈ visit.heard, h.key.fingerprint = f ∧ h.stage = .decided v ∧ v.admits = true
  outside (hid : visit.identity = none) : visit.dials = [] ∧ visit.client.sessions = []
  unverified {f : String} (hid : visit.identity = some (f, .indeterminate)) :
    visit.dials = [] ∧ ∀ e ∈ visit.client.sessions, Unverified e.2
  /-- A dial names the client. -/
  dialled {d : Dial} (hd : d ∈ visit.dials) : ∃ f v, visit.identity = some (f, v)
    ∧ d.headers.first? SessionInfo.idField = some ⟨SessionInfo.idField, Utf8.encode f⟩
  /-- A session that streams has made a dial. -/
  streamed : ∀ e ∈ visit.client.sessions, StreamsBy visit.dials e.2

variable {autoRegister : Bool} {visit : Visit}

theorem sound_empty (autoRegister : Bool) : Sound autoRegister {} where
  hearing := nofun
  heard := nofun
  settled := nofun
  named := nofun
  outside _ := ⟨rfl, rfl⟩
  unverified := nofun
  dialled := nofun
  streamed := nofun

theorem Sound.offer (h : visit.Sound autoRegister) (key : ClientKey) :
    (visit.offer key).Sound autoRegister := by
  rw [Visit.offer]
  split
  · rename_i free
    rw [Bool.and_eq_true, Option.isNone_iff_eq_none, Option.isNone_iff_eq_none] at free
    refine ⟨?_, h.heard, h.settled, h.named, h.outside, h.unverified, h.dialled, h.streamed⟩
    rintro hearing ⟨⟩
    exact ⟨⟨.begun, nofun⟩, free.2, nofun⟩
  · exact h

theorem identity_conclude (visit : Visit) (h : Hearing) (v : Verdict) :
    (visit.conclude h v).identity =
      if v.admits then some (h.key.fingerprint, v) else visit.identity := by
  simp only [identity, conclude, Connection.authenticate]
  split <;> rfl

theorem Sound.conclude (h : visit.Sound autoRegister) (hid : visit.identity = none)
    {hearing : Hearing} {v : Verdict} (hsound : hearing.Sound autoRegister)
    (hstage : hearing.stage = .decided v) : (visit.conclude hearing v).Sound autoRegister := by
  obtain ⟨hdials, hsessions⟩ := h.outside hid
  have heard {h' : Hearing} (hh : h' ∈ visit.heard ++ [hearing]) :
      h' ∈ visit.heard ∧ h'.stage = .decided .rejected ∨ h' = hearing := by
    rcases List.mem_append.mp hh with hh | hh
    · rcases h.settled hh with hrejected | ⟨v', -, hid'⟩
      · exact .inl ⟨hh, hrejected⟩
      · rw [hid] at hid'
        cases hid'
    · exact .inr (List.mem_singleton.mp hh)
  have identity := visit.identity_conclude hearing v
  rw [hid] at identity
  constructor
  case hearing => nofun
  case heard =>
    intro h' hh
    rcases heard hh with ⟨hh, -⟩ | rfl
    · exact h.heard hh
    · exact hsound
  case settled =>
    intro h' hh
    rcases heard hh with ⟨-, hrejected⟩ | rfl
    · exact .inl hrejected
    · cases v with
      | rejected => exact .inl hstage
      | accepted | registered | indeterminate => exact .inr ⟨_, hstage, identity⟩
  case named =>
    intro f v' hid'
    rw [identity] at hid'
    split at hid'
    · cases hid'
      exact ⟨hearing, List.mem_append_right _ (List.mem_singleton_self _), rfl, hstage, ‹_›⟩
    · cases hid'
  case outside => exact fun _ => ⟨hdials, hsessions⟩
  case unverified =>
    refine fun _ => ⟨hdials, fun e he => ?_⟩
    rw [Visit.conclude, hsessions] at he
    cases he
  case dialled =>
    intro d hd
    rw [Visit.conclude, hdials] at hd
    cases hd
  case streamed =>
    intro e he
    rw [Visit.conclude, hsessions] at he
    cases he

theorem Sound.consult (h : visit.Sound autoRegister) (now : Instant) (fails : Bool)
    (keys : Keyring) : (visit.consult autoRegister now fails keys).1.Sound autoRegister := by
  rw [Visit.consult]
  cases hh : visit.hearing with
  | none => exact h
  | some hearing =>
    obtain ⟨hsound, hid, -⟩ := h.hearing hh
    have later := hsound.consult now fails keys
    dsimp only
    split
    · exact h.conclude hid later ‹_›
    · rename_i undecided
      refine ⟨?_, h.heard, h.settled, h.named, h.outside, h.unverified, h.dialled, h.streamed⟩
      rintro _ ⟨⟩
      exact ⟨later, hid, undecided⟩

/-- A dial is made for a client whose key is accepted or registered, and names the key. -/
theorem dial?_eq_some {backend : Backend} {i : ChannelId} {call : Call} {d : Dial}
    (hd : visit.dial? backend i call = some d) :
    ∃ f v, visit.identity = some (f, v) ∧ (v = .accepted ∨ v = .registered)
      ∧ d.headers.first? SessionInfo.idField =
        some ⟨SessionInfo.idField, Utf8.encode f⟩ := by
  rw [dial?] at hd
  split at hd
  · rename_i r hr
    have hdial : r.dial backend = .ok d := by
      cases hdial : r.dial backend with
      | error cause => simp [hdial, Except.toOption] at hd
      | ok d' => simpa [hdial, Except.toOption] using hd
    obtain ⟨f, hf, hfirst⟩ := SessionRequest.identity_of_dial hdial
    obtain ⟨hfingerprint, hverdict⟩ := SessionRequest.identity_eq_ok_iff.mp hf
    obtain ⟨sameFingerprint, sameVerdict⟩ := visit.client.connection.request_of_step i call hr
    rw [sameFingerprint, Option.map_eq_some_iff] at hfingerprint
    obtain ⟨⟨_, v⟩, hid, rfl⟩ := hfingerprint
    rw [sameVerdict, hid] at hverdict
    exact ⟨_, v, hid, by simpa using hverdict, hfirst⟩
  · cases hd

/-- While a client's key could not be verified, every session that it asks for is refused. -/
theorem unverified_call {backend : Backend} {i : ChannelId} {call : Call} {outcome : Dial.Outcome}
    {f : String} (hid : visit.identity = some (f, .indeterminate))
    (h : ∀ e ∈ visit.client.sessions, Unverified e.2) :
    ∀ e ∈ (visit.client.call backend outcome i call).1.sessions, Unverified e.2 := by
  apply Client.sessions_call backend outcome call h fun s e hs => hs.step e
  intro r hr
  obtain ⟨hfingerprint, hverdict⟩ := visit.client.connection.request_of_step i call hr
  rw [← identity, hid] at hfingerprint hverdict
  have refused := SessionRequest.identity_of_indeterminate hfingerprint hverdict
  rw [Session.start_of_error (SessionRequest.dial_of_identity_error refused)]
  exact ⟨_, rfl⟩

theorem streamed_call {backend : Backend} {i : ChannelId} {call : Call} {outcome : Dial.Outcome}
    (h : ∀ e ∈ visit.client.sessions, StreamsBy visit.dials e.2) :
    ∀ e ∈ (visit.client.call backend outcome i call).1.sessions,
      StreamsBy (visit.dials ++ (visit.dial? backend i call).toList) e.2 := by
  have earlier : ∀ e ∈ visit.client.sessions,
      StreamsBy (visit.dials ++ (visit.dial? backend i call).toList) e.2 := by
    intro e he dial stream hstream
    exact List.mem_append_left _ (h e he dial stream hstream)
  apply Client.sessions_call backend outcome call earlier fun s e hs => hs.step e
  intro r hr dial stream hstream
  have made : visit.dial? backend i call = some dial := by
    rw [dial?, hr]
    simp only [Session.dial_of_start hstream, Except.toOption]
  exact List.mem_append_right _ (by simp [made])

/-- What a client does once it was admitted concerns only its sessions and dials. -/
theorem Sound.of_client (h : visit.Sound autoRegister) {client : Client} {dials : List Dial}
    (hid : client.connection.identity = visit.identity)
    (houtside : visit.identity = none → dials = [] ∧ client.sessions = [])
    (hunverified : ∀ f, visit.identity = some (f, .indeterminate) →
      dials = [] ∧ ∀ e ∈ client.sessions, Unverified e.2)
    (hdialled : ∀ d ∈ dials, ∃ f v, visit.identity = some (f, v)
      ∧ d.headers.first? SessionInfo.idField = some ⟨SessionInfo.idField, Utf8.encode f⟩)
    (hstreamed : ∀ e ∈ client.sessions, StreamsBy dials e.2) :
    Sound autoRegister { visit with client, dials } := by
  have same : ({ visit with client, dials } : Visit).identity = visit.identity := hid
  constructor
  case heard => exact h.heard
  case streamed => exact hstreamed
  all_goals rw [same]
  case hearing => exact h.hearing
  case settled => exact h.settled
  case named => exact h.named
  case outside => exact houtside
  case unverified => exact hunverified _
  case dialled => exact hdialled _

theorem Sound.call (h : visit.Sound autoRegister) (backend : Backend) (i : ChannelId)
    (call : Call) (outcome : Dial.Outcome) :
    (visit.call backend i call outcome).Sound autoRegister := by
  rw [Visit.call]
  split
  · exact h
  · rename_i hinside
    apply h.of_client
    · rw [Client.connection_call, Connection.identity_step, Visit.identity]
    · intro hid
      exact absurd (Option.isNone_iff_eq_none.mpr hid) hinside
    · intro f hid
      obtain ⟨hdials, hsessions⟩ := h.unverified hid
      refine ⟨?_, unverified_call hid hsessions⟩
      cases hd : visit.dial? backend i call with
      | none => exact List.append_eq_nil_iff.mpr ⟨hdials, rfl⟩
      | some d =>
        obtain ⟨_, _, hid', hv, -⟩ := dial?_eq_some hd
        rw [hid] at hid'
        cases hid'
        rcases hv with hv | hv <;> cases hv
    · intro d hd
      rcases List.mem_append.mp hd with hd | hd
      · exact h.dialled hd
      · obtain ⟨f, v, hid, -, hfirst⟩ := dial?_eq_some (Option.mem_toList.mp hd)
        exact ⟨f, v, hid, hfirst⟩
    · exact streamed_call h.streamed

theorem Sound.work (h : visit.Sound autoRegister) (i : ChannelId) (e : Streaming.Event) :
    (visit.work i e).Sound autoRegister := by
  apply h.of_client
  · rfl
  · intro hid
    obtain ⟨hdials, hsessions⟩ := h.outside hid
    exact ⟨hdials, by rw [Client.onSession, hsessions, List.map_nil]⟩
  · intro f hid
    obtain ⟨hdials, hsessions⟩ := h.unverified hid
    exact ⟨hdials, Client.sessions_onSession hsessions fun s hs => hs.step e⟩
  · exact fun d hd => h.dialled hd
  · exact Client.sessions_onSession h.streamed fun s hs => hs.step e

/-- What can happen to a client. -/
inductive Event where
  | offer (key : ClientKey)
  /-- The next call to the store about the client's key. -/
  | consult (now : Instant) (fails : Bool)
  | call (i : ChannelId) (call : Call) (outcome : Dial.Outcome)
  | work (i : ChannelId) (e : Streaming.Event)
  deriving DecidableEq, Repr

/-- The client and the keys after an event. -/
def step (autoRegister : Bool) (backend : Backend) (visit : Visit) (keys : Keyring) :
    Event → Visit × Keyring
  | .offer key => (visit.offer key, keys)
  | .consult now fails => visit.consult autoRegister now fails keys
  | .call i call outcome => (visit.call backend i call outcome, keys)
  | .work i e => (visit.work i e, keys)

theorem Sound.step (h : visit.Sound autoRegister) (backend : Backend) (keys : Keyring)
    (e : Event) : (visit.step autoRegister backend keys e).1.Sound autoRegister := by
  cases e with
  | offer key => exact h.offer key
  | consult now fails => exact h.consult now fails keys
  | call i call outcome => exact h.call backend i call outcome
  | work i e => exact h.work i e

/-- A dial names the key of a decision for which the store vouched. -/
theorem Sound.vouched (h : visit.Sound autoRegister) {d : Dial} (hd : d ∈ visit.dials) :
    ∃ hearing ∈ visit.heard, ∃ v, hearing.stage = .decided v
      ∧ visit.identity = some (hearing.key.fingerprint, v)
      ∧ d.headers.first? SessionInfo.idField =
        some ⟨SessionInfo.idField, Utf8.encode hearing.key.fingerprint⟩
      ∧ Admission.Vouched hearing.findings := by
  obtain ⟨f, v, hid, hfirst⟩ := h.dialled hd
  obtain ⟨hearing, hheard, rfl, hstage, hadmits⟩ := h.named hid
  refine ⟨hearing, hheard, v, hstage, hid, hfirst, ?_⟩
  have course := (h.heard hheard).course
  rw [hstage] at course
  rcases course.of_admits hadmits with rfl | vouched
  · rw [(h.unverified hid).1] at hd
    cases hd
  · exact vouched

/-- A decision that has come to its end was taken, and every other one is sound too. -/
theorem Sound.of_hearings (h : visit.Sound autoRegister) {hearing : Hearing}
    (hh : hearing ∈ visit.hearings) :
    hearing.Sound autoRegister ∧ ∀ v, hearing.stage = .decided v → hearing ∈ visit.heard := by
  rcases List.mem_append.mp hh with hh | hh
  · exact ⟨h.heard hh, fun _ _ => hh⟩
  · obtain ⟨hsound, -, undecided⟩ := h.hearing (Option.mem_toList.mp hh)
    exact ⟨hsound, fun v hv => absurd hv (undecided v)⟩

/-- After a failure of the store a client is admitted, and gets nothing but the word that its key
could not be verified. -/
theorem Sound.of_failed (h : visit.Sound autoRegister) {hearing : Hearing}
    (hh : hearing ∈ visit.hearings) (hf : .failed ∈ hearing.findings) :
    hearing.stage = .decided .indeterminate ∧ hearing.changed = false
      ∧ visit.identity = some (hearing.key.fingerprint, .indeterminate)
      ∧ visit.dials = [] ∧ ∀ e ∈ visit.client.sessions, e.2.status? = some 3 := by
  obtain ⟨sound, taken⟩ := h.of_hearings hh
  obtain ⟨hstage, unvouched⟩ := sound.course.of_failed hf
  have hid : visit.identity = some (hearing.key.fingerprint, .indeterminate) := by
    rcases h.settled (taken _ hstage) with hrejected | ⟨v, hv, hid⟩
    · rw [hstage] at hrejected
      cases hrejected
    · rw [hstage] at hv
      cases hv
      exact hid
  obtain ⟨hdials, hsessions⟩ := h.unverified hid
  refine ⟨hstage, Bool.eq_false_iff.mpr (unvouched ∘ sound.changed), hid, hdials, fun e he => ?_⟩
  obtain ⟨screen, hscreen⟩ := hsessions e he
  rw [hscreen]
  rfl

/-- Where no key is registered, an unknown one is rejected. -/
theorem Sound.of_unknown (h : visit.Sound false) {hearing : Hearing}
    (hh : hearing ∈ visit.hearings) (hf : .looked false ∈ hearing.findings) :
    hearing.stage = .decided .rejected ∧ hearing.changed = false := by
  obtain ⟨sound, -⟩ := h.of_hearings hh
  obtain ⟨hstage, unvouched⟩ := sound.course.of_unknown hf
  exact ⟨hstage, Bool.eq_false_iff.mpr (unvouched ∘ sound.changed)⟩

/-- With nothing in between, the calls about a key that a new client shows are those that `decide`
makes, and the client stands as it was decided. -/
theorem consult_alone (autoRegister : Bool) (key : ClientKey) (now : Instant)
    (store : Keyring.Store) :
    let consult (s : Visit × Keyring) := s.1.consult autoRegister now (!store.isOpen) s.2
    let last := consult (consult (consult (offer {} key, store.keys)))
    let (verdict, store') := Admission.decide autoRegister key now store
    last.1.client.connection = ({} : Connection).authenticate key.fingerprint verdict
      ∧ last.2 = store'.keys := by
  obtain ⟨durable, keys, isOpen⟩ := store
  cases isOpen with
  | false => exact ⟨rfl, rfl⟩
  | true =>
    rw [Admission.decide_of_open rfl, Admission.authorize_healthy]
    cases hc : keys.contains key.fingerprint with
    | true => simp [consult, offer, identity, Hearing.consult, Admission.Stage.step, hc, conclude]
    | false =>
      cases autoRegister <;>
        simp [consult, offer, identity, Hearing.consult, Admission.Stage.step, hc, conclude,
          Keyring.register_of_not_contains]

/-- Whether the record of the use fails does not matter to the client. -/
theorem consult_of_use {hearing : Hearing} {v : Verdict} (hh : visit.hearing = some hearing)
    (hstage : hearing.stage = .use v) (autoRegister : Bool) (now : Instant) (fails : Bool)
    (keys : Keyring) :
    ∃ last, visit.consult autoRegister now fails keys =
        (visit.conclude last v, if fails then keys else keys.touch hearing.key.fingerprint now)
      ∧ last.key = hearing.key := by
  obtain ⟨key, stage, findings, changed⟩ := hearing
  subst hstage
  rw [Visit.consult, hh]
  exact ⟨_, rfl, rfl⟩

theorem Sound.of_use (h : visit.Sound autoRegister) {hearing : Hearing} {v : Verdict}
    (hh : visit.hearing = some hearing) (hstage : hearing.stage = .use v) (now now' : Instant)
    (keys : Keyring) :
    let failed := visit.consult autoRegister now true keys
    failed.2 = keys ∧ failed.1.identity = some (hearing.key.fingerprint, v)
      ∧ failed.1.client = (visit.consult autoRegister now' false keys).1.client := by
  obtain ⟨last, failed, hlast⟩ := consult_of_use hh hstage autoRegister now true keys
  obtain ⟨last', made, hlast'⟩ := consult_of_use hh hstage autoRegister now' false keys
  have course := (h.hearing hh).1.course
  rw [hstage] at course
  have admits : v.admits = true := by
    rcases course.vouched.2 with rfl | rfl <;> rfl
  simp only [failed, made]
  refine ⟨rfl, ?_, ?_⟩
  · rw [identity_conclude, if_pos admits, hlast]
  · simp only [Visit.conclude, hlast, hlast']

end Visit

end TermLink.Gate
