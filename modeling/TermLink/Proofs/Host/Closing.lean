import TermLink.Proofs.Host.Membership
import Mathlib.Data.List.Perm.Basic

/-!
# How memberships end

Whatever happens at a station, the members of the audience are the streams that have subscribed and
have neither ended nor been evicted. A stream ends when its peer leaves or says `exit`, when it has
sent an `exit` itself, when its connection is lost or when it was evicted, and then it gives up its
own membership and no other.
-/

namespace TermLink.Host

namespace Stream

/-- A stream goes on: it keeps its mailbox and its place. -/
structure Continues (s next : Stream) : Prop where
  mailbox : next.mailbox = s.mailbox
  reading : next.reading = s.reading
  attachment (i : SubscriberId) : s.attachment = some i → next.attachment = some i

variable (s : Stream) (h : Host)

theorem continues_refl : s.Continues s := ⟨rfl, rfl, fun _ => id⟩

theorem Kept.continues {next : Stream} {last : Host} (k : s.Kept h next last) :
    s.Continues next :=
  ⟨k.mailbox, k.reading, fun _ hi => k.attachment.trans hi⟩

theorem continues_attach : s.Continues (s.attach h).2 := by
  rw [attach]
  cases hs : s.attachment with
  | some i => exact s.continues_refl
  | none =>
    cases h.attach? s.mailbox with
    | none => exact s.continues_refl
    | some e => exact ⟨rfl, rfl, fun i hi => absurd (hs.symm.trans hi) (by simp)⟩

theorem continues_establish (env : Environment) (g : Geometry) (repo : Option String) :
    s.Continues (s.establish h env g repo).2 := by
  rw [establish]
  split
  · exact s.continues_attach _
  · exact s.continues_refl

theorem continues_input (m : Message) : s.Continues (s.input h m).2 := by
  rw [input]
  dsimp only
  split <;> exact s.continues_attach h

/-- A stream that reads goes on after a frame, unless the frame is an `exit`. -/
theorem continues_act (env : Environment) {m : Message} (hm : ∀ code, m ≠ .exit code) :
    s.Continues (s.act h env m).2 := by
  cases m with
  | init g repo => exact s.continues_establish h env g repo
  | data payload => exact s.continues_input h _
  | resize g => exact s.continues_input h _
  | exit code => exact absurd rfl (hm code)
  | ping | pong | error | status => exact s.continues_refl

end Stream

namespace Attended

variable {h : Host} {s : Stream} {rest : List Stream}

theorem reply (H : h.Attended rest) (s : Stream) (m : Message) : (s.reply h m).Attended rest :=
  H.sheds (.of_audience H.sound rfl (Mailroom.length_offer _ _ _))

theorem establish (H : h.Attended (s :: rest)) (hr : s.reading) (env : Environment) (g : Geometry)
    (repo : Option String) :
    (s.establish h env g repo).1.Attended ((s.establish h env g repo).2 :: rest) := by
  have established := H.sheds (sheds_perform H.sound env (.terminal g repo))
  rw [perform] at established
  rw [Stream.establish]
  split
  · next host started heq =>
    rw [heq] at established
    apply attach _ hr
    split
    · exact established.reply s _
    · exact established
  · next host e heq =>
    rw [heq] at established
    exact established.reply s _

theorem input (H : h.Attended (s :: rest)) (hr : s.reading) (env : Environment) (m : Message) :
    (s.input h m).1.Attended ((s.input h m).2 :: rest) := by
  have attached := H.attach hr
  have written := attached.sheds (sheds_perform attached.sound env (.input m))
  rw [perform] at written
  rw [Stream.input]
  dsimp only
  split
  · next host heq =>
    rw [heq] at written
    exact written
  · next host e heq =>
    rw [heq] at written
    exact written.reply _ _

theorem act (H : h.Attended (s :: rest)) (hr : s.reading) (env : Environment) (m : Message) :
    (s.act h env m).1.Attended ((s.act h env m).2 :: rest) := by
  cases m with
  | init g repo => exact H.establish hr env g repo
  | data payload => exact H.input hr env _
  | resize g => exact H.input hr env _
  | ping timestamp => exact H.reply s _
  | exit code => exact H.endReading
  | pong | error | status => exact H

theorem receive (H : h.Attended (s :: rest)) (env : Environment) (frame : Bytes) :
    (s.receive h env frame).1.Attended ((s.receive h env frame).2 :: rest) := by
  rw [Stream.receive]
  split
  · next hr =>
    split
    · exact H.act hr env _
    · exact H.sheds (.of_audience H.sound rfl rfl)
  · exact H

theorem hangUp (H : h.Attended (s :: rest)) :
    (s.hangUp h).1.Attended ((s.hangUp h).2 :: rest) := by
  rw [Stream.hangUp]
  split
  · exact H.endReading
  · exact H

theorem notice (H : h.Attended (s :: rest)) :
    (s.notice h).1.Attended ((s.notice h).2 :: rest) := by
  rw [Stream.notice]
  split
  · exact H.endReading
  · exact H

theorem endWriting (H : h.Attended (s :: rest)) :
    (s.endWriting h).1.Attended ((s.endWriting h).2 :: rest) := by
  have closed : Attended { h with room := h.room.close s.mailbox } (s :: rest) :=
    H.sheds (.of_audience H.sound rfl (Mailroom.length_update _ _ _))
  exact closed.congr rfl rfl rfl fun _ _ => rfl

theorem stopWriting (H : h.Attended (s :: rest)) :
    (s.stopWriting h).1.Attended ((s.stopWriting h).2 :: rest) := by
  rw [Stream.stopWriting]
  split
  · exact H.endWriting
  · exact H

/-- A stream that sends an `exit` is about to end. -/
theorem sendNext (H : h.Attended (s :: rest)) :
    (s.sendNext h).1.Attended ((s.sendNext h).2 :: rest) := by
  rw [Stream.sendNext]
  split
  · cases htake : h.room.take? s.mailbox with
    | none => exact H
    | some e =>
      obtain ⟨m, room⟩ := e
      have taken : Attended { h with room } (s :: rest) :=
        H.sheds (.of_audience H.sound rfl (Mailroom.length_take? _ _ _ htake))
      have closed : Attended { h with room := room.close s.mailbox } (s :: rest) :=
        taken.sheds (.of_audience taken.sound rfl (room.length_update s.mailbox Mailbox.close))
      have told := (H.fit s List.mem_cons_self).told
      cases m with
      | exit code => exact closed.congr rfl rfl rfl fun _ _ => rfl
      | init | data | resize | ping | pong | error | status =>
        exact taken.congr rfl rfl rfl fun code hin => told code (by simpa using hin)
  · exact H

theorem opened {streams : List Stream} (H : h.Attended streams) :
    (Stream.opened h).1.Attended ((Stream.opened h).2 :: streams) :=
  H.opening.attach rfl

end Attended

namespace Station

variable {st : Station}

/-- What one stream does is nothing to the others. -/
theorem attended_onStream (H : st.host.Attended st.streams) (k : Nat)
    {f : Stream → Host → Host × Stream}
    (hf : ∀ s h rest, Attended h (s :: rest) → (f s h).1.Attended ((f s h).2 :: rest)) :
    (st.onStream k f).host.Attended (st.onStream k f).streams := by
  rw [onStream]
  cases hs : st.streams[k]? with
  | none => exact H
  | some s =>
    obtain ⟨hk, hget⟩ := List.getElem?_eq_some_iff.mp hs
    have first := H.perm (List.getElem_cons_eraseIdx_perm hk).symm
    rw [hget] at first
    exact (hf s st.host _ first).perm (List.set_perm_cons_eraseIdx hk _).symm

/-- What can happen at a station, also that the connection of a stream is lost to its writer. -/
inductive Happening where
  | event (env : Environment) (e : Event)
  | lost (stream : Nat)

/-- The station after a happening. -/
def after (st : Station) : Happening → Station
  | .event env e => st.step env e
  | .lost k => st.onStream k fun s h => if s.writing then s.endWriting h else (h, s)

/-- The station after happenings in order. -/
def undergo (st : Station) (happenings : List Happening) : Station := happenings.foldl after st

theorem attended_after (H : st.host.Attended st.streams) (x : Happening) :
    (st.after x).host.Attended (st.after x).streams := by
  cases x with
  | event env e =>
    cases e with
    | request r =>
      have handled := sheds_perform H.sound env (errandOf r)
      rw [← st.host.handle_fst env true r] at handled
      exact H.sheds handled
    | openStream => exact H.opened.perm (List.perm_append_singleton _ _).symm
    | frame k bytes => exact attended_onStream H k fun s h rest hs => hs.receive env bytes
    | hangUp k => exact attended_onStream H k fun s h rest hs => hs.hangUp
    | send k => exact attended_onStream H k fun s h rest hs => hs.sendNext
    | notice k => exact attended_onStream H k fun s h rest hs => hs.notice
    | stop k => exact attended_onStream H k fun s h rest hs => hs.stopWriting
    | print chunk => exact H.sheds (sheds_perform H.sound env (.print chunk))
    | exit code => exact H.sheds (sheds_perform H.sound env (.exit code))
    | fault f => exact H.sheds (sheds_perform H.sound env (.fault f))
  | lost k =>
    apply attended_onStream H k
    intro s h rest hs
    split
    · exact hs.endWriting
    · exact hs

theorem attended_undergo (H : st.host.Attended st.streams) (happenings : List Happening) :
    (st.undergo happenings).host.Attended (st.undergo happenings).streams := by
  induction happenings generalizing st with
  | nil => exact H
  | cons x rest ih => exact ih (attended_after H x)

/-- Why a stream that reads ends: its peer has left or said `exit`, or it has a reason of its
own. -/
inductive Closes (h : Host) (k : Nat) (s : Stream) : Happening → Prop
  | left (env : Environment) : Closes h k s (.event env (.hangUp k))
  | said (env : Environment) {bytes : Bytes} {code : Int32}
      (hm : Message.decode bytes = .ok (.exit code)) : Closes h k s (.event env (.frame k bytes))
  | noticed (env : Environment) (hs : s.ending ∨ s.isEvicted h) :
      Closes h k s (.event env (.notice k))

variable {k : Nat} {s : Stream}

theorem onStream_eq (hs : st.streams[k]? = some s) (f : Stream → Host → Host × Stream) :
    st.onStream k f = ⟨(f s st.host).1, st.streams.set k (f s st.host).2⟩ := by
  rw [onStream, hs]

theorem getElem?_onStream_of_ne {j : Nat} (hj : j ≠ k) (f : Stream → Host → Host × Stream) :
    (st.onStream j f).streams[k]? = st.streams[k]? := by
  rw [onStream]
  split
  · exact List.getElem?_set_ne hj
  · rfl

/-- What is done by a stream that goes on, to whichever stream it is done. -/
theorem continues_onStream (hs : st.streams[k]? = some s) {j : Nat}
    {f : Stream → Host → Host × Stream} (hf : j = k → s.Continues (f s st.host).2) :
    ∃ next, (st.onStream j f).streams[k]? = some next ∧ s.Continues next := by
  by_cases hj : j = k
  · subst hj
    refine ⟨_, ?_, hf rfl⟩
    rw [onStream_eq hs]
    exact List.getElem?_set_self (List.getElem?_eq_some_iff.mp hs).1
  · exact ⟨s, (getElem?_onStream_of_ne hj f).trans hs, s.continues_refl⟩

/-- A stream that has a reason to end ends. -/
theorem after_of_closes (hs : st.streams[k]? = some s) (hr : s.reading) {x : Happening}
    (hx : Closes st.host k s x) : st.after x = st.onStream k Stream.endReading := by
  rw [onStream_eq hs]
  cases hx with
  | left env =>
    rw [after, step, onStream_eq hs, Stream.hangUp, if_pos hr]
  | said env hm =>
    rw [after, step, onStream_eq hs, Stream.receive, if_pos hr, hm]
    rfl
  | noticed env hwhy =>
    have reason : (s.reading && (s.ending || s.isEvicted st.host)) = true := by
      rw [hr, Bool.true_and, Bool.or_eq_true]
      exact hwhy
    rw [after, step, onStream_eq hs, Stream.notice, if_pos reason]

/-- A stream without a reason to end goes on. -/
theorem continues_of_not_closes (hs : st.streams[k]? = some s) (hr : s.reading) {x : Happening}
    (hx : ¬ Closes st.host k s x) :
    ∃ next, (st.after x).streams[k]? = some next ∧ s.Continues next := by
  cases x with
  | event env e =>
    cases e with
    | request | print | exit | fault => exact ⟨s, hs, s.continues_refl⟩
    | openStream =>
      have earlier := (List.getElem?_eq_some_iff.mp hs).1
      exact ⟨s, (List.getElem?_append_left earlier).trans hs, s.continues_refl⟩
    | frame j bytes =>
      apply continues_onStream hs
      rintro rfl
      rw [Stream.receive, if_pos hr]
      split
      · next m hm =>
        apply s.continues_act st.host env
        rintro code rfl
        exact hx (.said env hm)
      · exact s.continues_refl
    | hangUp j =>
      apply continues_onStream hs
      rintro rfl
      exact absurd (.left env) hx
    | send j => exact continues_onStream hs fun _ => (s.kept_sendNext st.host).continues
    | stop j => exact continues_onStream hs fun _ => (s.kept_stopWriting st.host).continues
    | notice j =>
      apply continues_onStream hs
      rintro rfl
      have none : ¬ (s.reading && (s.ending || s.isEvicted st.host)) = true := by
        intro reason
        rw [hr, Bool.true_and, Bool.or_eq_true] at reason
        exact hx (.noticed env reason)
      rw [Stream.notice, if_neg none]
      exact s.continues_refl
  | lost j =>
    apply continues_onStream hs
    intro _
    split
    · exact (s.kept_endWriting st.host).continues
    · exact s.continues_refl

/-- A stream that ends gives up its own membership and no other. -/
theorem membership_after_closes (H : st.host.Attended st.streams) (hs : st.streams[k]? = some s)
    (hr : s.reading) {x : Happening} (hx : Closes st.host k s x) :
    (∃ ended, (st.after x).streams[k]? = some ended ∧ ended.reading = false)
      ∧ ∀ y, y ∈ (st.after x).host.members ↔ y ∈ st.host.members ∧ y.address ≠ s.mailbox := by
  have ended := (after_of_closes hs hr hx).trans (onStream_eq hs _)
  rw [ended]
  constructor
  · exact ⟨_, List.getElem?_set_self (List.getElem?_eq_some_iff.mp hs).1, rfl⟩
  · exact H.mem_members_endReading (List.mem_of_getElem? hs)

/-- A stream that goes on keeps its membership until it is evicted. -/
theorem membership_after_not_closes (H : st.host.Attended st.streams)
    (hs : st.streams[k]? = some s) (hr : s.reading) {x : Happening}
    (hx : ¬ Closes st.host k s x) :
    ∃ kept, (st.after x).streams[k]? = some kept ∧ kept.reading
      ∧ ∀ y ∈ st.host.members, y.address = s.mailbox →
        y ∈ (st.after x).host.members ∨ kept.isEvicted (st.after x).host := by
  obtain ⟨kept, hkept, goes⟩ := continues_of_not_closes hs hr hx
  refine ⟨kept, hkept, goes.reading.trans hr, ?_⟩
  intro y hy hmailbox
  have place := H.attachment_of_mem (List.mem_of_getElem? hs) hy hmailbox
  exact (attended_after H x).mem_members_or_evicted (List.mem_of_getElem? hkept)
    (goes.attachment _ place) (goes.mailbox.trans hmailbox.symm)

/-- In whatever way streams come and go: each holds one membership at most, and every membership is
that of a stream that goes on. The status reports as many clients as there are such streams that
have subscribed and were not evicted, and none once all have ended. A stream that has a reason to
end, as it has after an `exit` in either direction, gives up its own membership and no other; one
that has none keeps its membership until it is evicted. -/
theorem memberships_never_leak (hn : st.host.terminal = none) (hempty : st.streams = [])
    (past : List Happening) :
    let now := st.undergo past
    (∀ s ∈ now.streams, (now.host.members.map Subscriber.address).count s.mailbox ≤ 1)
      ∧ (∀ x ∈ now.host.members, ∃ s ∈ now.streams,
        s.reading ∧ s.attachment = some x.id ∧ s.mailbox = x.address)
      ∧ now.host.clients = now.streams.countP
        (fun s => s.reading && s.attachment.isSome && !s.isEvicted now.host)
      ∧ (∃ front back, statusJson now.host.status =
        .object (front ++ ("clients", .ofNat now.host.clients) :: back))
      ∧ ((∀ s ∈ now.streams, s.reading = false) → now.host.clients = 0)
      ∧ (∀ s ∈ now.streams, ∀ code, .exit code ∈ s.sent → s.ending)
      ∧ ∀ k s x, now.streams[k]? = some s → s.reading →
        let next := now.after x
        (Closes now.host k s x →
          (∃ ended, next.streams[k]? = some ended ∧ ended.reading = false)
            ∧ ∀ y, y ∈ next.host.members ↔ y ∈ now.host.members ∧ y.address ≠ s.mailbox)
          ∧ (¬ Closes now.host k s x →
            ∃ kept, next.streams[k]? = some kept ∧ kept.reading
              ∧ ∀ y ∈ now.host.members, y.address = s.mailbox →
                y ∈ next.host.members ∨ kept.isEvicted next.host) := by
  intro now
  have H : now.host.Attended now.streams := by
    apply attended_undergo
    rw [hempty]
    exact .of_empty hn
  have count := clients_eq.trans H.length_members
  refine ⟨?_, ?_, count, statusJson_clients _, ?_, ?_, ?_⟩
  · intro s _
    exact List.nodup_iff_count_le_one.mp H.nodup_address s.mailbox
  · exact fun _ hx => H.exists_of_mem_members hx
  · intro hall
    rw [count, List.countP_eq_zero]
    intro s hs
    simp [hall s hs]
  · intro s hs code
    exact (H.fit s hs).told code
  · intro k s x hs hr next
    exact ⟨membership_after_closes H hs hr, membership_after_not_closes H hs hr⟩

/-- Two streams subscribe, and the first one does not send what it gets. It is evicted, and then the
peer of the other one leaves. -/
theorem memberships_never_leak_of_two :
    let env : Environment := { git := fun _ _ => .failed "", spawn := fun _ => .ok 7 }
    let st : Station :=
      { host := { backlogCeiling := 16, queueDepth := 1, workspace := ⟨⟨[47], ""⟩, [], []⟩ } }
    let past : List Happening :=
      [.event env (.request { method := "POST", path := "/init" }), .event env .openStream,
        .event env .openStream, .event env (.print [104]), .event env (.send 1),
        .event env (.print [105])]
    let now := st.undergo past
    st.host.terminal = none ∧ now.streams.map (fun s => s.isEvicted now.host) = [true, false]
      ∧ now.host.clients = 1
      ∧ ∃ s, now.streams[1]? = some s ∧ s.reading
        ∧ ∀ y, y ∈ (now.after (.event env (.hangUp 1))).host.members ↔
          y ∈ now.host.members ∧ y.address ≠ s.mailbox := by
  intro env st past now
  have fresh : st.streams = [] := rfl
  obtain ⟨-, -, -, -, -, -, ends⟩ := memberships_never_leak rfl fresh past
  have evicted : now.streams.map (fun s => s.isEvicted now.host) = [true, false] := by
    decide +kernel
  have count : now.host.clients = 1 := by decide +kernel
  obtain ⟨s, hs, hr⟩ : ∃ s, now.streams[1]? = some s ∧ s.reading := ⟨_, rfl, rfl⟩
  obtain ⟨closing, -⟩ := ends 1 s (.event env (.hangUp 1)) hs hr
  obtain ⟨-, left⟩ := closing (.left env)
  exact ⟨rfl, evicted, count, s, hs, hr, left⟩

end Station

end TermLink.Host
