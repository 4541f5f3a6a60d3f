import TermLink.Proofs.Host.Audience

/-!
# Memberships

A stream is a member of its host's audience from the moment when it subscribes until it ends or is
evicted, and nobody else is. What streams do with each other's host keeps it that way.

## Implementation notes

Where there is no terminal the audience counts as empty, so that the start of a process changes no
membership. A stream is looked at as the first of all, which it may be as their order does not
matter.
-/

namespace TermLink.Host

/-- The number of clients that a report of the host's status names. -/
def clients (h : Host) : Nat := (h.status.map Status.clients).getD 0

variable {h : Host}

theorem statusJson_clients (h : Host) : ∃ front back,
    statusJson h.status = .object (front ++ ("clients", .ofNat h.clients) :: back) := by
  rw [clients]
  cases h.status with
  | none => exact ⟨[("exists", .boolean false), ("running", .boolean false)], [], rfl⟩
  | some s =>
    refine ⟨[("exists", .boolean true), ("running", .boolean s.running)]
      ++ (s.exitCode.map fun c => ("exit_code", Json.ofInt c.toInt)).toList
      ++ [("workdir", .text s.workdir)], [("pid", .ofNat s.pid)], ?_⟩
    simp [statusJson]

theorem clients_eq : h.clients = h.members.length := by
  rw [clients, status, members, audience]
  cases h.terminal <;> rfl

theorem audience_attach? {a : Address} {next : Host} {i : SubscriberId}
    (hnext : h.attach? a = some (next, i)) :
    next.audience = (h.audience.attach a).1 ∧ i = h.audience.lastId + 1
      ∧ next.room.boxes.length = h.room.boxes.length := by
  cases ht : h.terminal with
  | none => simp [attach?, ht] at hnext
  | some t =>
    simp only [attach?, ht, Option.bind_eq_bind, Option.bind_some, Option.some.injEq,
      Prod.mk.injEq] at hnext
    obtain ⟨rfl, rfl⟩ := hnext
    rw [audience_of_some ht]
    refine ⟨rfl, Subscribers.attach_id _ a, ?_⟩
    cases hc : t.exitCode <;> simp [Terminal.attach, hc, Mailroom.length_offer]

theorem audience_detach (i : SubscriberId) : (h.detach i).audience = (h.audience.detach i).1 := by
  cases ht : h.terminal <;> simp [detach, audience, ht, Terminal.detach, Subscribers.detach]

/-- The place that a stream has in the audience, unless it was evicted. -/
def Stream.membership? (s : Stream) (audience : Subscribers) : Option Subscriber :=
  s.attachment.bind fun i => if i ∈ audience.evicted then none else some ⟨i, s.mailbox⟩

theorem Stream.membership?_eq_some {s : Stream} {audience : Subscribers} {x : Subscriber} :
    s.membership? audience = some x ↔
      s.attachment = some x.id ∧ s.mailbox = x.address ∧ x.id ∉ audience.evicted := by
  obtain ⟨i, a⟩ := x
  rw [membership?, Option.bind_eq_some_iff]
  constructor
  · rintro ⟨j, hj, hin⟩
    split at hin
    · cases hin
    · cases hin
      exact ⟨hj, rfl, ‹_›⟩
  · rintro ⟨hi, rfl, hnot⟩
    exact ⟨i, hi, if_neg hnot⟩

theorem Stream.evicted_endReading (s : Stream) (h : Host) :
    (s.endReading h).1.audience.evicted = h.audience.evicted := by
  rw [endReading]
  cases s.attachment with
  | none => rfl
  | some i =>
    have gone := congrArg Subscribers.evicted (audience_detach (h := h) i)
    exact gone.trans (Subscribers.evicted_detach _ i)

theorem Stream.membership?_of_none {s : Stream} (hs : s.attachment = none)
    (audience : Subscribers) : s.membership? audience = none := by
  rw [membership?, hs, Option.bind_none]

theorem Stream.membership?_congr {audience other : Subscribers}
    (h : other.evicted = audience.evicted) (s : Stream) :
    s.membership? other = s.membership? audience := by
  rw [membership?, membership?, h]

/-- A stream has a mailbox, holds no place once it has ended, and is about to end if it has sent an
exit. -/
structure Stream.Fit (s : Stream) (h : Host) : Prop where
  placed : s.mailbox < h.room.boxes.length
  reading : s.attachment.isSome → s.reading
  told (code : Int32) : .exit code ∈ s.sent → s.ending

theorem Stream.Fit.of_length {s : Stream} (hs : s.Fit h) {last : Host}
    (hlength : last.room.boxes.length = h.room.boxes.length) : s.Fit last :=
  ⟨hlength ▸ hs.placed, hs.reading, hs.told⟩

/-- The members of the audience are the streams that have subscribed and were not evicted, and no
two of them share a mailbox. -/
structure Attended (h : Host) (streams : List Stream) : Prop where
  sound : h.audience.Sound
  apart : (streams.map Stream.mailbox).Nodup
  fit : ∀ s ∈ streams, s.Fit h
  mem_members (x : Subscriber) :
    x ∈ h.members ↔ ∃ s ∈ streams, s.membership? h.audience = some x

namespace Attended

variable {streams rest : List Stream} {s next : Stream} {last : Host}

theorem of_empty (hn : h.terminal = none) : h.Attended [] := by
  have silent : h.audience = {} := by
    rw [audience, hn]
    rfl
  constructor <;> simp [members, silent, Subscribers.sound_empty, Subscribers.members]

theorem perm (H : h.Attended streams) {others : List Stream} (hp : streams.Perm others) :
    h.Attended others where
  sound := H.sound
  apart := ((hp.map _).nodup_iff).mp H.apart
  fit s hs := H.fit s (hp.mem_iff.mpr hs)
  mem_members x := by simp only [H.mem_members, hp.mem_iff]

/-- Who is evicted is no member any more; all else stays as it is. -/
theorem sheds (H : h.Attended streams) (hs : h.Sheds last) : last.Attended streams := by
  obtain ⟨⟨sound, ids, hmembers, hevicted⟩, hlength⟩ := hs
  refine ⟨sound, H.apart, fun s hs => (H.fit s hs).of_length hlength, ?_⟩
  intro x
  rw [members, hmembers, ← members, H.mem_members]
  simp only [Stream.membership?_eq_some, hevicted, not_or]
  constructor
  · rintro ⟨⟨s, hs, hi, ha, hnot⟩, hx⟩
    exact ⟨s, hs, hi, ha, hx, hnot⟩
  · rintro ⟨s, hs, hi, ha, hx, hnot⟩
    exact ⟨⟨s, hs, hi, ha, hnot⟩, hx⟩

/-- What happens to one stream is nothing to the others, as long as they keep their places. -/
theorem replace (H : h.Attended (s :: rest)) (hsound : last.audience.Sound)
    (hlength : last.room.boxes.length = h.room.boxes.length) (hmailbox : next.mailbox = s.mailbox)
    (hfit : next.Fit last)
    (hmembers : ∀ x, x ∈ last.members ↔ next.membership? last.audience = some x
      ∨ ∃ other ∈ rest, other.membership? last.audience = some x) :
    last.Attended (next :: rest) := by
  refine ⟨hsound, ?_, ?_, ?_⟩
  · rw [List.map_cons, hmailbox]
    exact H.apart
  · rw [List.forall_mem_cons]
    exact ⟨hfit, fun other hother =>
      (H.fit other (List.mem_cons_of_mem _ hother)).of_length hlength⟩
  · intro x
    rw [hmembers, List.exists_mem_cons_iff]

/-- What a stream sends, and whether it is about to end, is nothing to the audience. -/
theorem congr (H : h.Attended (s :: rest)) (hmailbox : next.mailbox = s.mailbox)
    (hattachment : next.attachment = s.attachment) (hreading : next.reading = s.reading)
    (htold : ∀ code, .exit code ∈ next.sent → next.ending) : h.Attended (next :: rest) := by
  have fit := H.fit s List.mem_cons_self
  have place : next.membership? h.audience = s.membership? h.audience := by
    rw [Stream.membership?, hattachment, hmailbox, Stream.membership?]
  apply H.replace H.sound rfl hmailbox
  · exact ⟨hmailbox ▸ fit.placed, by rw [hattachment, hreading]; exact fit.reading, htold⟩
  · intro x
    rw [place, H.mem_members, List.exists_mem_cons_iff]

/-- A stream without a mailbox of another is no member before it subscribes. -/
theorem opening (H : h.Attended streams) :
    Attended { h with room := (h.room.create h.queueDepth).1 }
      ({ mailbox := (h.room.create h.queueDepth).2 } :: streams) := by
  have more : (h.room.create h.queueDepth).1.boxes.length = h.room.boxes.length + 1 := by
    simp [Mailroom.create]
  constructor
  case sound => exact H.sound
  case apart =>
    rw [List.map_cons, List.nodup_cons]
    refine ⟨?_, H.apart⟩
    intro hmem
    obtain ⟨s, hs, hmailbox⟩ := List.mem_map.mp hmem
    exact absurd (H.fit s hs).placed (Nat.not_lt.mpr (Nat.le_of_eq hmailbox.symm))
  case fit =>
    rw [List.forall_mem_cons]
    constructor
    · exact ⟨more ▸ Nat.lt_succ_self _, by simp, by simp⟩
    · intro s hs
      have fit := H.fit s hs
      exact ⟨more ▸ Nat.lt_succ_of_lt fit.placed, fit.reading, fit.told⟩
  case mem_members =>
    intro x
    rw [List.exists_mem_cons_iff, Stream.membership?_of_none rfl, or_iff_right (by simp)]
    exact H.mem_members x

theorem attach (H : h.Attended (s :: rest)) (hr : s.reading) :
    (s.attach h).1.Attended ((s.attach h).2 :: rest) := by
  rw [Stream.attach]
  cases hs : s.attachment with
  | some i => exact H
  | none =>
    cases hnext : h.attach? s.mailbox with
    | none => exact H
    | some e =>
      obtain ⟨last, i⟩ := e
      obtain ⟨haudience, rfl, hlength⟩ := audience_attach? hnext
      have fit := H.fit s List.mem_cons_self
      have evicted : last.audience.evicted = h.audience.evicted := by
        rw [haudience, Subscribers.evicted_attach]
      have unknown : h.audience.lastId + 1 ∉ h.audience.evicted := by
        intro hin
        exact absurd (H.sound.evicted_le _ hin) (Nat.not_succ_le_self _)
      have place : { s with attachment := some (h.audience.lastId + 1) }.membership? h.audience =
          some ⟨h.audience.lastId + 1, s.mailbox⟩ :=
        if_neg unknown
      have subscribed :
          last.Attended ({ s with attachment := some (h.audience.lastId + 1) } :: rest) := by
        apply H.replace (haudience ▸ H.sound.attach _) hlength
        case hmailbox => rfl
        case hfit => exact ⟨hlength ▸ fit.placed, fun _ => hr, fit.told⟩
        case hmembers =>
          intro x
          have others := H.mem_members x
          rw [List.exists_mem_cons_iff, Stream.membership?_of_none hs] at others
          simp only [Stream.membership?_congr evicted, place]
          rw [members, haudience, H.sound.mem_members_attach, ← members, others]
          simp [eq_comm]
      exact subscribed

/-- Every membership is that of a stream that goes on. -/
theorem exists_of_mem_members (H : h.Attended streams) {x : Subscriber} (hx : x ∈ h.members) :
    ∃ s ∈ streams, s.reading ∧ s.attachment = some x.id ∧ s.mailbox = x.address := by
  obtain ⟨s, hs, hplace⟩ := (H.mem_members x).mp hx
  obtain ⟨hid, haddress, -⟩ := Stream.membership?_eq_some.mp hplace
  have reading := (H.fit s hs).reading (by rw [hid]; rfl)
  exact ⟨s, hs, reading, hid, haddress⟩

/-- Who shares a mailbox with a member is that member. -/
theorem attachment_of_mem (H : h.Attended streams) (hs : s ∈ streams) {x : Subscriber}
    (hx : x ∈ h.members) (hmailbox : x.address = s.mailbox) : s.attachment = some x.id := by
  obtain ⟨other, hother, -, hid, haddress⟩ := H.exists_of_mem_members hx
  obtain rfl : other = s :=
    List.inj_on_of_nodup_map H.apart hother hs (haddress.trans hmailbox)
  exact hid

/-- Who holds the place of a member is that member. -/
theorem address_of_mem (H : h.Attended streams) (hs : s ∈ streams) {x : Subscriber}
    (hx : x ∈ h.members) (hid : s.attachment = some x.id) : x.address = s.mailbox := by
  have place : s.membership? h.audience = some ⟨x.id, s.mailbox⟩ :=
    Stream.membership?_eq_some.mpr ⟨hid, rfl, H.sound.evicted_gone x hx⟩
  have held := (H.mem_members _).mpr ⟨s, hs, place⟩
  rw [H.sound.eq_of_id_eq hx held rfl]

/-- No two members share a mailbox. -/
theorem nodup_address (H : h.Attended streams) : (h.members.map Subscriber.address).Nodup := by
  apply H.sound.members_nodup.map_on
  intro x hx y hy hxy
  obtain ⟨s, hs, -, hid, haddress⟩ := H.exists_of_mem_members hx
  have shared := H.attachment_of_mem hs hy (hxy.symm.trans haddress.symm)
  exact H.sound.eq_of_id_eq hx hy (Option.some.inj (hid.symm.trans shared))

/-- A stream that ends gives up its place, and takes nobody else's. -/
theorem mem_members_endReading (H : h.Attended streams) (hs : s ∈ streams) (x : Subscriber) :
    x ∈ (s.endReading h).1.members ↔ x ∈ h.members ∧ x.address ≠ s.mailbox := by
  rw [Stream.endReading]
  cases hi : s.attachment with
  | none =>
    constructor
    · intro hx
      refine ⟨hx, fun hmailbox => ?_⟩
      cases hi.symm.trans (H.attachment_of_mem hs hx hmailbox)
    · exact And.left
  | some i =>
    dsimp only
    rw [members, audience_detach, H.sound.mem_members_detach, ← members]
    apply and_congr_right
    intro hx
    apply not_congr
    constructor
    · rintro rfl
      exact H.address_of_mem hs hx hi
    · intro hmailbox
      exact (Option.some.inj (hi.symm.trans (H.attachment_of_mem hs hx hmailbox))).symm

theorem endReading (H : h.Attended (s :: rest)) :
    (s.endReading h).1.Attended ((s.endReading h).2 :: rest) := by
  have sound : (s.endReading h).1.audience.Sound := by
    rw [Stream.endReading]
    cases s.attachment with
    | none => exact H.sound
    | some i => exact audience_detach (h := h) i ▸ H.sound.detach i
  have evicted := s.evicted_endReading h
  have room : (s.endReading h).1.room = h.room := by
    rw [Stream.endReading]
    cases s.attachment <;> rfl
  have fit := H.fit s List.mem_cons_self
  apply H.replace sound (by rw [room])
  case hmailbox => rfl
  case hfit => exact ⟨room ▸ fit.placed, by simp [Stream.endReading], fun _ _ => rfl⟩
  case hmembers =>
    intro x
    have ended : (s.endReading h).2.membership? (s.endReading h).1.audience = none := rfl
    simp only [ended, reduceCtorEq, false_or, Stream.membership?_congr evicted]
    rw [H.mem_members_endReading List.mem_cons_self, H.mem_members, List.exists_mem_cons_iff]
    constructor
    · rintro ⟨own | others, haddress⟩
      · exact absurd (Stream.membership?_eq_some.mp own).2.1.symm haddress
      · exact others
    · rintro ⟨other, hother, hplace⟩
      refine ⟨.inr ⟨other, hother, hplace⟩, fun hmailbox => ?_⟩
      have apart := H.apart
      rw [List.map_cons, List.nodup_cons] at apart
      have shared := (Stream.membership?_eq_some.mp hplace).2.1.trans hmailbox
      exact apart.1 (List.mem_map.mpr ⟨other, hother, shared⟩)

theorem isSome_membership? (H : h.Attended streams) (hs : s ∈ streams) :
    (s.membership? h.audience).isSome = (s.reading && s.attachment.isSome && !s.isEvicted h) := by
  have reading := (H.fit s hs).reading
  rw [Stream.membership?, Stream.isEvicted]
  cases hi : s.attachment with
  | none => simp
  | some i =>
    rw [hi] at reading
    rw [reading rfl, audience]
    cases h.terminal with
    | none => rfl
    | some t => by_cases hin : i ∈ t.subscribers.evicted <;> simp [hin]

/-- A stream that has subscribed is a member, unless it was evicted. -/
theorem mem_members_or_evicted (H : h.Attended streams) (hs : s ∈ streams) {x : Subscriber}
    (hi : s.attachment = some x.id) (hmailbox : s.mailbox = x.address) :
    x ∈ h.members ∨ s.isEvicted h := by
  have place := H.isSome_membership? hs
  have reading := (H.fit s hs).reading (by rw [hi]; rfl)
  cases hevicted : s.isEvicted h with
  | true => exact .inr rfl
  | false =>
    rw [reading, hi, hevicted] at place
    obtain ⟨y, hy⟩ := Option.isSome_iff_exists.mp place
    obtain ⟨hid, haddress, -⟩ := Stream.membership?_eq_some.mp hy
    obtain rfl : y = x := by
      cases x
      cases y
      simp_all
    exact .inl ((H.mem_members y).mpr ⟨s, hs, hy⟩)

/-- There are as many members as streams that have subscribed and have neither ended nor been
evicted. -/
theorem length_members (H : h.Attended streams) :
    h.members.length =
      streams.countP fun s => s.reading && s.attachment.isSome && !s.isEvicted h := by
  have places : (streams.filterMap fun s => s.membership? h.audience).Nodup := by
    rw [List.Nodup, List.pairwise_filterMap]
    apply (List.pairwise_map.mp H.apart).imp
    intro s other hne x hx y hy hxy
    have own := (Stream.membership?_eq_some.mp hx).2.1
    have others := (Stream.membership?_eq_some.mp hy).2.1
    rw [hxy] at own
    exact hne (own.trans others.symm)
  have same : h.members.Perm (streams.filterMap fun s => s.membership? h.audience) := by
    apply (List.perm_ext_iff_of_nodup H.sound.members_nodup places).mpr
    intro x
    rw [List.mem_filterMap]
    exact H.mem_members x
  rw [same.length_eq, List.length_filterMap_eq_countP]
  apply List.countP_congr
  intro s hs
  rw [H.isSome_membership? hs]

end Attended

end TermLink.Host
