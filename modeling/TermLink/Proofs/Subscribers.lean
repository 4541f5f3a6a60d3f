import TermLink.Subscribers
import TermLink.Proofs.Mailbox
import TermLink.Proofs.Sequence
import Mathlib.Data.List.Nodup

/-!
# The members of an audience

The index and the slots of an audience name the same members, identifiers are not used twice, and
one who was evicted is no member. What a broadcast does follows for members with mailboxes of their
own: each takes the message or is evicted.
-/

namespace TermLink.Subscribers

/-- The index, the slots and the vacant slots describe one set of members. -/
structure Sound (s : Subscribers) : Prop where
  lookup_iff (i : SubscriberId) (k : Nat) :
    s.index.lookup i = some k ↔ ∃ a, s.slots[k]? = some (some ⟨i, a⟩)
  vacant_iff (k : Nat) : k ∈ s.vacant ↔ s.slots[k]? = some none
  vacant_nodup : s.vacant.Nodup
  id_le (m : Subscriber) : m ∈ s.members → m.id ≤ s.lastId
  evicted_le (i : SubscriberId) : i ∈ s.evicted → i ≤ s.lastId
  evicted_gone (m : Subscriber) : m ∈ s.members → m.id ∉ s.evicted

theorem sound_empty : Sound {} where
  lookup_iff := by simp
  vacant_iff := by simp
  vacant_nodup := by simp
  id_le := by simp [members]
  evicted_le := by simp
  evicted_gone := by simp

theorem mem_members_iff {s : Subscribers} {m : Subscriber} :
    m ∈ s.members ↔ ∃ k : Nat, s.slots[k]? = some (some m) := by
  simp only [members, List.mem_filterMap, id, exists_eq_right]
  exact List.mem_iff_getElem?

@[simp] theorem lastId_attach (s : Subscribers) (a : Address) :
    (s.attach a).1.lastId = s.lastId + 1 := by
  simp only [attach]
  split <;> rfl

@[simp] theorem evicted_attach (s : Subscribers) (a : Address) :
    (s.attach a).1.evicted = s.evicted := by
  simp only [attach]
  split <;> rfl

@[simp] theorem attach_id (s : Subscribers) (a : Address) : (s.attach a).2 = s.lastId + 1 := by
  simp only [attach]
  split <;> rfl

@[simp] theorem lastId_detach (s : Subscribers) (i : SubscriberId) :
    (s.detach i).1.lastId = s.lastId := by
  simp only [detach]
  split <;> rfl

@[simp] theorem evicted_detach (s : Subscribers) (i : SubscriberId) :
    (s.detach i).1.evicted = s.evicted := by
  simp only [detach]
  split <;> rfl

section Sound

variable {s : Subscribers} (h : s.Sound)
include h

theorem Sound.contains_iff (i : SubscriberId) : s.contains i ↔ ∃ a, ⟨i, a⟩ ∈ s.members := by
  simp only [contains, Option.isSome_iff_exists, h.lookup_iff, mem_members_iff]
  exact exists_comm

theorem Sound.slot_unique {m n : Subscriber} {j k : Nat} (hm : s.slots[j]? = some (some m))
    (hn : s.slots[k]? = some (some n)) (hid : m.id = n.id) : j = k := by
  have hj := (h.lookup_iff m.id j).mpr ⟨m.address, hm⟩
  have hk := (h.lookup_iff n.id k).mpr ⟨n.address, hn⟩
  rw [hid, hk] at hj
  exact (Option.some.inj hj).symm

theorem Sound.eq_of_id_eq {m n : Subscriber} (hm : m ∈ s.members) (hn : n ∈ s.members)
    (hid : m.id = n.id) : m = n := by
  obtain ⟨j, hj⟩ := mem_members_iff.mp hm
  obtain ⟨k, hk⟩ := mem_members_iff.mp hn
  have hjk := h.slot_unique hj hk hid
  rw [hjk, hk] at hj
  exact (Option.some.inj (Option.some.inj hj)).symm

theorem Sound.members_nodup : s.members.Nodup := by
  rw [List.Nodup, members, List.pairwise_filterMap, List.pairwise_iff_getElem]
  intro j k hj hk hlt m hm n hn hmn
  subst hmn
  have hm : s.slots[j] = some m := hm
  have hn : s.slots[k] = some m := hn
  have hjk := h.slot_unique (List.getElem?_eq_some_iff.mpr ⟨hj, hm⟩)
    (List.getElem?_eq_some_iff.mpr ⟨hk, hn⟩) rfl
  omega

/-- No member has the identifier that is given next. -/
theorem Sound.lookup_next : s.index.lookup (s.lastId + 1) = none := by
  cases hl : s.index.lookup (s.lastId + 1) with
  | none => rfl
  | some k =>
    obtain ⟨a, hk⟩ := (h.lookup_iff _ _).mp hl
    exact absurd (h.id_le _ (mem_members_iff.mpr ⟨k, hk⟩)) (Nat.not_succ_le_self _)

theorem Sound.slots_attach (a : Address) :
    ∃ k, (s.slots[k]? = some none ∨ k = s.slots.length) ∧
      (∀ j, (s.attach a).1.slots[j]? = if j = k then some (some ⟨s.lastId + 1, a⟩) else s.slots[j]?)
      ∧ (s.attach a).1.index = (s.lastId + 1, k) :: s.index
      ∧ (s.attach a).1.vacant = s.vacant.filter (· ≠ k) := by
  cases hv : s.vacant with
  | cons k rest =>
    have hk : s.slots[k]? = some none := (h.vacant_iff k).mp (by simp [hv])
    have hnodup := h.vacant_nodup
    rw [hv, List.nodup_cons] at hnodup
    refine ⟨k, .inl hk, ?_, by simp [attach, hv], ?_⟩
    · intro j
      have hlt := (List.getElem?_eq_some_iff.mp hk).1
      simp only [attach, hv, List.getElem?_set, hlt, if_true]
      split
      · subst j
        rw [if_pos rfl]
      · rw [if_neg (Ne.symm ‹_›)]
    · have hrest : rest.filter (· ≠ k) = rest := by
        rw [List.filter_eq_self]
        intro x hx
        have hne : x ≠ k := by
          rintro rfl
          exact hnodup.1 hx
        simpa using hne
      rw [List.filter_cons_of_neg (by simp), hrest]
      simp [attach, hv]
  | nil =>
    refine ⟨s.slots.length, .inr rfl, ?_, by simp [attach, hv], by simp [attach, hv]⟩
    intro j
    simp only [attach, hv]
    rcases Nat.lt_trichotomy j s.slots.length with hj | rfl | hj
    · rw [List.getElem?_append_left hj, if_neg (by omega)]
    · simp
    · rw [List.getElem?_eq_none (by simp; omega), List.getElem?_eq_none (by omega),
        if_neg (by omega)]

theorem Sound.mem_members_attach (a : Address) (m : Subscriber) :
    m ∈ (s.attach a).1.members ↔ m = ⟨s.lastId + 1, a⟩ ∨ m ∈ s.members := by
  obtain ⟨k, hk, hslots, -, -⟩ := h.slots_attach a
  simp only [mem_members_iff, hslots]
  constructor
  · rintro ⟨j, hj⟩
    split at hj
    · exact .inl (Option.some.inj (Option.some.inj hj)).symm
    · exact .inr ⟨j, hj⟩
  · rintro (rfl | ⟨j, hj⟩)
    · exact ⟨k, by simp⟩
    · refine ⟨j, ?_⟩
      rw [if_neg, hj]
      rintro rfl
      rcases hk with hk | rfl
      · simp [hk] at hj
      · simp at hj

theorem Sound.attach (a : Address) : (s.attach a).1.Sound := by
  obtain ⟨k, hk, hslots, hindex, hvacant⟩ := h.slots_attach a
  have free (m : Subscriber) : s.slots[k]? ≠ some (some m) := by
    rcases hk with hk | rfl <;> simp [*]
  constructor
  · intro i j
    rw [hindex, hslots, List.lookup_cons]
    by_cases hi : i = s.lastId + 1
    · subst hi
      simp only [beq_self_eq_true]
      constructor
      · intro hkj
        exact ⟨a, by rw [if_pos (Option.some.inj hkj).symm]⟩
      · rintro ⟨b, hb⟩
        split at hb
        · simp [*]
        · have := (h.lookup_iff (s.lastId + 1) j).mpr ⟨b, hb⟩
          simp [h.lookup_next] at this
    · have hne : (i == s.lastId + 1) = false := by simpa using hi
      simp only [hne, h.lookup_iff]
      constructor
      · rintro ⟨b, hb⟩
        refine ⟨b, ?_⟩
        rw [if_neg (by rintro rfl; exact free _ hb), hb]
      · rintro ⟨b, hb⟩
        split at hb
        · simp only [Option.some.injEq, Subscriber.mk.injEq] at hb
          exact absurd hb.1.symm hi
        · exact ⟨b, hb⟩
  · intro j
    rw [hvacant, hslots, List.mem_filter, h.vacant_iff]
    by_cases hj : j = k <;> simp [hj]
  · rw [hvacant]
    exact h.vacant_nodup.filter _
  · intro m hm
    rw [lastId_attach]
    rcases (h.mem_members_attach a m).mp hm with rfl | hm
    · exact Nat.le_refl _
    · exact Nat.le_succ_of_le (h.id_le m hm)
  · intro i hi
    rw [lastId_attach]
    exact Nat.le_succ_of_le (h.evicted_le i (by simpa using hi))
  · intro m hm
    rw [evicted_attach]
    rcases (h.mem_members_attach a m).mp hm with rfl | hm
    · intro hi
      exact absurd (h.evicted_le _ hi) (Nat.not_succ_le_self _)
    · exact h.evicted_gone m hm

theorem Sound.slots_detach (i : SubscriberId) (j : Nat) (m : Subscriber) :
    (s.detach i).1.slots[j]? = some (some m) ↔ s.slots[j]? = some (some m) ∧ m.id ≠ i := by
  simp only [detach]
  cases hl : s.index.lookup i with
  | none =>
    constructor
    · intro hm
      refine ⟨hm, ?_⟩
      rintro rfl
      have found := (h.lookup_iff m.id j).mpr ⟨m.address, hm⟩
      simp [hl] at found
    · exact And.left
  | some k =>
    obtain ⟨a, hk⟩ := (h.lookup_iff i k).mp hl
    simp only [List.getElem?_set]
    split
    · subst j
      constructor
      · split <;> simp
      · rintro ⟨hm, hne⟩
        rw [hk] at hm
        exact absurd (congrArg Subscriber.id (Option.some.inj (Option.some.inj hm))).symm hne
    · constructor
      · intro hm
        refine ⟨hm, ?_⟩
        rintro rfl
        exact absurd (h.slot_unique hk hm rfl) ‹_›
      · exact And.left

theorem Sound.mem_members_detach (i : SubscriberId) (m : Subscriber) :
    m ∈ (s.detach i).1.members ↔ m ∈ s.members ∧ m.id ≠ i := by
  simp only [mem_members_iff, h.slots_detach, exists_and_right]

theorem Sound.detach (i : SubscriberId) : (s.detach i).1.Sound := by
  constructor
  · intro j k
    simp only [h.slots_detach]
    have index : (s.detach i).1.index.lookup j = if j = i then none else s.index.lookup j := by
      simp only [Subscribers.detach]
      split
      · rw [lookup_filter fun k => k ≠ i]
        by_cases hj : j = i <;> simp [hj]
      · split <;> simp [*]
    rw [index]
    split
    · simp [*]
    · simp [*, h.lookup_iff]
  · intro k
    simp only [Subscribers.detach]
    cases hl : s.index.lookup i with
    | none => exact h.vacant_iff k
    | some j =>
      obtain ⟨a, hj⟩ := (h.lookup_iff i j).mp hl
      have hlt := (List.getElem?_eq_some_iff.mp hj).1
      simp only [List.mem_cons, List.getElem?_set]
      by_cases hk : k = j
      · simp [hk, hlt]
      · simp [hk, Ne.symm hk, h.vacant_iff]
  · simp only [Subscribers.detach]
    cases hl : s.index.lookup i with
    | none => exact h.vacant_nodup
    | some j =>
      obtain ⟨a, hj⟩ := (h.lookup_iff i j).mp hl
      apply List.nodup_cons.mpr
      constructor
      · intro hmem
        simp [(h.vacant_iff j).mp hmem] at hj
      · exact h.vacant_nodup
  · intro m hm
    rw [lastId_detach]
    exact h.id_le m ((h.mem_members_detach i m).mp hm).1
  · intro j hj
    rw [lastId_detach]
    exact h.evicted_le j (by simpa using hj)
  · intro m hm
    rw [evicted_detach]
    exact h.evicted_gone m ((h.mem_members_detach i m).mp hm).1

theorem Sound.mem_members_evict (i : SubscriberId) (m : Subscriber) :
    m ∈ (s.evict i).members ↔ m ∈ s.members ∧ m.id ≠ i := h.mem_members_detach i m

theorem Sound.evict {i : SubscriberId} (hi : i ≤ s.lastId) : (s.evict i).Sound where
  lookup_iff := (h.detach i).lookup_iff
  vacant_iff := (h.detach i).vacant_iff
  vacant_nodup := (h.detach i).vacant_nodup
  id_le := (h.detach i).id_le
  evicted_le j hj := by
    have lastId : (s.evict i).lastId = s.lastId := lastId_detach s i
    rw [lastId]
    rcases List.mem_cons.mp hj with rfl | hj
    · exact hi
    · exact h.evicted_le j (by simpa using hj)
  evicted_gone m hm := by
    obtain ⟨hmem, hne⟩ := (h.mem_members_evict i m).mp hm
    simp only [Subscribers.evict, List.mem_cons, not_or]
    exact ⟨hne, (h.detach i).evicted_gone m hm⟩

theorem Sound.mem_members_foldl_evict (ids : List SubscriberId) (hids : ∀ i ∈ ids, i ≤ s.lastId) :
    (ids.foldl Subscribers.evict s).Sound
      ∧ ∀ m, m ∈ (ids.foldl Subscribers.evict s).members ↔ m ∈ s.members ∧ m.id ∉ ids := by
  induction ids generalizing s with
  | nil => simpa using h
  | cons i ids ih =>
    have hi := hids i (by simp)
    have lastId : (s.evict i).lastId = s.lastId := lastId_detach s i
    have hrest : ∀ j ∈ ids, j ≤ (s.evict i).lastId := by
      intro j hj
      rw [lastId]
      exact hids j (by simp [hj])
    obtain ⟨sound, mem⟩ := ih (h.evict hi) hrest
    constructor
    · exact sound
    · intro m
      rw [List.foldl_cons, mem, h.mem_members_evict]
      simp [and_assoc]

end Sound

theorem lastId_foldl_evict (s : Subscribers) (ids : List SubscriberId) :
    (ids.foldl evict s).lastId = s.lastId := by
  induction ids generalizing s with
  | nil => rfl
  | cons i ids ih =>
    rw [List.foldl_cons, ih]
    exact lastId_detach s i

theorem mem_evicted_foldl_evict (s : Subscribers) (ids : List SubscriberId) (i : SubscriberId) :
    i ∈ (ids.foldl evict s).evicted ↔ i ∈ ids ∨ i ∈ s.evicted := by
  induction ids generalizing s with
  | nil => simp
  | cons j ids ih =>
    rw [List.foldl_cons, ih]
    have evicted : (s.evict j).evicted = j :: s.evicted := by simp [evict]
    rw [evicted, List.mem_cons, List.mem_cons]
    tauto

theorem length_post (room : Mailroom) (m : Message) (ms : List Subscriber) :
    (post room m ms).1.boxes.length = room.boxes.length := by
  induction ms generalizing room with
  | nil => rfl
  | cons x ms ih =>
    rw [post]
    split
    · next next hnext => rw [ih, room.length_send? _ m hnext]
    · exact ih room

/-- Members with mailboxes of their own are served independently of one another. -/
theorem post_eq (room : Mailroom) (m : Message) {ms : List Subscriber}
    (hms : ms.Pairwise fun x y => x.address ≠ y.address) :
    (post room m ms).2 = (ms.filter fun x => !room.takes x.address).map (·.id)
      ∧ ∀ a, (post room m ms).1.box? a =
        if a ∈ ms.map (·.address) then (room.box? a).map (·.offered m) else room.box? a := by
  induction ms generalizing room with
  | nil => simp [post]
  | cons x ms ih =>
    obtain ⟨hx, hms⟩ := List.pairwise_cons.mp hms
    have hsome := Mailroom.send?_isSome room x.address m
    have hnot : x.address ∉ ms.map (·.address) := by
      intro hmem
      obtain ⟨y, hy, hxy⟩ := List.mem_map.mp hmem
      exact hx y hy hxy.symm
    cases hs : room.send? x.address m with
    | none =>
      rw [hs] at hsome
      have deaf : room.takes x.address = false := hsome.symm
      obtain ⟨behind, boxes⟩ := ih room hms
      constructor
      · simp [post, hs, deaf, behind]
      · intro a
        simp only [post, hs, boxes, List.map_cons, List.mem_cons]
        by_cases hax : a = x.address
        · subst hax
          rw [if_neg hnot, if_pos (.inl rfl)]
          cases hb : room.box? x.address with
          | none => rfl
          | some b =>
            have no : b.accepts = false := by simpa [Mailroom.takes, hb] using deaf
            simp [Mailbox.offered_of_not_accepts no]
        · simp [hax]
    | some next =>
      rw [hs] at hsome
      have hears : room.takes x.address = true := hsome.symm
      obtain ⟨behind, boxes⟩ := ih next hms
      have others : ∀ y ∈ ms, next.box? y.address = room.box? y.address := by
        intro y hy
        rw [Mailroom.box?_send? hs, if_neg (hx y hy)]
      constructor
      · have same : ms.filter (fun y => !next.takes y.address)
            = ms.filter fun y => !room.takes y.address := by
          apply List.filter_congr
          intro y hy
          simp [Mailroom.takes, others y hy]
        simp only [post, hs, behind, List.filter_cons, hears]
        simp [same]
      · intro a
        simp only [post, hs, boxes, List.map_cons, List.mem_cons]
        by_cases hax : a = x.address
        · subst hax
          rw [if_neg hnot, if_pos (.inl rfl), Mailroom.box?_send? hs, if_pos rfl]
        · rw [Mailroom.box?_send? hs, if_neg (Ne.symm hax)]
          simp [hax]

/-- No two members share a mailbox. -/
def Apart (s : Subscribers) : Prop :=
  ∀ x ∈ s.members, ∀ y ∈ s.members, x.address = y.address → x = y

theorem Sound.pairwise_address {s : Subscribers} (h : s.Sound) (ha : s.Apart) :
    s.members.Pairwise fun x y => x.address ≠ y.address := by
  apply List.Pairwise.imp_of_mem _ h.members_nodup
  intro x y hx hy hxy heq
  exact hxy (ha x hx y hy heq)

/-- Whether a mailbox is that of a member. -/
def serves (s : Subscribers) (a : Address) : Bool := s.members.any fun x => x.address = a

/-- A broadcast queues the message for every member that takes it and evicts the others. -/
structure Served (s : Subscribers) (room : Mailroom) (m : Message) (next : Subscribers)
    (last : Mailroom) : Prop where
  sound : next.Sound
  lastId : next.lastId = s.lastId
  mem_members (x : Subscriber) : x ∈ next.members ↔ x ∈ s.members ∧ room.takes x.address
  mem_evicted (i : SubscriberId) :
    i ∈ next.evicted ↔ (∃ x ∈ s.members, x.id = i ∧ room.takes x.address = false) ∨ i ∈ s.evicted
  box? (a : Address) :
    last.box? a = if s.serves a then (room.box? a).map (·.offered m) else room.box? a

theorem Sound.broadcast {s : Subscribers} (h : s.Sound) (ha : s.Apart) (room : Mailroom)
    (m : Message) :
    Served s room m (s.broadcast room m).1 (s.broadcast room m).2.1 := by
  obtain ⟨behind, boxes⟩ := post_eq room m (h.pairwise_address ha)
  have hids : ∀ i ∈ (post room m s.members).2, i ≤ s.lastId := by
    intro i hi
    rw [behind] at hi
    obtain ⟨x, hx, rfl⟩ := List.mem_map.mp hi
    exact h.id_le x (List.mem_filter.mp hx).1
  obtain ⟨sound, mem⟩ := h.mem_members_foldl_evict _ hids
  constructor
  · exact sound
  · exact lastId_foldl_evict _ _
  · intro x
    rw [Subscribers.broadcast, mem, behind]
    apply and_congr_right
    intro hx
    constructor
    · intro hnot
      by_contra hdeaf
      exact hnot (List.mem_map.mpr ⟨x, List.mem_filter.mpr ⟨hx, by simpa using hdeaf⟩, rfl⟩)
    · intro hears hmem
      obtain ⟨y, hy, hid⟩ := List.mem_map.mp hmem
      obtain ⟨hy, hdeaf⟩ := List.mem_filter.mp hy
      rw [h.eq_of_id_eq hy hx hid] at hdeaf
      simp [hears] at hdeaf
  · intro i
    rw [Subscribers.broadcast, mem_evicted_foldl_evict, behind]
    simp only [List.mem_map, List.mem_filter, Bool.not_eq_true']
    apply or_congr_left
    constructor
    · rintro ⟨x, ⟨hx, hdeaf⟩, hid⟩
      exact ⟨x, hx, hid, hdeaf⟩
    · rintro ⟨x, hx, hid, hdeaf⟩
      exact ⟨x, ⟨hx, hdeaf⟩, hid⟩
  · intro a
    simp only [Subscribers.broadcast, boxes, serves, List.any_eq_true, decide_eq_true_eq,
      List.mem_map]

/-- A broadcast counts the members that are left and those that were evicted. -/
theorem Sound.outcome_broadcast {s : Subscribers} (h : s.Sound) (ha : s.Apart) (room : Mailroom)
    (m : Message) :
    let next := (s.broadcast room m).1
    let outcome := (s.broadcast room m).2.2
    outcome.delivered = next.size ∧ outcome.evicted + next.size = s.size := by
  intro next outcome
  have served := h.broadcast ha room m
  have behind := congrArg List.length (post_eq room m (h.pairwise_address ha)).1
  rw [List.length_map] at behind
  have evicted : outcome.evicted = (s.members.filter fun x => !room.takes x.address).length :=
    behind
  have left : next.size = (s.members.filter fun x => room.takes x.address).length := by
    apply List.Perm.length_eq
    apply (List.perm_ext_iff_of_nodup served.sound.members_nodup (h.members_nodup.filter _)).mpr
    intro x
    rw [served.mem_members, List.mem_filter]
  have both := s.members.length_eq_length_filter_add fun x => room.takes x.address
  have delivered : outcome.delivered = s.size - outcome.evicted := rfl
  have size : s.size = s.members.length := rfl
  rw [delivered]
  omega

end TermLink.Subscribers
