import TermLink.Proofs.Subscribers

/-!
# Delivery without gaps

Subscribers with a fresh mailbox each, under any order of what can happen to them. Whoever is a
member is sent every message, and who misses one is no member any more.

## Implementation notes

A mailbox is made whenever someone subscribes, so identifiers and addresses run side by side, and
no two members share a mailbox.
-/

namespace TermLink

/-- Subscribers and the mailboxes that were made for them. -/
structure Roster where
  subscribers : Subscribers := {}
  room : Mailroom := {}
  /-- The messages taken out of the mailboxes, oldest first. -/
  taken : List (Address × Message) := []
  deriving Repr

namespace Roster

/-- What can happen to subscribers and their mailboxes. -/
inductive Event where
  /-- Someone subscribes with a fresh mailbox. -/
  | attach (capacity : Nat)
  | detach (i : SubscriberId)
  | broadcast (m : Message)
  /-- The oldest message is taken out of a mailbox. -/
  | receive (a : Address)
  /-- The receiver of a mailbox goes away. -/
  | drop (a : Address)
  deriving DecidableEq, Repr

/-- The message that an event sends to all members. -/
def Event.message? : Event → Option Message
  | .broadcast m => some m
  | _ => none

/-- Adds a member with a fresh mailbox and gives its identifier. -/
def attach (s : Roster) (capacity : Nat) : Roster × SubscriberId :=
  let (room, a) := s.room.create capacity
  let (subscribers, i) := s.subscribers.attach a
  ({ s with subscribers, room }, i)

/-- The roster after an event. -/
def step (s : Roster) : Event → Roster
  | .attach capacity => (s.attach capacity).1
  | .detach i => { s with subscribers := (s.subscribers.detach i).1 }
  | .broadcast m =>
    let (subscribers, room, _) := s.subscribers.broadcast s.room m
    { s with subscribers, room }
  | .receive a =>
    match s.room.take? a with
    | some (m, room) => { s with room, taken := s.taken ++ [(a, m)] }
    | none => s
  | .drop a => { s with room := s.room.close a }

/-- The roster after events in order. -/
def run (s : Roster) (events : List Event) : Roster := events.foldl step s

/-- Whether an identifier names a member. -/
def contains (s : Roster) (i : SubscriberId) : Bool := s.subscribers.contains i

/-- All messages that were ever queued in a mailbox. -/
def queued (s : Roster) (a : Address) : List Message :=
  (s.taken.filter fun e => e.1 = a).map (·.2) ++ s.room.held a

/-- The identifiers that are given over a run, in order. -/
def given : Roster → List Event → List SubscriberId
  | _, [] => []
  | s, .attach capacity :: rest => (s.attach capacity).2 :: (s.attach capacity).1.given rest
  | s, e :: rest => (s.step e).given rest

/-- The messages that are sent to all while a subscriber stays a member. -/
def heard (i : SubscriberId) : Roster → List Event → List Message
  | _, [] => []
  | s, e :: rest =>
    let next := s.step e
    if next.contains i then e.message?.toList ++ heard i next rest else []

/-- What holds of subscribers and their mailboxes however they came about. -/
structure Inv (s : Roster) : Prop where
  sound : s.subscribers.Sound
  address (x : Subscriber) : x ∈ s.subscribers.members → x.id = x.address + 1
  lastId : s.subscribers.lastId = s.room.boxes.length
  taken (e : Address × Message) : e ∈ s.taken → e.1 < s.room.boxes.length

variable {s : Roster}

theorem inv_empty : Inv {} where
  sound := Subscribers.sound_empty
  address := nofun
  lastId := rfl
  taken := nofun

theorem Inv.apart (h : s.Inv) : s.subscribers.Apart := by
  intro x hx y hy hxy
  apply h.sound.eq_of_id_eq hx hy
  rw [h.address x hx, h.address y hy, hxy]

theorem Inv.served (h : s.Inv) (m : Message) :
    s.subscribers.Served s.room m (s.subscribers.broadcast s.room m).1
      (s.subscribers.broadcast s.room m).2.1 :=
  h.sound.broadcast h.apart s.room m

theorem step_attach (s : Roster) (capacity : Nat) :
    s.step (.attach capacity) =
      { s with
        subscribers := (s.subscribers.attach s.room.boxes.length).1
        room := (s.room.create capacity).1 } := rfl

theorem attach_id (s : Roster) (capacity : Nat) :
    (s.attach capacity).2 = s.subscribers.lastId + 1 := s.subscribers.attach_id _

theorem Inv.step (h : s.Inv) (e : Event) : (s.step e).Inv := by
  cases e with
  | attach capacity =>
    have length : (s.room.create capacity).1.boxes.length = s.room.boxes.length + 1 := by
      simp [Mailroom.create]
    constructor
    · exact h.sound.attach _
    · intro x hx
      rcases (h.sound.mem_members_attach _ x).mp hx with rfl | hx
      · rw [h.lastId]
      · exact h.address x hx
    · rw [step_attach, length, Subscribers.lastId_attach, h.lastId]
    · intro e he
      rw [step_attach, length]
      exact Nat.lt_succ_of_lt (h.taken e he)
  | detach i =>
    constructor
    · exact h.sound.detach i
    · intro x hx
      exact h.address x ((h.sound.mem_members_detach i x).mp hx).1
    · exact (Subscribers.lastId_detach _ i).trans h.lastId
    · exact h.taken
  | broadcast m =>
    have served := h.served m
    have length : (s.step (.broadcast m)).room.boxes.length = s.room.boxes.length :=
      Subscribers.length_post s.room m s.subscribers.members
    constructor
    · exact served.sound
    · intro x hx
      exact h.address x ((served.mem_members x).mp hx).1
    · exact served.lastId.trans (h.lastId.trans length.symm)
    · intro e he
      rw [length]
      exact h.taken e he
  | receive a =>
    simp only [Roster.step]
    split
    · next m room htake =>
      have length := s.room.length_take? a m htake
      have placed : a < s.room.boxes.length := by
        rw [Mailroom.take?, Option.bind_eq_bind] at htake
        obtain ⟨b, hb, -⟩ := Option.bind_eq_some_iff.mp htake
        exact (List.getElem?_eq_some_iff.mp hb).1
      refine ⟨h.sound, h.address, h.lastId.trans length.symm, ?_⟩
      intro e he
      rw [length]
      rcases List.mem_append.mp he with he | he
      · exact h.taken e he
      · rw [List.mem_singleton.mp he]
        exact placed
    · exact h
  | drop a =>
    have length : (s.room.close a).boxes.length = s.room.boxes.length := s.room.length_update a _
    refine ⟨h.sound, h.address, h.lastId.trans length.symm, ?_⟩
    intro e he
    rw [Roster.step, length]
    exact h.taken e he

theorem Inv.run (h : s.Inv) (events : List Event) : (s.run events).Inv := by
  induction events generalizing s with
  | nil => exact h
  | cons e rest ih => exact ih (h.step e)

theorem contains_iff (h : s.Inv) (i : SubscriberId) :
    s.contains i ↔ ∃ a, ⟨i, a⟩ ∈ s.subscribers.members := h.sound.contains_iff i

theorem lastId_step (s : Roster) (e : Event) :
    (s.step e).subscribers.lastId =
      s.subscribers.lastId + match e with
        | .attach _ => 1
        | _ => 0 := by
  cases e with
  | attach capacity => exact Subscribers.lastId_attach _ _
  | detach i => exact Subscribers.lastId_detach _ i
  | broadcast m => exact Subscribers.lastId_foldl_evict _ _
  | receive a =>
    simp only [step]
    split <;> rfl
  | drop a => rfl

/-- Who is no member does not become one again. -/
theorem Inv.contains_step (h : s.Inv) {i : SubscriberId} (hi : i ≤ s.subscribers.lastId)
    {e : Event} (hnext : (s.step e).contains i) : s.contains i := by
  rw [contains_iff (h.step e)] at hnext
  rw [contains_iff h]
  obtain ⟨a, ha⟩ := hnext
  refine ⟨a, ?_⟩
  cases e with
  | attach capacity =>
    rcases (h.sound.mem_members_attach _ _).mp ha with new | old
    · cases new
      exact absurd hi (Nat.not_succ_le_self _)
    · exact old
  | detach j => exact ((h.sound.mem_members_detach j _).mp ha).1
  | broadcast m => exact (((h.served m).mem_members _).mp ha).1
  | receive b =>
    simp only [Roster.step] at ha
    split at ha <;> exact ha
  | drop b => exact ha

theorem heard_of_not_contains (h : s.Inv) {i : SubscriberId} (hi : i ≤ s.subscribers.lastId)
    (hgone : s.contains i = false) (events : List Event) : heard i s events = [] := by
  cases events with
  | nil => rfl
  | cons e rest =>
    rw [heard, if_neg]
    intro hnext
    exact ne_true_of_eq_false hgone (h.contains_step hi hnext)

/-- Whether a mailbox is that of a member. -/
theorem serves_eq (h : s.Inv) (a : Address) : s.subscribers.serves a = s.contains (a + 1) := by
  rw [Bool.eq_iff_iff, contains_iff h, Subscribers.serves, List.any_eq_true]
  constructor
  · rintro ⟨x, hx, ha⟩
    obtain rfl : x.address = a := by simpa using ha
    exact ⟨x.address, h.address x hx ▸ hx⟩
  · rintro ⟨b, hb⟩
    obtain rfl : a = b := Nat.succ.inj (h.address _ hb)
    exact ⟨_, hb, by simp⟩

/-- Only a broadcast queues anything. -/
theorem queued_of_quiet (s : Roster) (a : Address) {e : Event} (he : e.message? = none) :
    (s.step e).queued a = s.queued a := by
  cases e with
  | attach capacity => simp [queued, step_attach, Mailroom.held_create]
  | detach i => rfl
  | broadcast m => cases he
  | drop b => simp [queued, step, Mailroom.held_close]
  | receive b =>
    simp only [step]
    split
    · next m room htake =>
      have held := Mailroom.held_take? htake a
      by_cases hba : b = a <;> simp [queued, held, hba]
    · rfl

/-- A broadcast leaves the members whose mailboxes take it. -/
theorem contains_broadcast (h : s.Inv) (a : Address) (m : Message) :
    (s.step (.broadcast m)).contains (a + 1) = (s.contains (a + 1) && s.room.takes a) := by
  have served := h.served m
  rw [Bool.eq_iff_iff, Bool.and_eq_true, contains_iff (h.step _), contains_iff h]
  constructor
  · rintro ⟨b, hb⟩
    obtain ⟨hb, takes⟩ := (served.mem_members _).mp hb
    obtain rfl : a = b := Nat.succ.inj (h.address _ hb)
    exact ⟨⟨a, hb⟩, takes⟩
  · rintro ⟨⟨b, hb⟩, takes⟩
    obtain rfl : a = b := Nat.succ.inj (h.address _ hb)
    exact ⟨a, (served.mem_members _).mpr ⟨hb, takes⟩⟩

/-- A broadcast is queued for those whom it leaves as members. -/
theorem queued_broadcast (h : s.Inv) (a : Address) (m : Message) :
    (s.step (.broadcast m)).queued a =
      s.queued a ++ if (s.step (.broadcast m)).contains (a + 1) then [m] else [] := by
  have boxes := (h.served m).box? a
  rw [serves_eq h] at boxes
  rw [contains_broadcast h]
  cases hc : s.contains (a + 1) with
  | true =>
    rw [hc, if_pos rfl] at boxes
    rw [Bool.true_and, queued, queued, List.append_assoc]
    exact congrArg _ (Mailroom.held_of_offered boxes)
  | false =>
    rw [hc, if_neg Bool.false_ne_true] at boxes
    rw [Bool.false_and, if_neg Bool.false_ne_true, List.append_nil]
    exact congrArg _ (Mailroom.held_congr boxes)

theorem queued_step (h : s.Inv) (a : Address) (e : Event) :
    (s.step e).queued a =
      s.queued a ++ if (s.step e).contains (a + 1) then e.message?.toList else [] := by
  cases hm : e.message? with
  | none => simp [queued_of_quiet s a hm]
  | some m =>
    cases e with
    | broadcast m' =>
      cases hm
      exact queued_broadcast h a m
    | _ => cases hm

/-- What is queued in a mailbox over a run is what is sent to all while its owner is a member. -/
theorem queued_run (h : s.Inv) {a : Address} (ha : a + 1 ≤ s.subscribers.lastId)
    (events : List Event) : (s.run events).queued a = s.queued a ++ heard (a + 1) s events := by
  induction events generalizing s with
  | nil => exact (List.append_nil _).symm
  | cons e rest ih =>
    have known : a + 1 ≤ (s.step e).subscribers.lastId := by
      rw [lastId_step]
      exact Nat.le_add_right_of_le ha
    have later := ih (h.step e) known
    rw [queued_step h] at later
    rw [heard]
    -- Whoever is no member after the event is sent nothing by it, nor by any later one.
    split
    · next stays =>
      rw [if_pos stays, List.append_assoc] at later
      exact later
    · next gone =>
      have nothing := heard_of_not_contains (h.step e) known (eq_false_of_ne_true gone) rest
      rw [if_neg gone, nothing, List.append_nil] at later
      exact later

theorem evicted_of_quiet (s : Roster) {e : Event} (he : e.message? = none) :
    (s.step e).subscribers.evicted = s.subscribers.evicted := by
  cases e with
  | attach capacity => exact Subscribers.evicted_attach _ _
  | detach i => exact Subscribers.evicted_detach _ i
  | broadcast m => cases he
  | receive a =>
    simp only [step]
    split <;> rfl
  | drop a => rfl

/-- A broadcast evicts those whom it removes. -/
theorem mem_evicted_broadcast (h : s.Inv) (m : Message) (i : SubscriberId) :
    i ∈ (s.step (.broadcast m)).subscribers.evicted ↔
      (s.contains i ∧ (s.step (.broadcast m)).contains i = false)
        ∨ i ∈ s.subscribers.evicted := by
  refine ((h.served m).mem_evicted i).trans (or_congr_left ?_)
  constructor
  · rintro ⟨x, hx, rfl, deaf⟩
    have member : s.contains x.id := (contains_iff h x.id).mpr ⟨x.address, hx⟩
    refine ⟨member, ?_⟩
    rw [h.address x hx, contains_broadcast h, deaf, Bool.and_false]
  · rintro ⟨member, gone⟩
    obtain ⟨a, ha⟩ := (contains_iff h i).mp member
    obtain rfl : i = a + 1 := h.address _ ha
    rw [contains_broadcast h, member, Bool.true_and] at gone
    exact ⟨_, ha, rfl, gone⟩

/-- Some broadcast among the events removes a member. -/
def Sheds (s : Roster) (events : List Event) (i : SubscriberId) : Prop :=
  ∃ before m after, events = before ++ .broadcast m :: after
    ∧ (s.run before).contains i ∧ (s.run (before ++ [.broadcast m])).contains i = false

theorem sheds_cons (e : Event) (rest : List Event) (i : SubscriberId) :
    s.Sheds (e :: rest) i ↔
      ((∃ m, e = .broadcast m) ∧ s.contains i ∧ (s.step e).contains i = false)
        ∨ (s.step e).Sheds rest i := by
  constructor
  · rintro ⟨before, m, after, heq, had, lost⟩
    rcases List.cons_eq_append_iff.mp heq with ⟨rfl, hcons⟩ | ⟨before, rfl, rfl⟩
    · obtain ⟨rfl, rfl⟩ := List.cons.inj hcons
      exact .inl ⟨⟨m, rfl⟩, had, lost⟩
    · exact .inr ⟨before, m, after, rfl, had, lost⟩
  · rintro (⟨⟨m, rfl⟩, had, lost⟩ | ⟨before, m, after, rfl, had, lost⟩)
    · exact ⟨[], m, rest, rfl, had, lost⟩
    · exact ⟨e :: before, m, after, rfl, had, lost⟩

theorem mem_evicted_run (h : s.Inv) (events : List Event) (i : SubscriberId) :
    i ∈ (s.run events).subscribers.evicted ↔ s.Sheds events i ∨ i ∈ s.subscribers.evicted := by
  induction events generalizing s with
  | nil => simp [run, Sheds]
  | cons e rest ih =>
    have step : i ∈ (s.step e).subscribers.evicted ↔
        ((∃ m, e = .broadcast m) ∧ s.contains i ∧ (s.step e).contains i = false)
          ∨ i ∈ s.subscribers.evicted := by
      cases hm : e.message? with
      | none =>
        have quiet : ¬ ∃ m, e = .broadcast m := by
          rintro ⟨m, rfl⟩
          cases hm
        simp [evicted_of_quiet s hm, quiet]
      | some m =>
        cases e with
        | broadcast m => simp [mem_evicted_broadcast h m i]
        | _ => cases hm
    calc
      _ ↔ (s.step e).Sheds rest i ∨ i ∈ (s.step e).subscribers.evicted := ih (h.step e)
      _ ↔ s.Sheds (e :: rest) i ∨ i ∈ s.subscribers.evicted := by
        rw [step, sheds_cons]
        tauto

theorem lastId_lt_of_mem_given {events : List Event} {i : SubscriberId}
    (hi : i ∈ s.given events) : s.subscribers.lastId < i := by
  induction events generalizing s with
  | nil => cases hi
  | cons e rest ih =>
    have grows : s.subscribers.lastId ≤ (s.step e).subscribers.lastId := by
      rw [lastId_step]
      exact Nat.le_add_right _ _
    cases e with
    | attach capacity =>
      rcases List.mem_cons.mp hi with rfl | hi
      · rw [attach_id]
        exact Nat.lt_succ_self _
      · exact Nat.lt_of_le_of_lt grows (ih hi)
    | detach | broadcast | receive | drop => exact Nat.lt_of_le_of_lt grows (ih hi)

/-- Identifiers are given in growing order. -/
theorem pairwise_given (s : Roster) (events : List Event) : (s.given events).Pairwise (· < ·) := by
  induction events generalizing s with
  | nil => exact List.Pairwise.nil
  | cons e rest ih =>
    cases e with
    | attach capacity =>
      apply List.pairwise_cons.mpr
      refine ⟨?_, ih _⟩
      intro i hi
      have later : (s.step (.attach capacity)).subscribers.lastId < i := lastId_lt_of_mem_given hi
      rwa [lastId_step, ← attach_id s capacity] at later
    | detach | broadcast | receive | drop => exact ih _

/-- Who subscribes is a member with a mailbox of its own, in which nothing was queued yet. -/
theorem Inv.attached (h : s.Inv) (capacity : Nat) :
    let joined := s.step (.attach capacity)
    let client := (s.attach capacity).2
    ∃ a, ⟨client, a⟩ ∈ joined.subscribers.members ∧ client = a + 1
      ∧ client ≤ joined.subscribers.lastId ∧ joined.queued a = [] := by
  intro joined client
  have hclient : client = s.subscribers.lastId + 1 := attach_id s capacity
  refine ⟨s.room.boxes.length, ?_, ?_, ?_, ?_⟩
  · rw [hclient]
    exact (h.sound.mem_members_attach _ _).mpr (.inl rfl)
  · rw [hclient, h.lastId]
  · rw [hclient, lastId_step]
  · have unheld : s.room.held s.room.boxes.length = [] := by
      simp [Mailroom.held, Mailroom.box?]
    have untaken : s.taken.filter (fun e => e.1 = s.room.boxes.length) = [] := by
      rw [List.filter_eq_nil_iff]
      intro e he
      simpa using Nat.ne_of_lt (h.taken e he)
    rw [queued_of_quiet s _ rfl, queued, unheld, untaken]
    rfl

theorem Inv.placed (h : s.Inv) {x : Subscriber} (hx : x ∈ s.subscribers.members) :
    x.address < s.room.boxes.length := by
  have known : x.id ≤ s.subscribers.lastId := h.sound.id_le x hx
  rw [h.address x hx, h.lastId] at known
  exact known

/-- However subscribers come and go, they are served without gaps: each is sent every message for
as long as it is a member, and a broadcast removes, and tells of it, those who cannot take it. -/
theorem served_without_gaps (events : List Event) :
    let start : Roster := {}
    let s := start.run events
    let members := s.subscribers.members
    (∀ before capacity after, events = before ++ .attach capacity :: after →
        let joined := ((start.run before).attach capacity).1
        let client := ((start.run before).attach capacity).2
        ∃ a, ⟨client, a⟩ ∈ joined.subscribers.members
          ∧ s.queued a = heard client joined after)
      ∧ (∀ m,
        let next := (s.subscribers.broadcast s.room m).1
        let room := (s.subscribers.broadcast s.room m).2.1
        let outcome := (s.subscribers.broadcast s.room m).2.2
        (∀ x, x ∈ next.members ↔ x ∈ members ∧ ¬ ∃ b, s.room.box? x.address = some b
            ∧ (b.isOpen = false ∨ b.capacity ≤ b.queued.length))
          ∧ (∀ x ∈ next.members, room.held x.address = s.room.held x.address ++ [m])
          ∧ outcome.delivered = next.size ∧ outcome.evicted + next.size = s.subscribers.size)
      ∧ (∀ i, i ∈ s.subscribers.evicted ↔ start.Sheds events i)
      ∧ (start.given events).Pairwise (· < ·)
      ∧ (∀ i, ((s.subscribers.detach i).2 ↔ ∃ a, ⟨i, a⟩ ∈ members)
          ∧ (s.subscribers.detach i).1.evicted = s.subscribers.evicted
          ∧ ∀ x, x ∈ (s.subscribers.detach i).1.members ↔ x ∈ members ∧ x.id ≠ i)
      ∧ ∀ i k, s.subscribers.index.lookup i = some k ↔
          ∃ a, s.subscribers.slots[k]? = some (some ⟨i, a⟩) := by
  intro start s members
  have inv : s.Inv := inv_empty.run events
  refine ⟨?_, ?_, ?_, pairwise_given start events, ?_, inv.sound.lookup_iff⟩
  · rintro before capacity after rfl joined client
    have here : (start.run before).Inv := inv_empty.run before
    obtain ⟨a, hmem, hclient, known, nothing⟩ := here.attached capacity
    refine ⟨a, hmem, ?_⟩
    have later : s = joined.run after := List.foldl_append ..
    have since := queued_run (here.step (.attach capacity)) (a := a) (hclient ▸ known) after
    rw [nothing, List.nil_append, ← hclient] at since
    rw [later]
    exact since
  · intro m next room outcome
    have served := inv.served m
    refine ⟨?_, ?_, inv.sound.outcome_broadcast inv.apart s.room m⟩
    · intro x
      refine (served.mem_members x).trans (and_congr_right ?_)
      intro hx
      rw [← Mailroom.takes_eq_false_iff (inv.placed hx), Bool.not_eq_false]
    · intro x hx
      obtain ⟨old, takes⟩ := (served.mem_members x).mp hx
      have serves : s.subscribers.serves x.address :=
        List.any_eq_true.mpr ⟨x, old, decide_eq_true rfl⟩
      have boxes := served.box? x.address
      rw [if_pos serves] at boxes
      rw [Mailroom.held_of_offered boxes, if_pos takes]
  · intro i
    rw [mem_evicted_run inv_empty]
    simp [start]
  · intro i
    refine ⟨?_, Subscribers.evicted_detach _ i, inv.sound.mem_members_detach i⟩
    rw [← inv.sound.contains_iff i, Subscribers.contains, Subscribers.detach]
    cases s.subscribers.index.lookup i <;> simp

theorem served_without_gaps_full :
    let start : Roster := {}
    let after : List Event := [.broadcast (.data [104]), .broadcast (.data [105])]
    let s := start.run (.attach 1 :: after)
    (∃ a, s.queued a = [.data [104]]) ∧ start.Sheds (.attach 1 :: after) 1
      ∧ 1 ∈ s.subscribers.evicted := by
  intro start after s
  obtain ⟨messages, -, evicted, -⟩ := served_without_gaps (.attach 1 :: after)
  obtain ⟨a, -, queued⟩ := messages [] 1 after rfl
  have heard : heard (start.attach 1).2 (start.attach 1).1 after = [.data [104]] := by decide
  have gone : 1 ∈ s.subscribers.evicted := by decide
  exact ⟨⟨a, queued.trans heard⟩, (evicted 1).mp gone, gone⟩

end Roster
end TermLink
