import TermLink.Proofs.Audience.Basic

/-!
# What the members of an audience are sent

A member is sent every chunk that is published while it is a member and no exit is recorded, and
then at most one exit. One who subscribes after the exit is told of it only if its mailbox has room
at that moment, since nothing is sent to it later.
-/

namespace TermLink.Audience

/-- Whether an identifier names a member who can still be sent output. -/
def hears (s : Audience) (i : SubscriberId) : Bool :=
  s.terminal.exitCode.isNone && s.terminal.subscribers.contains i

/-- The output that is published to a member until it is no member any more or an exit is
recorded, whichever comes first. -/
def heard (i : SubscriberId) : Audience → List Event → List Bytes
  | _, [] => []
  | s, e :: rest =>
    let next := s.step e
    if next.hears i then e.chunk?.toList ++ heard i next rest else []

/-- The exit that a member is sent, if it still is a member when one is recorded. -/
def farewell (i : SubscriberId) : Audience → List Event → List Message
  | _, [] => []
  | s, e :: rest =>
    let next := s.step e
    if next.hears i then farewell i next rest
    else if next.terminal.subscribers.contains i then
      (next.terminal.exitCode.map Message.exit).toList
    else []

/-- The identifier under which a mailbox was subscribed names it and nothing else. -/
structure Owns (s : Audience) (i : SubscriberId) (a : Address) : Prop where
  id_le : i ≤ s.terminal.subscribers.lastId
  enrolled : a ∈ s.enrolled
  iff (x : Subscriber) : x ∈ s.terminal.subscribers.members → (x.id = i ↔ x.address = a)

theorem ne_nextId {s : Audience} {i : SubscriberId} (h : i ≤ s.terminal.subscribers.lastId) :
    i ≠ s.nextId := by
  rintro rfl
  exact Nat.not_succ_le_self _ h

theorem Owns.step {s : Audience} {i : SubscriberId} {a : Address} (h : s.Inv) (ho : s.Owns i a)
    (e : Event) : (s.step e).Owns i a := by
  obtain ⟨-, lastId, members⟩ := mem_members_step h e
  refine ⟨Nat.le_trans ho.id_le lastId, mem_enrolled_step ho.enrolled, fun x hx => ?_⟩
  rcases members x hx with hx | ⟨-, hb, hid⟩
  · exact ho.iff x hx
  · constructor
    · intro hxi
      rw [hxi] at hid
      exact absurd hid (ne_nextId ho.id_le)
    · rintro rfl
      exact absurd ho.enrolled (not_mem_enrolled hb)

theorem Owns.serves_eq {s : Audience} {i : SubscriberId} {a : Address} (h : s.Inv)
    (ho : s.Owns i a) :
    s.terminal.subscribers.serves a = s.terminal.subscribers.contains i := by
  rw [Bool.eq_iff_iff, h.sound.contains_iff]
  simp only [Subscribers.serves, List.any_eq_true, decide_eq_true_eq]
  constructor
  · rintro ⟨x, hx, rfl⟩
    rw [← (ho.iff x hx).mpr rfl]
    exact ⟨x.address, hx⟩
  · rintro ⟨b, hb⟩
    exact ⟨_, hb, (ho.iff _ hb).mp rfl⟩

theorem Owns.not_canAttach {s : Audience} {i : SubscriberId} {a : Address} (ho : s.Owns i a) :
    s.canAttach a = false := by
  rw [Bool.eq_false_iff]
  intro ha
  exact not_mem_enrolled ha ho.enrolled

theorem contains_attach {s : Audience} (h : s.Inv) {i : SubscriberId} {b : Address}
    (hi : i ≤ s.terminal.subscribers.lastId) :
    (s.step (.attach b)).terminal.subscribers.contains i = s.terminal.subscribers.contains i := by
  rw [Bool.eq_iff_iff, (inv_step h (.attach b)).sound.contains_iff, h.sound.contains_iff,
    subscribers_attach]
  split
  · apply exists_congr
    intro c
    rw [h.sound.mem_members_attach, or_iff_right]
    intro heq
    exact ne_nextId hi (congrArg Subscriber.id heq)
  · rfl

/-- Whether a member is still one after something was published. -/
theorem contains_served {s : Audience} (h : s.Inv) {i : SubscriberId} {a : Address}
    (ho : s.Owns i a) (hc : s.terminal.exitCode = none) {e : Event}
    (he : (∃ chunk, e = .publish chunk) ∨ ∃ code, e = .exit code) :
    (s.step e).terminal.subscribers.contains i =
      (s.terminal.subscribers.contains i && s.room.takes a) := by
  obtain ⟨sound, -, members⟩ := served_step h he
  rw [Bool.eq_iff_iff, Bool.and_eq_true, sound.contains_iff, h.sound.contains_iff]
  constructor
  · rintro ⟨b, hb⟩
    obtain ⟨hmem, htakes⟩ := (members _).mp hb
    have hba : b = a := (ho.iff _ hmem).mp rfl
    subst hba
    exact ⟨⟨b, hmem⟩, htakes hc⟩
  · rintro ⟨⟨b, hb⟩, htakes⟩
    have hba : b = a := (ho.iff _ hb).mp rfl
    subst hba
    exact ⟨b, (members _).mpr ⟨hb, fun _ => htakes⟩⟩

/-- One who is no member does not become one again. -/
theorem contains_of_step {s : Audience} (h : s.Inv) {i : SubscriberId}
    (hi : i ≤ s.terminal.subscribers.lastId) {e : Event}
    (hc : (s.step e).terminal.subscribers.contains i) : s.terminal.subscribers.contains i := by
  obtain ⟨sound, -, members⟩ := mem_members_step h e
  obtain ⟨b, hb⟩ := (sound.contains_iff i).mp hc
  rcases members _ hb with hb | ⟨-, -, hid⟩
  · exact (h.sound.contains_iff i).mpr ⟨b, hb⟩
  · exact absurd hid (ne_nextId hi)

theorem contains_of_run {s : Audience} (h : s.Inv) {i : SubscriberId} {a : Address}
    (ho : s.Owns i a) {events : List Event}
    (hc : (s.run events).terminal.subscribers.contains i) :
    s.terminal.subscribers.contains i := by
  induction events generalizing s with
  | nil => exact hc
  | cons e rest ih => exact contains_of_step h ho.id_le (ih (inv_step h e) (ho.step h e) hc)

/-- One who is no member any more, or comes after the exit, is sent nothing. -/
theorem sends_of_not_hears {s : Audience} (h : s.Inv) {i : SubscriberId} {a : Address}
    (ho : s.Owns i a) (hs : s.hears i = false) (e : Event) :
    s.sends a e = [] ∧ (s.step e).hears i = false := by
  have closed := ho.not_canAttach
  have quiet : s.terminal.exitCode.isNone = false ∨ s.reaches a = false := by
    simp only [hears, Bool.and_eq_false_iff] at hs
    exact hs.imp_right fun hc => by simp [reaches, ho.serves_eq h, hc]
  constructor
  · cases e with
    | attach b => simp [sends, closed]
    | publish | exit => rcases quiet with hq | hq <;> simp [sends, hq]
    | _ => rfl
  · simp only [hears, Bool.and_eq_false_iff] at hs ⊢
    rcases hs with hs | hs
    · left
      cases hc : s.terminal.exitCode <;> simp_all
    · right
      rw [Bool.eq_false_iff] at hs ⊢
      exact fun hc => hs (contains_of_step h ho.id_le hc)

/-- What an event puts into the mailbox of one who hears: a chunk, or the exit that is the last. -/
theorem sends_of_hears {s : Audience} (h : s.Inv) {i : SubscriberId} {a : Address}
    (ho : s.Owns i a) (hs : s.hears i) (e : Event) :
    s.sends a e =
      if (s.step e).hears i then (e.chunk?.map Message.data).toList
      else if (s.step e).terminal.subscribers.contains i then
        ((s.step e).terminal.exitCode.map Message.exit).toList
      else [] := by
  simp only [hears, Bool.and_eq_true, Option.isNone_iff_eq_none] at hs
  obtain ⟨hc, hi⟩ := hs
  have closed := ho.not_canAttach
  have reaches : s.reaches a = s.room.takes a := by
    rw [Audience.reaches, ho.serves_eq h, hi, Bool.true_and]
  cases e with
  | attach b =>
    simp [sends, closed, hears, hc, Event.code?, Event.chunk?, contains_attach h ho.id_le, hi]
  | publish chunk =>
    have contains := contains_served h ho hc (e := .publish chunk) (.inl ⟨_, rfl⟩)
    cases ht : s.room.takes a <;>
      simp [sends, hears, hc, reaches, contains, hi, ht, Event.code?, Event.chunk?]
  | exit code =>
    have contains := contains_served h ho hc (e := .exit code) (.inr ⟨_, rfl⟩)
    cases ht : s.room.takes a <;>
      simp [sends, hears, hc, reaches, contains, hi, ht, Event.code?]
  | reply | take => simp [sends, hears, hc, hi, Event.chunk?]
  | detach j =>
    cases hj : (s.step (.detach j)).terminal.subscribers.contains i <;>
      simp [sends, hears, hc, hj, Event.code?, Event.chunk?]
  | create | close => simp [sends, hears, step, hc, hi, Event.chunk?]

theorem outputs_run_of_not_hears {s : Audience} (h : s.Inv) {i : SubscriberId} {a : Address}
    (ho : s.Owns i a) (hs : s.hears i = false) (events : List Event) :
    (s.run events).outputs a = s.outputs a := by
  induction events generalizing s with
  | nil => rfl
  | cons e rest ih =>
    obtain ⟨nothing, still⟩ := sends_of_not_hears h ho hs e
    have tail := ih (inv_step h e) (ho.step h e) still
    rw [run, List.foldl_cons, ← run, tail, outputs_step h, nothing, List.append_nil]

/-- Over a run, one who hears is sent what is published to it and then perhaps an exit. -/
theorem outputs_run_of_hears {s : Audience} (h : s.Inv) {i : SubscriberId} {a : Address}
    (ho : s.Owns i a) (hs : s.hears i) (events : List Event) :
    (s.run events).outputs a =
      s.outputs a ++ ((heard i s events).map Message.data ++ farewell i s events) := by
  induction events generalizing s with
  | nil => simp [run, heard, farewell]
  | cons e rest ih =>
    have head := outputs_step h a e
    rw [sends_of_hears h ho hs e] at head
    rw [run, List.foldl_cons, ← run]
    cases hnext : (s.step e).hears i with
    | true =>
      rw [ih (inv_step h e) (ho.step h e) hnext, head]
      cases hchunk : e.chunk? <;> simp [heard, farewell, hnext, hchunk]
    | false =>
      rw [outputs_run_of_not_hears (inv_step h e) (ho.step h e) hnext, head]
      simp [heard, farewell, hnext]

/-- A mailbox that has just been subscribed is known by the identifier it was given. -/
theorem owns_attach {s : Audience} (h : s.Inv) {a : Address} (ha : s.canAttach a) :
    (s.step (.attach a)).Owns s.nextId a := by
  have subscribers := subscribers_attach s a
  rw [if_pos ha] at subscribers
  refine ⟨by simp [subscribers, nextId], by simp [step, ha], ?_⟩
  intro x hx
  rw [subscribers] at hx
  rcases (h.sound.mem_members_attach a x).mp hx with rfl | hmem
  · exact ⟨fun _ => rfl, fun _ => rfl⟩
  · constructor
    · intro hid
      exact absurd hid (ne_nextId (h.sound.id_le x hmem))
    · rintro rfl
      exact absurd (h.enrolled x hmem) (not_mem_enrolled ha)

theorem contains_owns_attach {s : Audience} (h : s.Inv) {a : Address} (ha : s.canAttach a) :
    (s.step (.attach a)).terminal.subscribers.contains s.nextId := by
  rw [(inv_step h (.attach a)).sound.contains_iff, subscribers_attach, if_pos ha]
  exact ⟨a, (h.sound.mem_members_attach a _).mpr (.inl rfl)⟩

/-- A farewell is the code that was recorded, if it is anything. -/
theorem farewell_eq {s : Audience} {i : SubscriberId} (events : List Event) :
    farewell i s events = []
      ∨ ∃ code, farewell i s events = [.exit code]
        ∧ (s.run events).terminal.exitCode = some code := by
  induction events generalizing s with
  | nil => exact .inl rfl
  | cons e rest ih =>
    rw [run, List.foldl_cons, ← run]
    simp only [farewell]
    split
    · exact ih
    · split
      · cases hc : (s.step e).terminal.exitCode with
        | none => exact .inl rfl
        | some code => exact .inr ⟨code, rfl, by rw [exitCode_run, hc]; rfl⟩
      · exact .inl rfl

/-- One who is still a member after an exit was recorded was told of it. -/
theorem farewell_of_contains {s : Audience} (h : s.Inv) {i : SubscriberId} {a : Address}
    (ho : s.Owns i a) (hs : s.hears i) {events : List Event} {code : Int32}
    (hcode : (s.run events).terminal.exitCode = some code)
    (hc : (s.run events).terminal.subscribers.contains i) :
    farewell i s events = [.exit code] := by
  induction events generalizing s with
  | nil =>
    have none : s.terminal.exitCode = none := by
      simpa [hears] using (Bool.and_eq_true_iff.mp hs).1
    simp [run, none] at hcode
  | cons e rest ih =>
    rw [run, List.foldl_cons, ← run] at hcode hc
    have contains := contains_of_run (inv_step h e) (ho.step h e) hc
    simp only [farewell]
    split
    · exact ih (inv_step h e) (ho.step h e) ‹_› hcode hc
    · cases hrec : (s.step e).terminal.exitCode with
      | none =>
        have hears : (s.step e).hears i := by rw [hears, hrec, contains]; rfl
        contradiction
      | some c =>
        rw [exitCode_run, hrec] at hcode
        have hcc : c = code := Option.some.inj hcode
        rw [hcc]
        rfl

/-- One who comes after the exit hears nothing of the output. -/
theorem heard_of_exit {s : Audience} {code : Int32} (h : s.terminal.exitCode = some code)
    (i : SubscriberId) (events : List Event) : heard i s events = [] := by
  cases events with
  | nil => rfl
  | cons e rest => simp [heard, hears, h]

/-- A member stops hearing because an exit is recorded, or it is removed, or evicted. -/
theorem stops_hearing {s : Audience} (h : s.Inv) {i : SubscriberId} {a : Address}
    (ho : s.Owns i a) (hs : s.hears i) {e : Event} (hnext : (s.step e).hears i = false) :
    (∃ code, e = .exit code) ∨ e = .detach i
      ∨ i ∈ (s.step e).terminal.subscribers.evicted := by
  simp only [hears, Bool.and_eq_true, Option.isNone_iff_eq_none] at hs
  obtain ⟨hc, hi⟩ := hs
  have same (hterminal : (s.step e).terminal = s.terminal) : False := by
    simp [hears, hterminal, hc, hi] at hnext
  cases e with
  | exit code => exact .inl ⟨code, rfl⟩
  | attach b =>
    simp [hears, hc, Event.code?, contains_attach h ho.id_le, hi] at hnext
  | detach j =>
    right
    left
    by_contra hne
    obtain ⟨b, hb⟩ := (h.sound.contains_iff i).mp hi
    have other : i ≠ j := by
      rintro rfl
      exact hne rfl
    have stays : (s.terminal.subscribers.detach j).1.contains i := by
      apply ((h.sound.detach j).contains_iff i).mpr
      exact ⟨b, (h.sound.mem_members_detach j _).mpr ⟨hb, other⟩⟩
    simp [hears, step, Terminal.detach, hc, stays] at hnext
  | publish chunk =>
    right
    right
    obtain ⟨b, hb⟩ := (h.sound.contains_iff i).mp hi
    have served := Terminal.served_publish s.room chunk h.sound h.apart hc
    have contains := contains_served h ho hc (e := .publish chunk) (.inl ⟨_, rfl⟩)
    have deaf : s.room.takes a = false := by
      simpa [hears, hc, Event.code?, contains, hi] using hnext
    have hba : b = a := (ho.iff _ hb).mp rfl
    subst hba
    exact (served.mem_evicted i).mpr (.inl ⟨_, hb, rfl, deaf⟩)
  | reply b m => exact (same (terminal_reply s b m)).elim
  | take b => exact (same (terminal_take s b)).elim
  | create | close => exact (same rfl).elim

/-- Who was evicted once stays so. -/
theorem evicted_step {s : Audience} (h : s.Inv) {i : SubscriberId}
    (hi : i ∈ s.terminal.subscribers.evicted) (e : Event) :
    i ∈ (s.step e).terminal.subscribers.evicted := by
  cases e with
  | attach b =>
    rw [subscribers_attach]
    split
    · simpa using hi
    · exact hi
  | detach j => simpa [step, Terminal.detach] using hi
  | publish chunk =>
    cases hc : s.terminal.exitCode with
    | none =>
      have served := Terminal.served_publish s.room chunk h.sound h.apart hc
      exact (served.mem_evicted i).mpr (.inr hi)
    | some code =>
      rw [step, Terminal.publish_of_exit s.room chunk hc]
      exact hi
  | exit code =>
    cases hc : s.terminal.exitCode with
    | none =>
      have served := Terminal.served_recordExit s.room code h.sound h.apart hc
      exact (served.mem_evicted i).mpr (.inr hi)
    | some first =>
      rw [step, Terminal.recordExit_of_exit s.room code hc]
      exact hi
  | reply | take => simpa using hi
  | create | close => exact hi

theorem evicted_run {s : Audience} (h : s.Inv) {i : SubscriberId}
    (hi : i ∈ s.terminal.subscribers.evicted) (events : List Event) :
    i ∈ (s.run events).terminal.subscribers.evicted := by
  induction events generalizing s with
  | nil => exact hi
  | cons e rest ih => exact ih (inv_step h e) (evicted_step h hi e)

/-- One who is a member after events was not detached by any of them. -/
theorem not_detached {s : Audience} (h : s.Inv) {i : SubscriberId} {a : Address}
    (ho : s.Owns i a) {events : List Event}
    (hc : (s.run events).terminal.subscribers.contains i) : .detach i ∉ events := by
  induction events generalizing s with
  | nil => simp
  | cons e rest ih =>
    have inv := inv_step h e
    have owns := ho.step h e
    intro hmem
    rcases List.mem_cons.mp hmem with rfl | hmem
    · obtain ⟨b, hb⟩ := (inv.sound.contains_iff i).mp (contains_of_run inv owns hc)
      exact ((h.sound.mem_members_detach i _).mp hb).2 rfl
    · exact ih inv owns hc hmem

/-- A member hears until the first of its removal, its eviction and the exit. -/
theorem hears_run_iff {s : Audience} (h : s.Inv) {i : SubscriberId} {a : Address}
    (ho : s.Owns i a) (hm : s.terminal.subscribers.contains i) (events : List Event) :
    (s.run events).hears i ↔ (s.run events).terminal.exitCode = none ∧ .detach i ∉ events
      ∧ i ∉ (s.run events).terminal.subscribers.evicted := by
  constructor
  · intro hears
    simp only [Audience.hears, Bool.and_eq_true, Option.isNone_iff_eq_none] at hears
    obtain ⟨hc, hi⟩ := hears
    have sound := (inv_run h events).sound
    obtain ⟨b, hb⟩ := (sound.contains_iff i).mp hi
    exact ⟨hc, not_detached h ho hi, sound.evicted_gone _ hb⟩
  · rintro ⟨hc, hdetach, hevicted⟩
    -- No exit at the end means no exit on the way, so only the member's own end is left to exclude.
    induction events generalizing s with
    | nil =>
      have running : s.terminal.exitCode = none := hc
      simp [Audience.hears, run, running, hm]
    | cons e rest ih =>
      have inv := inv_step h e
      rw [run, List.foldl_cons, ← run] at hc hevicted ⊢
      have running : s.terminal.exitCode = none ∧ e.code? = none := by
        rw [exitCode_run, exitCode_step, Option.or_eq_none_iff, Option.or_eq_none_iff] at hc
        exact hc.1
      have hears : s.hears i := by simp [Audience.hears, running.1, hm]
      have next : (s.step e).hears i := by
        by_contra hnot
        rw [Bool.not_eq_true] at hnot
        rcases stops_hearing h ho hears hnot with ⟨code, rfl⟩ | rfl | hgone
        · simp [Event.code?] at running
        · simp at hdetach
        · exact hevicted (evicted_run inv hgone rest)
      have later : .detach i ∉ rest := by
        intro hmem
        exact hdetach (List.mem_cons_of_mem _ hmem)
      exact ih inv (ho.step h e) (Bool.and_eq_true_iff.mp next).2 hc later hevicted

/-- What was put into a mailbox since it was subscribed. -/
theorem outputs_attached {s : Audience} (h : s.Inv) {a : Address} (ha : s.canAttach a)
    (after : List Event) :
    ((s.step (.attach a)).run after).outputs a =
      match s.terminal.exitCode with
      | some code => if s.room.takes a then [.exit code] else []
      | none =>
        (heard s.nextId (s.step (.attach a)) after).map Message.data
          ++ farewell s.nextId (s.step (.attach a)) after := by
  have next := inv_step h (.attach a)
  have owns := owns_attach h ha
  have contains := contains_owns_attach h ha
  have before := h.silent a (not_mem_enrolled ha)
  have joined := outputs_attach s a a
  cases hc : s.terminal.exitCode with
  | none =>
    have hears : (s.step (.attach a)).hears s.nextId := by
      simp [Audience.hears, hc, contains, Event.code?]
    rw [outputs_run_of_hears next owns hears, joined, before]
    simp [sends, hc]
  | some code =>
    have deaf : (s.step (.attach a)).hears s.nextId = false := by simp [Audience.hears, hc]
    rw [outputs_run_of_not_hears next owns deaf, joined, before]
    simp [sends, ha, hc]

/-- What a mailbox is ever sent, and what a terminal remembers of its exit, after any events. -/
theorem outputs_run (pid : ProcessId) (workdir : String) (queueDepth ceiling : Nat) (size : Size)
    (events : List Event) :
    let first := start pid workdir queueDepth ceiling size
    let last := first.run events
    (∀ (before after : List Event) (a : Address), events = before ++ .attach a :: after →
      (first.run before).canAttach a →
        let client := (first.run before).nextId
        let attached := (first.run before).step (.attach a)
        (∃ tail, last.outputs a = (heard client attached after).map Message.data ++ tail
          ∧ (tail = [] ∨
            ∃ code, tail = [.exit code] ∧ events.findSome? Event.code? = some code))
        ∧ ∀ middle, (attached.run middle).hears client ↔
            (attached.run middle).terminal.exitCode = none ∧ .detach client ∉ middle
              ∧ client ∉ (attached.run middle).terminal.subscribers.evicted)
      ∧ last.terminal.exitCode = events.findSome? Event.code?
      ∧ last.terminal.running = last.terminal.exitCode.isNone
      ∧ ∀ (more : List Event) (code : Int32), last.terminal.exitCode = some code →
        (last.run more).terminal.exitCode = some code := by
  intro first last
  have inv : first.Inv := inv_start pid workdir queueDepth ceiling size
  have code : last.terminal.exitCode = events.findSome? Event.code? := by
    rw [exitCode_run]
    rfl
  refine ⟨?_, code, (inv_run inv events).running, ?_⟩
  · rintro before after a rfl ha client attached
    have here : (first.run before).Inv := inv_run inv before
    constructor
    · have joined : last = attached.run after := by
        simp [last, attached, run, List.foldl_append]
      rw [← code, joined, outputs_attached here ha]
      cases hc : (first.run before).terminal.exitCode with
      | none => exact ⟨_, rfl, farewell_eq after⟩
      | some c =>
        have ended : attached.terminal.exitCode = some c := by simp [attached, hc]
        have silent := heard_of_exit ended client after
        refine ⟨if (first.run before).room.takes a then [.exit c] else [], by simp [silent], ?_⟩
        split
        · exact .inr ⟨c, rfl, by rw [exitCode_run]; simp [ended]⟩
        · exact .inl rfl
    · exact hears_run_iff (inv_step here _) (owns_attach here ha) (contains_owns_attach here ha)
  · intro more c hc
    rw [exitCode_run, hc]
    rfl

theorem outputs_run_published :
    let first := start 7 "/" 4 16 ⟨80, 24⟩
    (first.run [.create 2]).canAttach 0 ∧
      ∃ tail, (first.run [.create 2, .attach 0, .publish [104], .exit 3]).outputs 0 =
          [.data [104]] ++ tail
        ∧ (tail = [] ∨ ∃ code, tail = [.exit code] ∧ code = 3) := by
  have attach : ((start 7 "/" 4 16 ⟨80, 24⟩).run [.create 2]).canAttach 0 := by decide
  obtain ⟨⟨tail, hout, htail⟩, -⟩ :=
    (outputs_run 7 "/" 4 16 ⟨80, 24⟩ [.create 2, .attach 0, .publish [104], .exit 3]).1
      [.create 2] [.publish [104], .exit 3] 0 rfl attach
  refine ⟨attach, tail, hout, htail.imp_right ?_⟩
  rintro ⟨code, rfl, hcode⟩
  exact ⟨code, rfl, (Option.some.inj hcode).symm⟩

/-- The states that a terminal and its mailboxes can come to. -/
def Reachable (s : Audience) : Prop :=
  ∃ pid workdir queueDepth ceiling size events,
    s = (start pid workdir queueDepth ceiling size).run events

/-- Who is a member once an exit is recorded was told of it exactly if it had subscribed before,
or its mailbox took the message at the moment it subscribed. -/
theorem exit_mem_queued_iff {s : Audience} (hs : s.Reachable) {a : Address}
    (ha : s.canAttach a) (after : List Event) {code : Int32}
    (hcode : ((s.step (.attach a)).run after).terminal.exitCode = some code)
    (hmember : ((s.step (.attach a)).run after).terminal.subscribers.contains s.nextId) :
    .exit code ∈ ((s.step (.attach a)).run after).queued a ↔
      s.terminal.exitCode = none ∨ s.room.takes a := by
  have inv : s.Inv := by
    obtain ⟨pid, workdir, queueDepth, ceiling, size, events, rfl⟩ := hs
    exact inv_run (inv_start pid workdir queueDepth ceiling size) events
  have output : .exit code ∈ ((s.step (.attach a)).run after).queued a ↔
      .exit code ∈ ((s.step (.attach a)).run after).outputs a := by
    simp [outputs, Message.isOutput]
  rw [output, outputs_attached inv ha]
  cases hc : s.terminal.exitCode with
  | none =>
    have hears : (s.step (.attach a)).hears s.nextId := by
      simp [Audience.hears, hc, contains_owns_attach inv ha, Event.code?]
    have told := farewell_of_contains (inv_step inv _) (owns_attach inv ha) hears hcode hmember
    simp [told]
  | some c =>
    have same : c = code := by
      rw [exitCode_run, exitCode_step, hc] at hcode
      exact Option.some.inj hcode
    cases s.room.takes a <;> simp [same]

theorem exit_mem_queued_iff_full :
    let s := (start 7 "/" 4 16 ⟨80, 24⟩).run [.create 1, .exit 3, .reply 0 (.pong 5)]
    .exit 3 ∈ ((s.step (.attach 0)).run []).queued 0 ↔
      s.terminal.exitCode = none ∨ s.room.takes 0 := by
  intro s
  have reachable : s.Reachable := ⟨_, _, _, _, _, _, rfl⟩
  exact exit_mem_queued_iff reachable (by decide) [] (by decide) (by decide)

/-- A member whose mailbox was full when it subscribed after the exit is never told of it. -/
theorem exit_not_always_queued :
    ¬ ∀ (events : List Event), (∀ c, .create c ∈ events → 0 < c) →
      ∀ (code : Int32) (x : Subscriber),
        ((start 7 "/" 4 16 ⟨80, 24⟩).run events).terminal.exitCode = some code →
        x ∈ ((start 7 "/" 4 16 ⟨80, 24⟩).run events).terminal.subscribers.members →
        .exit code ∈ ((start 7 "/" 4 16 ⟨80, 24⟩).run events).queued x.address := by
  intro h
  have positive : ∀ c, .create c ∈ [Event.create 1, .exit 3, .reply 0 (.pong 5), .attach 0] →
      0 < c := by
    simp
  have told := h [.create 1, .exit 3, .reply 0 (.pong 5), .attach 0] positive 3 ⟨1, 0⟩
    (by decide) (by decide)
  exact absurd told (by decide)

end TermLink.Audience
