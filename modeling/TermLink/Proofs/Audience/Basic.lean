import TermLink.Proofs.Message.Output
import TermLink.Proofs.Terminal

/-!
# A terminal and its mailboxes

A terminal with the mailboxes that may be subscribed to it, under any order of what can happen to
them, and what every event puts into each mailbox.

## Implementation notes

A mailbox is subscribed at most once, and beside the terminal only its owner puts messages into it,
none of which are output. What was ever queued in a mailbox is what has been taken out of it and
what it still holds.
-/

namespace TermLink

/-- A terminal and the mailboxes of those who may subscribe to it. -/
structure Audience where
  terminal : Terminal
  room : Mailroom := {}
  /-- The mailboxes that were subscribed at some time. -/
  enrolled : List Address := []
  /-- The messages taken out of the mailboxes, oldest first. -/
  taken : List (Address × Message) := []
  deriving Repr

namespace Audience

/-- What can happen to a terminal and the mailboxes. -/
inductive Event where
  | create (capacity : Nat)
  | attach (a : Address)
  | detach (i : SubscriberId)
  | publish (chunk : Bytes)
  | exit (code : Int32)
  /-- The owner of a mailbox puts a message of its own into it. -/
  | reply (a : Address) (m : Message)
  /-- The owner of a mailbox takes a message out of it. -/
  | take (a : Address)
  | close (a : Address)
  deriving DecidableEq, Repr

/-- The code that an event reports. -/
def Event.code? : Event → Option Int32
  | .exit code => some code
  | _ => none

/-- The output that an event publishes. -/
def Event.chunk? : Event → Option Bytes
  | .publish chunk => some chunk
  | _ => none

/-- Whether there is a mailbox at an address, and it was never subscribed. -/
def canAttach (s : Audience) (a : Address) : Bool :=
  (s.room.box? a).isSome && !s.enrolled.contains a

/-- Changes the terminal and the mailboxes together. -/
def withTerminal (s : Audience) (next : Terminal × Mailroom) : Audience :=
  { s with terminal := next.1, room := next.2 }

/-- The audience after an event. -/
def step (s : Audience) : Event → Audience
  | .create capacity => { s with room := (s.room.create capacity).1 }
  | .attach a =>
    if s.canAttach a then
      let (terminal, room, _) := s.terminal.attach s.room a
      { s.withTerminal (terminal, room) with enrolled := a :: s.enrolled }
    else s
  | .detach i => { s with terminal := s.terminal.detach i }
  | .publish chunk => s.withTerminal (s.terminal.publish s.room chunk)
  | .exit code => s.withTerminal (s.terminal.recordExit s.room code)
  | .reply a m => if m.isOutput then s else { s with room := s.room.offer a m }
  | .take a =>
    match s.room.take? a with
    | some (m, room) => { s with room, taken := s.taken ++ [(a, m)] }
    | none => s
  | .close a => { s with room := s.room.close a }

/-- The audience after events in order. -/
def run (s : Audience) (events : List Event) : Audience := events.foldl step s

/-- A terminal that was just started, before there are any mailboxes. -/
def start (pid : ProcessId) (workdir : String) (queueDepth ceiling : Nat) (size : Size) :
    Audience where
  terminal := { pid, workdir, queueDepth, pty := { size }, backlog := .ofCeiling ceiling }

/-- All messages that were ever queued in a mailbox. -/
def queued (s : Audience) (a : Address) : List Message :=
  (s.taken.filter fun e => e.1 = a).map (·.2) ++ s.room.held a

/-- The output that was ever queued in a mailbox. -/
def outputs (s : Audience) (a : Address) : List Message := (s.queued a).filter Message.isOutput

/-- The identifier that the next member is given. -/
def nextId (s : Audience) : SubscriberId := s.terminal.subscribers.lastId + 1

/-- What holds of a terminal and its mailboxes however they came about. -/
structure Inv (s : Audience) : Prop where
  sound : s.terminal.subscribers.Sound
  apart : s.terminal.subscribers.Apart
  running : s.terminal.running = s.terminal.exitCode.isNone
  enrolled (x : Subscriber) : x ∈ s.terminal.subscribers.members → x.address ∈ s.enrolled
  silent (a : Address) : a ∉ s.enrolled → s.outputs a = []

/-- Whether a mailbox is subscribed and takes one more message. -/
def reaches (s : Audience) (a : Address) : Bool :=
  s.terminal.subscribers.serves a && s.room.takes a

/-- The output that an event puts into a mailbox. -/
def sends (s : Audience) (a : Address) : Event → List Message
  | .attach b =>
    if a = b && s.canAttach a && s.room.takes a then
      (s.terminal.exitCode.map Message.exit).toList
    else []
  | .publish chunk =>
    if s.terminal.exitCode.isNone && s.reaches a then [.data chunk] else []
  | .exit code =>
    if s.terminal.exitCode.isNone && s.reaches a then [.exit code] else []
  | _ => []

@[simp] theorem terminal_reply (s : Audience) (a : Address) (m : Message) :
    (s.step (.reply a m)).terminal = s.terminal := by
  simp only [step]
  split <;> rfl

@[simp] theorem terminal_take (s : Audience) (a : Address) :
    (s.step (.take a)).terminal = s.terminal := by
  simp only [step]
  split <;> rfl

/-- What a broadcast of output adds to what was queued in a mailbox. -/
theorem outputs_of_served {s : Audience} {next : Terminal × Mailroom} {m : Message}
    (hm : m.isOutput)
    (h : s.terminal.subscribers.Served s.room m next.1.subscribers next.2) (a : Address) :
    (s.withTerminal next).outputs a = s.outputs a ++ if s.reaches a then [m] else [] := by
  have boxes := h.box? a
  cases hserves : s.terminal.subscribers.serves a with
  | true =>
    rw [hserves, if_pos rfl] at boxes
    have held := Mailroom.held_of_offered boxes
    cases hr : s.room.takes a <;>
      simp [outputs, queued, withTerminal, reaches, held, hserves, hr, hm]
  | false =>
    rw [hserves, if_neg Bool.false_ne_true] at boxes
    have held := Mailroom.held_congr boxes
    simp [outputs, queued, withTerminal, reaches, held, hserves]

theorem outputs_attach (s : Audience) (a b : Address) :
    (s.step (.attach b)).outputs a = s.outputs a ++ s.sends a (.attach b) := by
  simp only [step, sends]
  by_cases hb : s.canAttach b
  · simp only [if_pos hb, Terminal.attach, withTerminal]
    cases hc : s.terminal.exitCode with
    | none => simp [outputs, queued]
    | some code =>
      by_cases hab : a = b
      · subst hab
        cases hr : s.room.takes a <;>
          simp [outputs, queued, Mailroom.held_offer, hr, hb, Message.isOutput]
      · simp [outputs, queued, Mailroom.held_offer, hab, Ne.symm hab]
  · by_cases hab : a = b
    · subst hab
      simp [hb]
    · simp [hb, hab]

/-- An event only adds to the output that was queued in a mailbox. -/
theorem outputs_step {s : Audience} (h : s.Inv) (a : Address) (e : Event) :
    (s.step e).outputs a = s.outputs a ++ s.sends a e := by
  cases e with
  | create capacity => simp [step, sends, outputs, queued, Mailroom.held_create]
  | attach b => exact outputs_attach s a b
  | detach i => simp [step, sends, outputs, queued]
  | publish chunk =>
    cases hc : s.terminal.exitCode with
    | none =>
      have served := Terminal.served_publish s.room chunk h.sound h.apart hc
      rw [step, outputs_of_served rfl served]
      simp [sends, hc]
    | some code =>
      have stored := Terminal.publish_of_exit s.room chunk hc
      simp [step, sends, withTerminal, stored, hc, outputs, queued]
  | exit code =>
    cases hc : s.terminal.exitCode with
    | none =>
      have served := Terminal.served_recordExit s.room code h.sound h.apart hc
      rw [step, outputs_of_served rfl served]
      simp [sends, hc]
    | some first =>
      have same := Terminal.recordExit_of_exit s.room code hc
      simp [step, sends, withTerminal, same, hc, outputs, queued]
  | reply b m =>
    by_cases hm : m.isOutput
    · simp [step, sends, hm]
    · have hm : m.isOutput = false := by simpa using hm
      by_cases hab : b = a <;> cases hr : s.room.takes a <;>
        simp [step, sends, hm, outputs, queued, Mailroom.held_offer, hab, hr]
  | take b =>
    simp only [step, sends, List.append_nil]
    cases ht : s.room.take? b with
    | none => rfl
    | some e =>
      obtain ⟨m, room⟩ := e
      have held := Mailroom.held_take? ht a
      by_cases hab : b = a <;> simp [outputs, queued, held, hab]
  | close b => simp [step, sends, outputs, queued, Mailroom.held_close]

@[simp] theorem exitCode_step (s : Audience) (e : Event) :
    (s.step e).terminal.exitCode = s.terminal.exitCode.or e.code? := by
  cases e with
  | attach b =>
    simp only [step]
    split <;> simp [Terminal.attach, withTerminal, Event.code?]
  | publish chunk => simp [step, withTerminal, Event.code?]
  | exit code => simp [step, withTerminal, Event.code?, Terminal.exitCode_recordExit]
  | reply | take => simp [Event.code?]
  | create | detach | close => simp [step, Terminal.detach, Event.code?]

theorem running_step {s : Audience} (h : s.Inv) (e : Event) :
    (s.step e).terminal.running = (s.step e).terminal.exitCode.isNone := by
  have running := h.running
  cases e with
  | attach b =>
    simp only [step]
    split <;> simpa [Terminal.attach, withTerminal] using running
  | publish chunk => simpa [step, withTerminal] using running
  | exit code => exact Terminal.running_recordExit _ _ _ running
  | reply | take => simpa using running
  | create | detach | close => exact running

theorem subscribers_attach (s : Audience) (b : Address) :
    (s.step (.attach b)).terminal.subscribers =
      if s.canAttach b then (s.terminal.subscribers.attach b).1 else s.terminal.subscribers := by
  simp only [step]
  split <;> rfl

/-- While output is served, those who take it stay, and no one else. -/
theorem served_step {s : Audience} (h : s.Inv) {e : Event}
    (he : (∃ chunk, e = .publish chunk) ∨ ∃ code, e = .exit code) :
    (s.step e).terminal.subscribers.Sound
      ∧ (s.step e).terminal.subscribers.lastId = s.terminal.subscribers.lastId
      ∧ ∀ x, x ∈ (s.step e).terminal.subscribers.members ↔
        x ∈ s.terminal.subscribers.members
          ∧ (s.terminal.exitCode = none → s.room.takes x.address) := by
  cases hc : s.terminal.exitCode with
  | none =>
    rcases he with ⟨chunk, rfl⟩ | ⟨code, rfl⟩
    · have served := Terminal.served_publish s.room chunk h.sound h.apart hc
      refine ⟨served.sound, served.lastId, ?_⟩
      intro x
      exact (served.mem_members x).trans (by simp)
    · have served := Terminal.served_recordExit s.room code h.sound h.apart hc
      refine ⟨served.sound, served.lastId, ?_⟩
      intro x
      exact (served.mem_members x).trans (by simp)
  | some c =>
    rcases he with ⟨chunk, rfl⟩ | ⟨code, rfl⟩
    · rw [step, Terminal.publish_of_exit s.room chunk hc]
      exact ⟨h.sound, rfl, by simp [withTerminal, Terminal.store]⟩
    · rw [step, Terminal.recordExit_of_exit s.room code hc]
      exact ⟨h.sound, rfl, by simp [withTerminal]⟩

/-- Who is a member after an event was one before, or has just been given the next identifier. -/
theorem mem_members_step {s : Audience} (h : s.Inv) (e : Event) :
    (s.step e).terminal.subscribers.Sound
      ∧ s.terminal.subscribers.lastId ≤ (s.step e).terminal.subscribers.lastId
      ∧ ∀ x ∈ (s.step e).terminal.subscribers.members, x ∈ s.terminal.subscribers.members
        ∨ e = .attach x.address ∧ s.canAttach x.address ∧ x.id = s.nextId := by
  cases e with
  | attach b =>
    rw [subscribers_attach]
    split
    · refine ⟨h.sound.attach b, by simp, ?_⟩
      intro x hx
      rcases (h.sound.mem_members_attach b x).mp hx with rfl | hx
      · exact .inr ⟨rfl, ‹_›, rfl⟩
      · exact .inl hx
    · exact ⟨h.sound, Nat.le_refl _, fun x hx => .inl hx⟩
  | detach i =>
    refine ⟨h.sound.detach i, by simp [step, Terminal.detach], ?_⟩
    intro x hx
    exact .inl ((h.sound.mem_members_detach i x).mp hx).1
  | publish chunk =>
    obtain ⟨sound, lastId, mem⟩ := served_step h (e := .publish chunk) (.inl ⟨_, rfl⟩)
    exact ⟨sound, Nat.le_of_eq lastId.symm, fun x hx => .inl ((mem x).mp hx).1⟩
  | exit code =>
    obtain ⟨sound, lastId, mem⟩ := served_step h (e := .exit code) (.inr ⟨_, rfl⟩)
    exact ⟨sound, Nat.le_of_eq lastId.symm, fun x hx => .inl ((mem x).mp hx).1⟩
  | reply | take =>
    simp only [terminal_reply, terminal_take]
    exact ⟨h.sound, Nat.le_refl _, fun x hx => .inl hx⟩
  | create | close => exact ⟨h.sound, Nat.le_refl _, fun x hx => .inl hx⟩

/-- A mailbox once subscribed is remembered, and no other becomes so but by being subscribed. -/
theorem enrolled_step (s : Audience) (e : Event) :
    (s.step e).enrolled = s.enrolled
      ∨ ∃ b, e = .attach b ∧ s.canAttach b ∧ (s.step e).enrolled = b :: s.enrolled := by
  cases e with
  | attach b =>
    simp only [step]
    split
    · exact .inr ⟨b, rfl, ‹_›, rfl⟩
    · exact .inl rfl
  | reply b m =>
    simp only [step]
    split <;> exact .inl rfl
  | take b =>
    simp only [step]
    split <;> exact .inl rfl
  | create | detach | publish | exit | close => exact .inl rfl

theorem mem_enrolled_step {s : Audience} {e : Event} {a : Address} (h : a ∈ s.enrolled) :
    a ∈ (s.step e).enrolled := by
  rcases enrolled_step s e with he | ⟨b, -, -, he⟩ <;> simp [he, h]

theorem not_mem_enrolled {s : Audience} {a : Address} (h : s.canAttach a) : a ∉ s.enrolled := by
  simp only [canAttach, Bool.and_eq_true, Bool.not_eq_true', List.contains_eq_mem,
    decide_eq_false_iff_not] at h
  exact h.2

theorem inv_step {s : Audience} (h : s.Inv) (e : Event) : (s.step e).Inv := by
  obtain ⟨sound, -, members⟩ := mem_members_step h e
  have enrolled : ∀ x ∈ (s.step e).terminal.subscribers.members,
      x.address ∈ (s.step e).enrolled := by
    intro x hx
    rcases members x hx with hx | ⟨rfl, hb, -⟩
    · exact mem_enrolled_step (h.enrolled x hx)
    · simp [step, hb]
  refine ⟨sound, ?_, running_step h e, enrolled, ?_⟩
  · intro x hx y hy hxy
    rcases members x hx with hx | ⟨rfl, hb, hid⟩ <;>
      rcases members y hy with hy | ⟨he, hb', hid'⟩
    · exact h.apart x hx y hy hxy
    · exact absurd (hxy ▸ h.enrolled x hx) (not_mem_enrolled hb')
    · exact absurd (hxy ▸ h.enrolled y hy) (not_mem_enrolled hb)
    · cases x; cases y
      simp_all
  · intro a ha
    have before : a ∉ s.enrolled := by
      intro hmem
      exact ha (mem_enrolled_step hmem)
    have unserved : s.reaches a = false := by
      simp only [reaches, Bool.and_eq_false_iff]
      left
      simp only [Subscribers.serves, List.any_eq_false, decide_eq_true_eq]
      rintro x hx rfl
      exact before (h.enrolled x hx)
    rw [outputs_step h, h.silent a before]
    cases e with
    | attach b =>
      by_cases hab : a = b
      · subst hab
        have no : s.canAttach a = false := by
          rw [Bool.eq_false_iff]
          intro hb
          simp [step, hb] at ha
        simp [sends, no]
      · simp [sends, hab]
    | publish | exit => simp [sends, unserved]
    | _ => rfl

theorem inv_run {s : Audience} (h : s.Inv) (events : List Event) : (s.run events).Inv := by
  induction events generalizing s with
  | nil => exact h
  | cons e rest ih => exact ih (inv_step h e)

/-- The code of a terminal is the first that was reported. -/
theorem exitCode_run (s : Audience) (events : List Event) :
    (s.run events).terminal.exitCode =
      s.terminal.exitCode.or (events.findSome? Event.code?) := by
  induction events generalizing s with
  | nil => simp [run]
  | cons e rest ih =>
    rw [run, List.foldl_cons, ← run, ih, exitCode_step, List.findSome?_cons, Option.or_assoc]
    cases e.code? <;> simp

theorem inv_start (pid : ProcessId) (workdir : String) (queueDepth ceiling : Nat) (size : Size) :
    (start pid workdir queueDepth ceiling size).Inv where
  sound := Subscribers.sound_empty
  apart := by simp [Subscribers.Apart, start, Subscribers.members]
  running := rfl
  enrolled := by simp [start, Subscribers.members]
  silent a _ := by simp [outputs, queued, start, Mailroom.held, Mailroom.box?]

end Audience
end TermLink
