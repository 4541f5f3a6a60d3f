import TermLink.Mailbox

/-!
# Mailboxes by address

What each operation of a mailroom does to the mailbox at one address.
-/

namespace TermLink

namespace Mailbox

/-- The mailbox after a message was offered to it. -/
def offered (b : Mailbox) (m : Message) : Mailbox := (b.send? m).getD b

theorem offered_of_accepts {b : Mailbox} (h : b.accepts) (m : Message) :
    b.offered m = { b with queued := b.queued ++ [m] } := by
  simp [offered, send?, h]

theorem offered_of_not_accepts {b : Mailbox} (h : b.accepts = false) (m : Message) :
    b.offered m = b := by
  simp [offered, send?, h]

end Mailbox

namespace Mailroom

theorem box?_update (r : Mailroom) (a b : Address) (f : Mailbox → Mailbox) :
    (r.update a f).box? b = if a = b then (r.box? b).map f else r.box? b := by
  simp only [box?, update, List.getElem?_modify]
  split <;> simp

@[simp] theorem box?_update_self (r : Mailroom) (a : Address) (f : Mailbox → Mailbox) :
    (r.update a f).box? a = (r.box? a).map f := by
  simp [box?_update]

theorem box?_update_ne (r : Mailroom) {a b : Address} (h : a ≠ b) (f : Mailbox → Mailbox) :
    (r.update a f).box? b = r.box? b := by
  simp [box?_update, h]

theorem box?_create (r : Mailroom) (c a : Nat) :
    (r.create c).1.box? a =
      if a = r.boxes.length then some { capacity := c } else r.box? a := by
  simp only [box?, create, List.getElem?_append]
  rcases Nat.lt_trichotomy a r.boxes.length with h | h | h
  · simp [h, Nat.ne_of_lt h]
  · simp [h]
  · have hn : ¬ a < r.boxes.length := by omega
    have hne : a ≠ r.boxes.length := by omega
    have hk : 1 ≤ a - r.boxes.length := by omega
    rw [if_neg hn, if_neg hne, List.getElem?_eq_none (by simpa using hk),
      List.getElem?_eq_none (by omega)]

/-- Whether the mailbox at an address takes one more message. -/
def takes (r : Mailroom) (a : Address) : Bool := (r.box? a).any Mailbox.accepts

/-- The messages that wait in the mailbox at an address. -/
def held (r : Mailroom) (a : Address) : List Message := ((r.box? a).map (·.queued)).getD []

theorem held_congr {r next : Mailroom} {a : Address} (h : next.box? a = r.box? a) :
    next.held a = r.held a := by
  simp [held, h]

/-- A message that is offered waits at the end exactly where it was taken. -/
theorem held_of_offered {r next : Mailroom} {a : Address} {m : Message}
    (h : next.box? a = (r.box? a).map (·.offered m)) :
    next.held a = r.held a ++ if r.takes a then [m] else [] := by
  cases hb : r.box? a with
  | none => simp [held, takes, h, hb]
  | some b =>
    cases hs : b.accepts with
    | true => simp [held, takes, h, hb, hs, Mailbox.offered_of_accepts]
    | false => simp [held, takes, h, hb, hs, Mailbox.offered_of_not_accepts]

theorem held_create (r : Mailroom) (c : Nat) (a : Address) :
    (r.create c).1.held a = r.held a := by
  rw [held, box?_create]
  split
  · have none : r.box? a = none := List.getElem?_eq_none (by subst a; exact Nat.le_refl _)
    simp [held, none]
  · rfl

theorem held_close (r : Mailroom) (a b : Address) : (r.close a).held b = r.held b := by
  rw [held, close, box?_update]
  split
  · cases hb : r.box? b <;> simp [held, hb, Mailbox.close]
  · rfl

/-- A message is queued exactly where there is a mailbox that takes it. -/
theorem send?_isSome (r : Mailroom) (a : Address) (m : Message) :
    (r.send? a m).isSome = r.takes a := by
  cases h : r.box? a with
  | none => simp [send?, takes, h]
  | some b =>
    cases hs : b.accepts <;> simp [send?, takes, h, Mailbox.send?, hs]

theorem box?_send? {r next : Mailroom} {a : Address} {m : Message} (h : r.send? a m = some next)
    (b : Address) :
    next.box? b = if a = b then (r.box? b).map (·.offered m) else r.box? b := by
  cases hb : r.box? a with
  | none => simp [send?, hb] at h
  | some box =>
    cases hs : box.send? m with
    | none => simp [send?, hb, hs] at h
    | some full =>
      simp only [send?, hb, hs, bind, Option.bind, Option.some.injEq] at h
      rw [← h, box?_update]
      split
      · subst a
        simp [hb, Mailbox.offered, hs]
      · rfl

theorem box?_offer (r : Mailroom) (a : Address) (m : Message) (b : Address) :
    (r.offer a m).box? b = if a = b then (r.box? b).map (·.offered m) else r.box? b := by
  cases h : r.send? a m with
  | some next => simp [offer, h, box?_send? h]
  | none =>
    simp only [offer, h, Option.getD_none]
    split
    · subst a
      cases hb : r.box? b with
      | none => rfl
      | some box =>
        have no : box.accepts = false := by
          have := send?_isSome r b m
          simpa [h, hb, takes] using this.symm
        simp [Mailbox.offered_of_not_accepts no]
    · rfl

theorem held_offer (r : Mailroom) (a b : Address) (m : Message) :
    (r.offer a m).held b = r.held b ++ if a = b ∧ r.takes b then [m] else [] := by
  have boxes := box?_offer r a m b
  by_cases hab : a = b
  · rw [if_pos hab] at boxes
    rw [held_of_offered boxes]
    simp [hab]
  · rw [if_neg hab] at boxes
    rw [held_congr boxes]
    simp [hab]

/-- The message that is taken out of a mailbox is the first that waits there. -/
theorem held_take? {r next : Mailroom} {a : Address} {m : Message}
    (h : r.take? a = some (m, next)) (b : Address) :
    r.held b = if a = b then m :: next.held b else next.held b := by
  cases hb : r.box? a with
  | none => simp [take?, hb] at h
  | some box =>
    cases hq : box.queued with
    | nil => simp [take?, hb, hq] at h
    | cons head rest =>
      simp only [take?, hb, hq, bind, Option.bind, List.head?_cons, Option.some.injEq,
        Prod.mk.injEq] at h
      obtain ⟨rfl, rfl⟩ := h
      split
      · subst a
        simp [held, hb, hq, Mailbox.dropOldest]
      · exact (held_congr (box?_update_ne _ ‹_› _)).symm

/-- A mailbox that takes no message is full, or its receiver is gone. -/
theorem takes_eq_false_iff {r : Mailroom} {a : Address} (h : a < r.boxes.length) :
    r.takes a = false ↔
      ∃ b, r.box? a = some b ∧ (b.isOpen = false ∨ b.capacity ≤ b.queued.length) := by
  have hb : r.box? a = some r.boxes[a] := List.getElem?_eq_getElem h
  rw [takes, hb, Option.any_some, Mailbox.accepts, Bool.and_eq_false_iff]
  simp

variable (r : Mailroom) (a : Address) (m : Message)

theorem length_update (f : Mailbox → Mailbox) :
    (r.update a f).boxes.length = r.boxes.length := List.length_modify f r.boxes a

theorem length_send? {next : Mailroom} (h : r.send? a m = some next) :
    next.boxes.length = r.boxes.length := by
  simp only [send?, Option.bind_eq_bind, Option.bind_eq_some_iff, Option.some.injEq] at h
  obtain ⟨b, -, full, -, rfl⟩ := h
  exact r.length_update a _

theorem length_offer : (r.offer a m).boxes.length = r.boxes.length := by
  rw [offer]
  cases h : r.send? a m with
  | none => rfl
  | some next => exact r.length_send? a m h

theorem length_take? {next : Mailroom} (h : r.take? a = some (m, next)) :
    next.boxes.length = r.boxes.length := by
  simp only [take?, Option.bind_eq_bind, Option.bind_eq_some_iff, Option.some.injEq,
    Prod.mk.injEq] at h
  obtain ⟨b, -, _, -, rfl, rfl⟩ := h
  exact r.length_update a _

end Mailroom
end TermLink
