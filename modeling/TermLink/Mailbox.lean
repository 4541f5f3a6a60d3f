import TermLink.Message.Basic

/-!
# Mailboxes

A mailbox is a bounded queue of messages on their way to one receiver. Several senders may share
it, so mailboxes live in a mailroom and are named by address.

## Implementation notes

Addresses are positions in the mailroom, which only grows. A receiver may close its mailbox for
good; what was queued before can still be taken.
-/

namespace TermLink

/-- A bounded queue of messages, oldest first. -/
structure Mailbox where
  capacity : Nat
  queued : List Message := []
  /-- Whether the receiver still lets messages in. -/
  isOpen : Bool := true
  deriving DecidableEq, Repr

namespace Mailbox

/-- Whether one more message can be queued. -/
def accepts (b : Mailbox) : Bool := b.isOpen && decide (b.queued.length < b.capacity)

/-- The mailbox with one more message, if it can be queued. -/
def send? (b : Mailbox) (m : Message) : Option Mailbox :=
  if b.accepts then some { b with queued := b.queued ++ [m] } else none

/-- The mailbox after the oldest message has been taken. -/
def dropOldest (b : Mailbox) : Mailbox := { b with queued := b.queued.drop 1 }

/-- The mailbox after its receiver has closed it. -/
def close (b : Mailbox) : Mailbox := { b with isOpen := false }

end Mailbox

/-- The place of a mailbox in its mailroom. -/
abbrev Address := Nat

/-- Mailboxes by address. -/
structure Mailroom where
  boxes : List Mailbox := []
  deriving DecidableEq, Repr

namespace Mailroom

/-- The mailbox at an address. -/
def box? (r : Mailroom) (a : Address) : Option Mailbox := r.boxes[a]?

/-- Adds an empty mailbox and gives its address. -/
def create (r : Mailroom) (capacity : Nat) : Mailroom × Address :=
  (⟨r.boxes ++ [{ capacity := capacity }]⟩, r.boxes.length)

/-- Changes the mailbox at an address. -/
def update (r : Mailroom) (a : Address) (f : Mailbox → Mailbox) : Mailroom :=
  ⟨r.boxes.modify a f⟩

/-- Queues a message, if the mailbox takes it. -/
def send? (r : Mailroom) (a : Address) (m : Message) : Option Mailroom := do
  let b ← r.box? a
  let full ← b.send? m
  some (r.update a fun _ => full)

/-- Queues a message where the mailbox takes it; elsewhere the message is lost. -/
def offer (r : Mailroom) (a : Address) (m : Message) : Mailroom := (r.send? a m).getD r

/-- The oldest message of a mailbox, and the mailroom without it. -/
def take? (r : Mailroom) (a : Address) : Option (Message × Mailroom) := do
  let b ← r.box? a
  let m ← b.queued.head?
  some (m, r.update a Mailbox.dropOldest)

/-- All messages of a mailbox, and the mailroom without them. -/
def takeAll (r : Mailroom) (a : Address) : List Message × Mailroom :=
  match r.box? a with
  | some b => (b.queued, r.update a fun b => { b with queued := [] })
  | none => ([], r)

/-- Closes a mailbox. -/
def close (r : Mailroom) (a : Address) : Mailroom := r.update a Mailbox.close

end Mailroom
end TermLink
