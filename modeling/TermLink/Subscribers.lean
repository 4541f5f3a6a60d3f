import TermLink.Mailbox

/-!
# Subscribers

Those to whom a terminal's output is pushed. Every message is queued for every member; a member
whose mailbox cannot take a message is evicted, so that no member ever sees a gap.

## Implementation notes

Members are held in slots. A slot that has become vacant is used again, the latest one first, but
an identifier never is; `index` says in which slot a member is.
-/

namespace TermLink

/-- The name of a membership. Identifiers count from one and are not used twice. -/
abbrev SubscriberId := Nat

/-- A member: its identifier and the mailbox that is filled for it. -/
structure Subscriber where
  id : SubscriberId
  address : Address
  deriving DecidableEq, Repr

/-- The members of a terminal's audience. -/
structure Subscribers where
  slots : List (Option Subscriber) := []
  /-- The vacant slots, the latest one first. -/
  vacant : List Nat := []
  /-- The slot of each member. -/
  index : List (SubscriberId × Nat) := []
  lastId : SubscriberId := 0
  /-- The members that were evicted, the latest one first. -/
  evicted : List SubscriberId := []
  deriving DecidableEq, Repr

namespace Subscribers

/-- The members in the order of their slots. -/
def members (s : Subscribers) : List Subscriber := s.slots.filterMap id

/-- The number of members. -/
def size (s : Subscribers) : Nat := s.members.length

/-- Whether an identifier names a member. -/
def contains (s : Subscribers) (i : SubscriberId) : Bool := (s.index.lookup i).isSome

/-- Adds a member for a mailbox and gives its identifier. -/
def attach (s : Subscribers) (address : Address) : Subscribers × SubscriberId :=
  let i := s.lastId + 1
  let member := some ⟨i, address⟩
  match s.vacant with
  | k :: rest =>
    ({ s with
        slots := s.slots.set k member, vacant := rest, index := (i, k) :: s.index, lastId := i }, i)
  | [] =>
    ({ s with
        slots := s.slots ++ [member], index := (i, s.slots.length) :: s.index, lastId := i }, i)

/-- Removes a member, and says whether there was one of this name. -/
def detach (s : Subscribers) (i : SubscriberId) : Subscribers × Bool :=
  match s.index.lookup i with
  | some k =>
    ({ s with
        slots := s.slots.set k none
        vacant := k :: s.vacant
        index := s.index.filter fun e => e.1 ≠ i }, true)
  | none => (s, false)

/-- Removes a member that has fallen behind. -/
def evict (s : Subscribers) (i : SubscriberId) : Subscribers :=
  let gone := (s.detach i).1
  { gone with evicted := i :: gone.evicted }

/-- How many members a message was queued for, and how many were evicted instead. -/
structure Outcome where
  delivered : Nat
  evicted : Nat
  deriving DecidableEq, Repr

/-- Queues a message for each of the members given, and lists those who could not take it. -/
def post (room : Mailroom) (m : Message) : List Subscriber → Mailroom × List SubscriberId
  | [] => (room, [])
  | member :: rest =>
    match room.send? member.address m with
    | some next => post next m rest
    | none =>
      let (last, behind) := post room m rest
      (last, member.id :: behind)

/-- Queues a message for every member and evicts those who cannot take it. -/
def broadcast (s : Subscribers) (room : Mailroom) (m : Message) :
    Subscribers × Mailroom × Outcome :=
  let (next, behind) := post room m s.members
  (behind.foldl evict s, next, ⟨s.size - behind.length, behind.length⟩)

end Subscribers
end TermLink
