import TermLink.Backlog
import TermLink.Proofs.Sequence
import Mathlib.Algebra.GroupWithZero.Nat

/-!
# The account of a backlog

Every byte that is added to a backlog is given out, lost or still held, and nothing of that depends
on the pieces in which it was added: to add two chunks is to add both at once.

## Implementation notes

`Backlog.log` has every reply together with the backlog after it, so it shows all that can be seen
of a backlog. The counts are natural numbers. By the account none of them is larger than the number
of bytes that were added, so a count of 64 bits would show the same up to `2 ^ 64` bytes.
-/

namespace TermLink.Backlog

section Push

variable (b : Backlog) (chunk : Bytes)

/-- The bytes that are lost when output is added. -/
def overflow : Bytes := (b.bytes ++ chunk).take (b.push chunk).2

theorem overflow_append : b.overflow chunk ++ (b.push chunk).1.bytes = b.bytes ++ chunk :=
  List.take_append_drop _ _

theorem length_overflow : (b.overflow chunk).length = (b.push chunk).2 := by
  have within : (b.push chunk).2 ≤ (b.bytes ++ chunk).length := Nat.sub_le _ _
  rw [overflow, List.length_take, Nat.min_eq_left within]

theorem dropped_push :
    (b.push chunk).1.dropped = b.dropped + (b.overflow chunk).length := by
  rw [length_overflow]
  rfl

/-- The most recent bytes are kept. -/
theorem bytes_push : (b.push chunk).1.bytes = (b.bytes ++ chunk).rtake b.ceiling := rfl

theorem lost_push : (b.push chunk).2 = b.size + chunk.length - b.ceiling := by
  rw [push, size, List.length_append]

theorem size_push : (b.push chunk).1.size = min (b.size + chunk.length) b.ceiling := by
  rw [size, bytes_push, List.rtake, List.length_drop, List.length_append, size]
  omega

/-- To add two chunks is to add both at once, and as many bytes are lost. -/
theorem push_push (more : Bytes) :
    ((b.push chunk).1.push more).1 = (b.push (chunk ++ more)).1
      ∧ (b.push chunk).2 + ((b.push chunk).1.push more).2 = (b.push (chunk ++ more)).2 := by
  have ceiling : (b.push chunk).1.ceiling = b.ceiling := rfl
  have lost : (b.push chunk).2 + ((b.push chunk).1.push more).2 = (b.push (chunk ++ more)).2 := by
    simp only [lost_push, size_push, ceiling, List.length_append]
    omega
  have bytes : ((b.push chunk).1.push more).1.bytes = (b.push (chunk ++ more)).1.bytes := by
    rw [bytes_push, bytes_push, bytes_push, ceiling, rtake_append, List.append_assoc]
  have dropped : ((b.push chunk).1.push more).1.dropped = (b.push (chunk ++ more)).1.dropped := by
    simp only [dropped_push, length_overflow]
    omega
  exact ⟨Backlog.mk.injEq .. ▸ ⟨ceiling, bytes, dropped⟩, lost⟩

/-- Nothing is lost of what fits. -/
theorem push_of_fits (h : b.size + chunk.length ≤ b.ceiling) :
    b.push chunk = ({ b with bytes := b.bytes ++ chunk }, 0) := by
  have none : (b.bytes ++ chunk).length - b.ceiling = 0 := by
    rw [List.length_append]
    exact Nat.sub_eq_zero_of_le h
  simp only [push, none, List.drop_zero, Nat.add_zero]

end Push

/-- What can be done with a backlog. -/
inductive Event where
  | push (chunk : Bytes)
  | drain
  deriving DecidableEq, Repr

/-- What a backlog replies: how many bytes were lost, or the bytes that it gives out. -/
inductive Reply where
  | lost (count : Nat)
  | given (bytes : Bytes)
  deriving DecidableEq, Repr

/-- The output that an event adds. -/
def Event.chunk : Event → Bytes
  | .push chunk => chunk
  | .drain => []

/-- The bytes that were lost. -/
def Reply.count : Reply → Nat
  | .lost n => n
  | .given _ => 0

/-- The bytes that were given out. -/
def Reply.bytes : Reply → Bytes
  | .lost _ => []
  | .given bs => bs

/-- The backlog after an event, and its reply. -/
def step (b : Backlog) : Event → Backlog × Reply
  | .push chunk => ((b.push chunk).1, .lost (b.push chunk).2)
  | .drain => (b.drain.1, .given b.drain.2)

/-- The backlog after events in order. -/
def run (b : Backlog) (events : List Event) : Backlog :=
  events.foldl (fun b e => (b.step e).1) b

/-- All that is seen of a backlog: every reply in order, with the backlog after it. -/
def log : Backlog → List Event → List (Reply × Backlog)
  | _, [] => []
  | b, e :: events => ((b.step e).2, (b.step e).1) :: log (b.step e).1 events

/-- The number of bytes that were lost in all that is seen. -/
def lost (seen : List (Reply × Backlog)) : Nat := (seen.map fun e => e.1.count).sum

variable {b : Backlog}

theorem ceiling_step (b : Backlog) (e : Event) : (b.step e).1.ceiling = b.ceiling := by
  cases e <;> rfl

/-- After an event, a backlog holds no more than its ceiling. -/
theorem size_step_le (b : Backlog) (e : Event) : (b.step e).1.size ≤ b.ceiling := by
  cases e with
  | push chunk => exact (b.size_push chunk).trans_le (Nat.min_le_right _ _)
  | drain => exact Nat.zero_le _

/-- An event gives out, loses or keeps what was held and what it adds, and counts what is lost. -/
theorem account_step (b : Backlog) (e : Event) :
    b.size + e.chunk.length = (b.step e).2.bytes.length + (b.step e).2.count + (b.step e).1.size
      ∧ (b.step e).1.dropped = b.dropped + (b.step e).2.count := by
  cases e with
  | push chunk =>
    refine ⟨?_, rfl⟩
    simp only [step, Event.chunk, Reply.bytes, Reply.count, size_push, lost_push, List.length_nil]
    omega
  | drain => exact ⟨rfl, rfl⟩

theorem run_append (b : Backlog) (before after : List Event) :
    b.run (before ++ after) = (b.run before).run after :=
  List.foldl_append

theorem log_append (b : Backlog) (before after : List Event) :
    b.log (before ++ after) = b.log before ++ (b.run before).log after := by
  induction before generalizing b with
  | nil => rfl
  | cons e before ih => exact congrArg (_ :: ·) (ih _)

theorem ceiling_run (b : Backlog) (events : List Event) :
    (b.run events).ceiling = b.ceiling := by
  induction events generalizing b with
  | nil => rfl
  | cons e events ih => exact (ih _).trans (b.ceiling_step e)

theorem size_run_le (h : b.size ≤ b.ceiling) (events : List Event) :
    (b.run events).size ≤ b.ceiling := by
  induction events generalizing b with
  | nil => exact h
  | cons e events ih =>
    rw [← b.ceiling_step e]
    exact ih ((b.size_step_le e).trans_eq (b.ceiling_step e).symm)

theorem size_le_of_mem_log {events : List Event} {seen : Reply × Backlog}
    (h : seen ∈ b.log events) : seen.2.size ≤ b.ceiling := by
  induction events generalizing b with
  | nil => cases h
  | cons e events ih =>
    rcases List.mem_cons.mp h with rfl | h
    · exact b.size_step_le e
    · exact (ih h).trans_eq (b.ceiling_step e)

/-- Over events in order, all that was held and added was given out, is lost or is held, and all
that was lost is counted. -/
theorem account_run (b : Backlog) (events : List Event) :
    b.size + (events.flatMap Event.chunk).length =
        ((b.log events).flatMap fun e => e.1.bytes).length + lost (b.log events)
          + (b.run events).size
      ∧ (b.run events).dropped = b.dropped + lost (b.log events) := by
  induction events generalizing b with
  | nil => exact ⟨by simp [log, run, lost], rfl⟩
  | cons e events ih =>
    obtain ⟨now, counted⟩ := b.account_step e
    obtain ⟨later, total⟩ := ih (b.step e).1
    have next : b.run (e :: events) = (b.step e).1.run events := rfl
    have sum : lost (b.log (e :: events)) =
        (b.step e).2.count + lost ((b.step e).1.log events) := rfl
    rw [next, sum]
    simp only [log, List.flatMap_cons, List.length_append]
    constructor <;> omega

/-- A chunk that is added in pieces leaves a backlog as the whole chunk does, and as much is lost
for it. -/
theorem run_pieces (h : b.size ≤ b.ceiling) (pieces : List Bytes) :
    b.run (pieces.map .push) = (b.push pieces.flatten).1
      ∧ lost (b.log (pieces.map .push)) = (b.push pieces.flatten).2 := by
  induction pieces generalizing b with
  | nil =>
    have nothing := b.push_of_fits [] h
    rw [List.append_nil] at nothing
    rw [List.flatten_nil, nothing]
    exact ⟨rfl, rfl⟩
  | cons piece pieces ih =>
    obtain ⟨rest, sum⟩ := ih (b.size_step_le (.push piece))
    obtain ⟨both, total⟩ := b.push_push piece pieces.flatten
    constructor
    · calc
        b.run ((piece :: pieces).map .push) = (b.push piece).1.run (pieces.map .push) := rfl
        _ = ((b.push piece).1.push pieces.flatten).1 := rest
        _ = (b.push (piece :: pieces).flatten).1 := both
    · calc
        lost (b.log ((piece :: pieces).map .push)) =
            (b.push piece).2 + lost ((b.push piece).1.log (pieces.map .push)) := rfl
        _ = (b.push piece).2 + ((b.push piece).1.push pieces.flatten).2 :=
          congrArg ((b.push piece).2 + ·) sum
        _ = (b.push (piece :: pieces).flatten).2 := total

/-- In every run of a backlog, with any ceiling: it never holds more than the ceiling, where zero
counts as one; what was added is as much as was given out, lost and is held; what was lost is what
the replies say, and nothing resets that count. Of what is held and a chunk that is added, the most
recent bytes are kept, as many as fit. A chunk may be added in any pieces instead: the backlog is
then the same, the replies to the pieces say together what the reply to the chunk says, and all that
is seen later is the same. -/
theorem accounts_for_all (c : Nat) (events : List Event) :
    let start := ofCeiling c
    let b := start.run events
    let seen := start.log events
    (∀ e ∈ seen, e.2.size ≤ max c 1)
      ∧ (events.flatMap Event.chunk).length =
          (seen.flatMap fun e => e.1.bytes).length + b.dropped + b.size
      ∧ b.dropped = lost seen
      ∧ b.drain.1.dropped = b.dropped
      ∧ ∀ (pieces : List Bytes) (later : List Event), ∃ n next during after,
          start.log (events ++ .push pieces.flatten :: later) = seen ++ (.lost n, next) :: after
            ∧ start.log (events ++ (pieces.map .push ++ later)) = seen ++ (during ++ after)
            ∧ start.run (events ++ pieces.map .push) = next
            ∧ next.bytes = (b.bytes ++ pieces.flatten).rtake (max c 1)
            ∧ lost during = n := by
  intro start b seen
  obtain ⟨account, counted⟩ := start.account_run events
  have empty : start.size = 0 := rfl
  have fresh : start.dropped = 0 := rfl
  have dropped : b.dropped = lost seen := by rw [counted, fresh, Nat.zero_add]
  refine ⟨fun e he => size_le_of_mem_log he, ?_, dropped, rfl, ?_⟩
  · rw [empty, Nat.zero_add] at account
    rw [account, dropped]
  · intro pieces later
    have ceiling : b.ceiling = max c 1 := start.ceiling_run events
    have fits : b.size ≤ b.ceiling := (size_run_le (Nat.zero_le _) events).trans_eq ceiling.symm
    obtain ⟨same, sum⟩ := run_pieces fits pieces
    refine ⟨(b.push pieces.flatten).2, (b.push pieces.flatten).1, b.log (pieces.map .push),
      (b.push pieces.flatten).1.log later, ?_, ?_, ?_, ?_, sum⟩
    · rw [log_append]
      rfl
    · rw [log_append, log_append, same]
    · rw [run_append, same]
    · rw [bytes_push, ceiling]

end TermLink.Backlog
