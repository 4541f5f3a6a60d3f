import TermLink.Proofs.Gate.Duty

/-!
# The ways from a client to its backend

What a client types and the sizes that its window takes go different ways to the backend, each
with a duty of its own, and share the queue before the writer. On either way the things that were
handed over are a beginning of those that were accepted.

## Implementation notes

A duty may lose what it has taken up only in the step in which it ends, and it then tells the
others to end.
-/

namespace TermLink

namespace Message

/-- The chunk that a message carries. -/
def chunk? : Message → Option Bytes
  | .data chunk => some chunk
  | _ => none

/-- The size that a message tells of a window. -/
def window? : Message → Option Geometry
  | .resize size => some size
  | _ => none

end Message

namespace Gate

open Streaming (Event)

/-- A way from a client to its backend. -/
structure Lane (α : Type) where
  /-- The duty that passes things on. -/
  duty : Duty
  /-- What waits for the duty. -/
  waiting : ClientLine → List α
  /-- Whether the client may still add to it. -/
  isOpen : ClientLine → Bool
  /-- What the client adds in an event. -/
  added? : Event → Option α
  /-- Whether the client ends it in an event. -/
  closes : Event → Bool
  /-- What a message carries of it. -/
  carried? : Message → Option α

namespace Lane

/-- The way of what is typed. -/
def input : Lane Bytes where
  duty := .input
  waiting := ClientLine.typed
  isOpen := ClientLine.typing
  added?
    | .input chunk => some chunk
    | _ => none
  closes e := e = .endInput || e = .leave
  carried? := Message.chunk?

/-- The way of the window's sizes. -/
def windows : Lane Geometry where
  duty := .windows
  waiting := ClientLine.windows
  isOpen := ClientLine.connected
  added?
    | .resize size => some size
    | _ => none
  closes e := e = .leave
  carried? := Message.window?

variable {α : Type} (L : Lane α) {s next : Streaming} {e : Event}

/-- What messages carry. -/
def carried (ms : List Message) : List α := ms.filterMap L.carried?

/-- What was handed to the writer, and what waits for that. -/
def stock (s : Streaming) : List α := L.carried s.handed ++ L.waiting s.line

/-- Whether something that is added now is accepted. -/
def accepts (s : Streaming) : Bool := L.isOpen s.line && s.runs L.duty

/-- What is accepted in an event. -/
def taken (s : Streaming) (e : Event) : List α := if L.accepts s then (L.added? e).toList else []

/-- What is accepted in the course of events, where `after` is what becomes of a session in an
event. -/
def accepted (after : Streaming → Event → Streaming) : Streaming → List Event → List α
  | _, [] => []
  | s, e :: rest => L.taken s e ++ accepted after (after s e) rest

/-- What the client adds in events before it ends the way. -/
def added (events : List Event) : List α :=
  (events.takeWhile fun e => !L.closes e).filterMap L.added?

/-- What happens on a way in one event in which `new` is accepted. -/
inductive Move (s next : Streaming) : (new : List α) → Prop
  | calm (hcarried : L.carried next.handed = L.carried s.handed)
    (hwaiting : L.waiting next.line = L.waiting s.line) : Move s next []
  | take (a : α) (haccepts : L.accepts s) (hcarried : L.carried next.handed = L.carried s.handed)
    (hwaiting : L.waiting next.line = L.waiting s.line ++ [a]) : Move s next [a]
  | pass (a : α) (hruns : s.runs L.duty)
    (hcarried : L.carried next.handed = L.carried s.handed ++ [a])
    (hwaiting : L.waiting s.line = a :: L.waiting next.line) : Move s next []
  | lose (a : α) (hwriter : s.runs .writer = false)
    (hcarried : L.carried next.handed = L.carried s.handed)
    (hwaiting : L.waiting s.line = a :: L.waiting next.line) (hruns : next.runs L.duty = false)
    (htold : next.ending) : Move s next []

/-- A way on which every event does what it may, and which stays open until the client ends it. -/
structure Lawful : Prop where
  move {s next : Streaming} {e : Event} (c : s.Change e next) : L.Move s next (L.taken s e)
  isOpen {s next : Streaming} {e : Event} (c : s.Change e next) :
    L.isOpen next.line = (L.isOpen s.line && !L.closes e)
  accepts {s : Streaming} (H : s.Manned) (h : s.ending = false) : L.accepts s = L.isOpen s.line
  apart {e : Event} (h : L.closes e) : L.added? e = none
  own {e : Event} (h : e.isOwn) : L.closes e = false ∧ L.added? e = none
  ready {s : Streaming} (R : s.Ready) (h : L.waiting s.line ≠ []) : s.runs .writer
  idle {s : Streaming} (h : s.waiting = 0) : L.waiting s.line = []

variable {L}

theorem taken_of_none (h : L.added? e = none) : L.taken s e = [] := by
  rw [taken, h]
  exact ite_self _

theorem Move.of_none (h : L.added? e = none) (hcarried : L.carried next.handed = L.carried s.handed)
    (hwaiting : L.waiting next.line = L.waiting s.line) : L.Move s next (L.taken s e) := by
  rw [taken_of_none h]
  exact .calm hcarried hwaiting

theorem Move.of_refused (h : L.accepts s = false) : L.Move s s (L.taken s e) := by
  rw [taken, if_neg (ne_true_of_eq_false h)]
  exact .calm rfl rfl

theorem Move.of_accepted {a : α} (h : L.accepts s) (hadded : L.added? e = some a)
    (hcarried : L.carried next.handed = L.carried s.handed)
    (hwaiting : L.waiting next.line = L.waiting s.line ++ [a]) :
    L.Move s next (L.taken s e) := by
  rw [taken, if_pos h, hadded]
  exact .take a h hcarried hwaiting

/-- Handing over a message adds what it carries. -/
theorem carried_put (s : Streaming) (line : ClientLine) (m : Message) :
    L.carried (Streaming.handed { s with line, outbound := s.outbound ++ [m] }) =
      L.carried s.handed ++ (L.carried? m).toList := by
  simp only [carried, Streaming.handed, List.filterMap_append, List.append_assoc,
    List.filterMap_cons, List.filterMap_nil]
  cases L.carried? m <;> rfl

theorem carried_put_of_none {s : Streaming} {line : ClientLine} {m : Message}
    (h : L.carried? m = none) :
    L.carried (Streaming.handed { s with line, outbound := s.outbound ++ [m] }) =
      L.carried s.handed := by
  rw [carried_put, h]
  exact List.append_nil _

theorem carried_wrote {m : Message} {rest : List Message} (h : s.outbound = m :: rest) :
    L.carried (Streaming.handed { s with outbound := rest, sent := s.sent ++ [m] }) =
      L.carried s.handed := by
  simp [Streaming.handed, h]

theorem move_input (c : s.Change e next) : input.Move s next (input.taken s e) := by
  cases c with
  | nothing h =>
    cases e with
    | input chunk => exact .of_refused h
    | _ => exact .of_none rfl rfl rfl
  | typed h => exact .of_accepted h rfl rfl rfl
  | @inputPassed chunk rest hinput _ htyped =>
    rw [taken_of_none rfl]
    exact .pass chunk hinput (carried_put s _ _) htyped
  | @inputLost chunk rest hwriter htyped =>
    rw [taken_of_none rfl]
    exact .lose chunk hwriter rfl htyped (by simp [input]) rfl
  | windowPassed | pinged => exact .of_none rfl (carried_put_of_none rfl) rfl
  | wrote _ houtbound => exact .of_none rfl (carried_wrote houtbound) rfl
  | _ => exact .of_none rfl rfl rfl

theorem move_windows (c : s.Change e next) : windows.Move s next (windows.taken s e) := by
  cases c with
  | nothing h =>
    cases e with
    | resize size => exact .of_refused h
    | _ => exact .of_none rfl rfl rfl
  | sized h => exact .of_accepted h rfl rfl rfl
  | @windowPassed size rest hwindows _ hsizes =>
    rw [taken_of_none rfl]
    exact .pass size hwindows (carried_put s _ _) hsizes
  | @windowLost size rest hwriter hsizes =>
    rw [taken_of_none rfl]
    exact .lose size hwriter rfl hsizes (by simp [windows]) rfl
  | inputPassed | pinged => exact .of_none rfl (carried_put_of_none rfl) rfl
  | wrote _ houtbound => exact .of_none rfl (carried_wrote houtbound) rfl
  | _ => exact .of_none rfl rfl rfl

theorem lawful_input : input.Lawful where
  move := move_input
  isOpen {s next e} c := by
    cases c with
    | nothing h =>
      cases e with
      | endInput | leave => cases h
      | _ => simp [input]
    | inputEnded | left => simp [input, Streaming.endInput, Streaming.leave]
    | _ => simp [input, Streaming.stop, Streaming.retire]
  accepts {s} H h := by
    rcases H.input h with runs | ⟨-, done⟩
    · exact (congrArg _ runs).trans (Bool.and_true _)
    · simp [accepts, input, done]
  apart {e} h := by cases e <;> simp_all [input]
  own {e} h := by cases e <;> simp_all [input, Event.isOwn]
  ready R h := (R.typed h).2
  idle h := (Streaming.waiting_eq_zero_iff.mp h).1

theorem lawful_windows : windows.Lawful where
  move := move_windows
  isOpen {s next e} c := by
    cases c with
    | nothing h =>
      cases e with
      | endInput | leave => cases h
      | _ => simp [windows]
    | inputEnded | left => simp [windows, Streaming.endInput, Streaming.leave]
    | _ => simp [windows, Streaming.stop, Streaming.retire]
  accepts {s} H h := (congrArg _ (H.windows h)).trans (Bool.and_true _)
  apart {e} h := by cases e <;> simp_all [windows]
  own {e} h := by cases e <;> simp_all [windows, Event.isOwn]
  ready R h := (R.windows h).2
  idle h := (Streaming.waiting_eq_zero_iff.mp h).2.1

variable (L) in
/-- Where `all` is what was accepted on a way: what was handed over is a beginning of it, and the
rest waits as long as the duty runs or none has told the others to end. -/
structure Keeps (s : Streaming) (all : List α) : Prop where
  handed : L.carried s.handed <+: all
  whole : s.runs L.duty ∨ s.ending = false → L.stock s = all

theorem Keeps.change {all : List α} (law : L.Lawful) (H : L.Keeps s all) (c : s.Change e next) :
    L.Keeps next (all ++ L.taken s e) := by
  have before : next.runs L.duty ∨ next.ending = false → s.runs L.duty ∨ s.ending = false := by
    refine Or.imp (c.runs L.duty) fun h => ?_
    rw [Bool.eq_false_iff]
    intro told
    exact absurd (c.told told) (ne_true_of_eq_false h)
  have move := law.move c
  generalize L.taken s e = new at move
  cases move with
  | calm hcarried hwaiting =>
    rw [List.append_nil]
    refine ⟨hcarried ▸ H.handed, fun h => ?_⟩
    rw [← H.whole (before h), stock, stock, hcarried, hwaiting]
  | take a haccepts hcarried hwaiting =>
    have runs : s.runs L.duty := by
      rw [accepts, Bool.and_eq_true] at haccepts
      exact haccepts.2
    refine ⟨hcarried ▸ H.handed.trans (List.prefix_append _ _), fun _ => ?_⟩
    rw [← H.whole (.inl runs), stock, stock, hcarried, hwaiting, List.append_assoc]
  | pass a hruns hcarried hwaiting =>
    have whole : L.stock next = all := by
      rw [← H.whole (.inl hruns), stock, stock, hcarried, hwaiting, List.append_assoc,
        List.singleton_append]
    rw [List.append_nil]
    exact ⟨⟨_, whole⟩, fun _ => whole⟩
  | lose a _ hcarried _ hruns htold =>
    rw [List.append_nil]
    refine ⟨hcarried ▸ H.handed, ?_⟩
    rintro (h | h)
    · exact absurd h (ne_true_of_eq_false hruns)
    · exact absurd htold (ne_true_of_eq_false h)

/-- Over a run, what was handed over on a way is a beginning of what was accepted. -/
theorem Keeps.run {all : List α} (law : L.Lawful) (H : L.Keeps s all) (events : List Event) :
    L.Keeps (s.run events) (all ++ L.accepted Streaming.step s events) := by
  induction events generalizing s all with
  | nil => exact (List.append_nil all).symm ▸ H
  | cons e rest ih =>
    rw [accepted, ← List.append_assoc]
    exact ih (H.change law (s.change_step e))

variable (L) in
/-- A way of following a session through events that takes up no duty again, and on which only the
client opens or ends the way. -/
structure Follows (after : Streaming → Event → Streaming) : Prop where
  manned {s : Streaming} (e : Event) (h : s.Manned) : (after s e).Manned
  told {s : Streaming} (e : Event) (h : s.ending) : (after s e).ending
  runs {s : Streaming} (e : Event) (h : (after s e).runs L.duty) : s.runs L.duty
  isOpen (s : Streaming) (e : Event) :
    L.isOpen (after s e).line = (L.isOpen s.line && !L.closes e)

theorem Lawful.follows_step (law : L.Lawful) : L.Follows Streaming.step where
  manned {s} e h := h.change (s.change_step e)
  told {s} e h := (s.change_step e).told h
  runs {s} e h := (s.change_step e).runs L.duty h
  isOpen s e := law.isOpen (s.change_step e)

variable {after : Streaming → Event → Streaming}

theorem Follows.unended (F : L.Follows after) (h : (after s e).ending = false) :
    s.ending = false := by
  rw [Bool.eq_false_iff]
  intro told
  exact absurd (F.told e told) (ne_true_of_eq_false h)

theorem Follows.unended_foldl (F : L.Follows after) {events : List Event}
    (h : (events.foldl after s).ending = false) : s.ending = false := by
  induction events generalizing s with
  | nil => exact h
  | cons e rest ih => exact F.unended (ih h)

/-- A way is open as long as the client has not ended it. -/
theorem Follows.isOpen_foldl (F : L.Follows after) (s : Streaming) (events : List Event) :
    L.isOpen (events.foldl after s).line = (L.isOpen s.line && !events.any L.closes) := by
  induction events generalizing s with
  | nil => exact (Bool.and_true _).symm
  | cons e rest ih => rw [List.foldl_cons, ih, F.isOpen, List.any_cons, Bool.not_or, Bool.and_assoc]

theorem Follows.accepts (F : L.Follows after) (h : L.accepts (after s e)) :
    L.accepts s ∧ L.closes e = false := by
  rw [Lane.accepts, F.isOpen, Bool.and_eq_true, Bool.and_eq_true, Bool.not_eq_true'] at h
  rw [Lane.accepts, Bool.and_eq_true]
  exact ⟨⟨h.1.1, F.runs e h.2⟩, h.1.2⟩

theorem added_cons (e : Event) (rest : List Event) :
    L.added (e :: rest) = if L.closes e then [] else (L.added? e).toList ++ L.added rest := by
  rw [added, List.takeWhile_cons]
  cases L.closes e with
  | true => rfl
  | false => cases hadded : L.added? e <;> simp [hadded, added]

/-- A way that is closed stays closed. -/
theorem Follows.accepted_eq_nil (F : L.Follows after) (h : L.accepts s = false)
    (events : List Event) : L.accepted after s events = [] := by
  induction events generalizing s with
  | nil => rfl
  | cons e rest ih =>
    have closed : L.accepts (after s e) = false := by
      rw [Bool.eq_false_iff]
      intro still
      exact absurd (F.accepts still).1 (ne_true_of_eq_false h)
    rw [accepted, ih closed, taken, if_neg (ne_true_of_eq_false h)]
    rfl

/-- What is accepted on a way is a beginning of what the client adds before it ends the way. -/
theorem Follows.accepted_prefix (F : L.Follows after) (law : L.Lawful) (s : Streaming)
    (events : List Event) : L.accepted after s events <+: L.added events := by
  induction events generalizing s with
  | nil => exact List.prefix_refl _
  | cons e rest ih =>
    cases h : L.accepts s with
    | false =>
      rw [F.accepted_eq_nil h]
      exact List.nil_prefix
    | true =>
      rw [accepted, added_cons, taken, if_pos h]
      cases hclose : L.closes e with
      | false => exact (List.prefix_append_right_inj _).mpr (ih _)
      | true =>
        have closed : L.accepts (after s e) = false := by
          rw [Bool.eq_false_iff]
          intro still
          exact absurd hclose (ne_true_of_eq_false (F.accepts still).2)
        rw [F.accepted_eq_nil closed, law.apart hclose]
        exact List.prefix_refl _

/-- As long as no duty has told the others to end, all that the client adds before it ends the way
is accepted. -/
theorem Follows.accepted_eq (F : L.Follows after) (law : L.Lawful) (H : s.Manned)
    (events : List Event) (h : (events.foldl after s).ending = false) :
    L.accepted after s events = if L.isOpen s.line then L.added events else [] := by
  induction events generalizing s with
  | nil => exact (ite_self _).symm
  | cons e rest ih =>
    have accepts := law.accepts H (F.unended_foldl h)
    rw [accepted, ih (H := F.manned e H) h, F.isOpen, added_cons, taken, accepts]
    cases L.isOpen s.line with
    | false => rfl
    | true =>
      cases hclose : L.closes e with
      | false => rfl
      | true => rw [law.apart hclose]; rfl

end Lane

end Gate

end TermLink
