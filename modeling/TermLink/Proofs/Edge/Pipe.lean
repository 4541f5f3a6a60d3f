import TermLink.Proofs.Frame

/-!
# What a pipe passes on

While a pipe is open, the message in a frame of one side is added to what was sent to the other.
-/

namespace TermLink.Edge.Pipe

variable (p : Pipe) (f : Frame)

/-- What a frame of the gate adds to what was sent to the host. -/
theorem toHost_fromGate :
    ∃ more, (p.fromGate f).toHost = p.toHost ++ more
      ∧ Frame.messages more = if p.isOpen then f.message?.toList else [] := by
  cases ho : p.isOpen with
  | false => exact ⟨[], by simp [fromGate, ho], rfl⟩
  | true =>
    cases f with
    | text payload | binary payload =>
      exact ⟨[_], by simp only [fromGate, ho]; rfl, by simp [Frame.messages_singleton]⟩
    | signal => exact ⟨[], by simp [fromGate, ho], rfl⟩
    | close =>
      refine ⟨[.close], ?_, rfl⟩
      simp only [fromGate, ho]
      rfl

theorem toGate_fromGate :
    ∃ more, (p.fromGate f).toGate = p.toGate ++ more ∧ Frame.messages more = [] := by
  simp only [fromGate]
  split
  · split
    · exact ⟨[], by simp [sendHost], rfl⟩
    · exact ⟨[], by simp [sendHost], rfl⟩
    · exact ⟨[], by simp, rfl⟩
    · exact ⟨[.close], rfl, rfl⟩
  · exact ⟨[], by simp, rfl⟩

/-- What a frame of the host adds to what was sent to the gate. -/
theorem toGate_fromHost :
    ∃ more, (p.fromHost f).toGate = p.toGate ++ more
      ∧ Frame.messages more = if p.isOpen then f.message?.toList else [] := by
  cases ho : p.isOpen with
  | false => exact ⟨[], by simp [fromHost, ho], rfl⟩
  | true =>
    cases f with
    | text payload =>
      simp only [fromHost, ho, if_true]
      split
      · refine ⟨[.text payload] ++ [.close], by simp [sendGate, shut], ?_⟩
        rw [Frame.messages_append, Frame.messages_singleton]
        simp
      · exact ⟨[.text payload], rfl, by simp [Frame.messages_singleton]⟩
    | binary payload =>
      exact ⟨[_], by simp only [fromHost, ho]; rfl, by simp [Frame.messages_singleton]⟩
    | signal => exact ⟨[], by simp [fromHost, ho], rfl⟩
    | close =>
      refine ⟨[.close], ?_, rfl⟩
      simp only [fromHost, ho]
      rfl

theorem toHost_fromHost :
    ∃ more, (p.fromHost f).toHost = p.toHost ++ more ∧ Frame.messages more = [] := by
  simp only [fromHost]
  split
  · split
    · split
      · exact ⟨[.close], rfl, rfl⟩
      · exact ⟨[], by simp [sendGate], rfl⟩
    · exact ⟨[], by simp [sendGate], rfl⟩
    · exact ⟨[], by simp, rfl⟩
    · exact ⟨[.close], rfl, rfl⟩
  · exact ⟨[], by simp, rfl⟩

theorem isOpen_of_fromGate (h : (p.fromGate f).isOpen) : p.isOpen := by
  cases ho : p.isOpen with
  | true => rfl
  | false => simp [fromGate, ho] at h

theorem isOpen_of_fromHost (h : (p.fromHost f).isOpen) : p.isOpen := by
  cases ho : p.isOpen with
  | true => rfl
  | false => simp [fromHost, ho] at h

variable {p}

/-- A side that has been sent all that came from the other, up to the end of the pipe, stays so
with what comes next. -/
theorem passed_append {came gone more new : List Message} {isOpen still : Bool}
    (h : ∃ rest, came = gone ++ rest ∧ (isOpen → rest = []))
    (hnew : new = if isOpen then more else []) (hstill : still → isOpen) :
    ∃ rest, came ++ more = gone ++ new ++ rest ∧ (still → rest = []) := by
  obtain ⟨rest, rfl, hopen⟩ := h
  cases isOpen with
  | true =>
    obtain rfl := hopen rfl
    exact ⟨[], by simp [hnew], fun _ => rfl⟩
  | false =>
    refine ⟨rest ++ more, by simp [hnew], ?_⟩
    intro hs
    exact absurd (hstill hs) Bool.false_ne_true

/-- A pipe that is open passes on messages that are no `exit`. -/
theorem foldl_fromHost (ho : p.isOpen = true) {ms : List Message}
    (hms : ∀ code, Message.exit code ∉ ms) :
    (ms.map frameOf).foldl fromHost p = { p with toGate := p.toGate ++ ms.map frameOf } := by
  induction ms generalizing p with
  | nil => simp
  | cons m ms ih =>
    have passed : p.fromHost (frameOf m) = p.sendGate (frameOf m) := by
      simp only [fromHost, ho, if_true, frameOf, saysExit, Message.decode?_encode]
      cases m with
      | exit code => exact absurd (by simp) (hms code)
      | _ => rfl
    have later : ∀ code, Message.exit code ∉ ms := by
      intro code hmem
      exact hms code (List.mem_cons_of_mem _ hmem)
    have rest := ih (p := p.sendGate (frameOf m)) ho later
    rw [List.map_cons, List.foldl_cons, passed, rest]
    simp [sendGate]

/-- An `exit` is the last that is passed on. -/
theorem foldl_fromHost_exit (ho : p.isOpen = true) {ms : List Message}
    (hms : ∀ code, Message.exit code ∉ ms) (code : Int32) :
    ((ms ++ [Message.exit code]).map frameOf ++ [Frame.close]).foldl fromHost p =
      { isOpen := false
        toHost := p.toHost ++ [Frame.close]
        toGate := p.toGate ++ (ms ++ [Message.exit code]).map frameOf ++ [Frame.close] } := by
  simp [foldl_fromHost ho hms, fromHost, ho, frameOf, saysExit, Message.decode?_encode, sendGate,
    shut]

theorem run_of_closed (h : p.isOpen = false) (events : List Event) : p.run events = p := by
  induction events with
  | nil => rfl
  | cons e rest ih =>
    have same : p.step e = p := by cases e <;> simp [step, fromGate, fromHost, h]
    rw [run, List.foldl_cons, same]
    exact ih

/-- Where no host can be reached, the gate is told so, and nothing else ever passes. -/
theorem run_start_unrouted (s : SessionInfo) (answer : HostDial) (events : List Event) :
    (start s (answer.across .unrouted)).run events =
      { isOpen := false
        toGate := [frameOf (.error ("Failed to connect to container: bridge dial failed: "
          ++ "IO error: Network is unreachable (os error 101)")), .close] } :=
  run_of_closed rfl events

end TermLink.Edge.Pipe
