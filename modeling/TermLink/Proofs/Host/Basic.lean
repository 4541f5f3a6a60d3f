import TermLink.Host.Api
import TermLink.Proofs.Terminal

/-!
# What a host does with its terminal

Every way to ask for a terminal, and every input, changes at most the terminal's pseudo-terminal
once there is one.
-/

namespace TermLink

namespace Geometry

variable (requested : Int64) {fallback : Nat}

theorem resolveLength_le (hf : fallback ≤ largest) :
    resolveLength requested fallback ≤ largest := by
  rw [resolveLength]
  split
  · exact hf
  · exact Nat.min_le_right _ _

end Geometry

namespace Terminal

/-- A terminal that was just started, with this ceiling for its backlog. -/
structure IsNew (t : Terminal) (ceiling : Nat) : Prop where
  subscribers : t.subscribers = {}
  exitCode : t.exitCode = none
  running : t.running = true
  input : t.pty.input = []
  fault : t.pty.fault = none
  backlog : t.backlog = .ofCeiling ceiling

variable {t : Terminal} {fault : Pty.Fault}

theorem resize_of_sound (ht : t.pty.fault = none) (g : Geometry) :
    t.resize g = (t.sized g, .ok g.resolve) := by
  simp only [resize, ht]

theorem resize_of_fault (ht : t.pty.fault = some fault) (g : Geometry) :
    t.resize g = (t, .error (.resizeFailed fault.detail)) := by
  simp only [resize, ht]

/-- A size changes the pseudo-terminal at most. -/
theorem resize_eq (t : Terminal) (g : Geometry) :
    (t.resize g).1 = { t with pty := (t.resize g).1.pty } := by
  simp only [resize]
  cases t.pty.fault <;> rfl

theorem fault_resize (t : Terminal) (g : Geometry) : (t.resize g).1.pty.fault = t.pty.fault := by
  simp only [resize]
  cases hf : t.pty.fault with
  | none => exact hf
  | some fault => exact hf

/-- Input changes the pseudo-terminal at most. -/
theorem accept_eq (t : Terminal) (m : Message) :
    (t.accept m).1 = { t with pty := (t.accept m).1.pty } := by
  cases m with
  | data payload =>
    simp only [accept, write]
    split
    · cases t.pty.fault <;> rfl
    · rfl
  | resize g => exact t.resize_eq g
  | _ => rfl

/-- Input does not make operations on the pseudo-terminal fail. -/
theorem fault_accept (t : Terminal) (m : Message) : (t.accept m).1.pty.fault = t.pty.fault := by
  cases m with
  | data payload =>
    simp only [accept, write]
    split
    · cases hf : t.pty.fault with
      | none => exact hf
      | some fault => exact hf
    · rfl
  | resize g => exact t.fault_resize g
  | _ => rfl

end Terminal

namespace Host

/-- How the operations on the terminal's pseudo-terminal fail, if they do. -/
def fault? (h : Host) : Option Pty.Fault := h.terminal.bind fun t => t.pty.fault

theorem fault?_of_some {h : Host} {t : Terminal} (ht : h.terminal = some t) :
    h.fault? = t.pty.fault := by
  rw [fault?, ht, Option.bind_some]

theorem with_terminal {h : Host} {t : Terminal} (ht : h.terminal = some t) :
    { h with terminal := some t } = h := by
  rw [← ht]

/-- Where there is a terminal, a request for one gives it another size. -/
theorem establish_sized {h : Host} {t : Terminal} (ht : h.terminal = some t)
    (hf : t.pty.fault = none) (env : Environment) (g : Geometry) (repo : Option String) :
    ∃ s : Started, s.warning = none ∧
      h.establish env g repo = ({ h with terminal := some (t.sized g) }, .ok s) := by
  refine ⟨⟨true, t.pid, g.resolve, t.workdir, none⟩, rfl, ?_⟩
  simp only [establish, ht, Terminal.resize_of_sound hf, Except.map]

/-- What comes of a request for a terminal. -/
theorem establish_cases (h : Host) (env : Environment) (g : Geometry) (repo : Option String) :
    (∃ t s, h.terminal = some t ∧ s.warning = none ∧
        h.establish env g repo = ({ h with terminal := some (t.sized g) }, .ok s))
      ∨ (∃ workspace e, h.establish env g repo = ({ h with workspace }, .error e))
      ∨ (h.terminal = none ∧ ∃ workspace t s, t.IsNew h.backlogCeiling ∧
        h.establish env g repo = ({ h with workspace, terminal := some t }, .ok s)) := by
  cases ht : h.terminal with
  | some t =>
    cases hfault : t.pty.fault with
    | none =>
      obtain ⟨s, hs, heq⟩ := establish_sized ht hfault env g repo
      exact .inl ⟨t, s, rfl, hs, heq⟩
    | some fault =>
      right; left
      refine ⟨h.workspace, .resizeFailed fault.detail, ?_⟩
      simp only [establish, ht, Terminal.resize_of_fault hfault, Except.map, with_terminal ht]
  | none =>
    right
    simp only [establish, ht, start]
    cases env.spawn ((h.workspace.prepare env.git repo env.update).1.directory
        (h.workspace.prepare env.git repo env.update).2.place) with
    | error detail => exact .inl ⟨_, _, rfl⟩
    | ok pid => exact .inr ⟨trivial, _, _, _, ⟨rfl, rfl, rfl, rfl, rfl, rfl⟩, rfl⟩

/-- The first request for a terminal depends on no mailbox. -/
theorem establish_fresh {h : Host} (hfresh : h.terminal = none) {env : Environment} {g : Geometry}
    {repo : Option String} {started : Started} (hs : (h.establish env g repo).2 = .ok started) :
    ∃ workspace t, t.IsNew h.backlogCeiling ∧ ∀ room,
      { h with room }.establish env g repo =
        ({ h with room, workspace, terminal := some t }, .ok started) := by
  simp only [establish, hfresh, start] at hs ⊢
  split at hs
  · cases hs
  · cases hs
    exact ⟨_, _, ⟨rfl, rfl, rfl, rfl, rfl, rfl⟩, fun _ => rfl⟩

/-- What is printed goes to the terminal and its subscribers. -/
theorem publish_eq {h : Host} {t : Terminal} (ht : h.terminal = some t) (chunk : Bytes) :
    h.publish chunk =
      { h with
        terminal := some (t.publish h.room chunk).1
        room := (t.publish h.room chunk).2 } := by
  simp [publish, onTerminal, ht]

theorem recordExit_eq {h : Host} {t : Terminal} (ht : h.terminal = some t) (code : Int32) :
    h.recordExit code =
      { h with
        terminal := some (t.recordExit h.room code).1
        room := (t.recordExit h.room code).2 } := by
  simp [recordExit, onTerminal, ht]

theorem write_of_none {h : Host} (ht : h.terminal = none) (m : Message) :
    h.write m = (h, .error .notInitialized) := by
  simp [write, require, ht]

theorem write_of_some {h : Host} {t : Terminal} (ht : h.terminal = some t) (m : Message) :
    h.write m = ({ h with terminal := some (t.accept m).1 }, (t.accept m).2) := by
  simp [write, require, ht]

theorem resize_of_some {h : Host} {t : Terminal} (ht : h.terminal = some t) (g : Geometry) :
    h.resize g = ({ h with terminal := some (t.resize g).1 }, (t.resize g).2) := by
  simp [resize, require, ht]

theorem write_data_of_running {h : Host} {t : Terminal} (ht : h.terminal = some t)
    (hr : t.running = true) (hf : t.pty.fault = none) (bytes : Bytes) :
    h.write (.data bytes) = ({ h with terminal := some (t.typed bytes) }, .ok ()) := by
  simp [write_of_some ht, Terminal.accept, Terminal.write, hr, hf]

theorem write_data_of_not_running {h : Host} {t : Terminal} (ht : h.terminal = some t)
    (hr : t.running = false) (bytes : Bytes) :
    h.write (.data bytes) = (h, .error .notRunning) := by
  simp [write_of_some ht, Terminal.accept, Terminal.write, hr, with_terminal ht]

theorem write_resize {h : Host} {t : Terminal} (ht : h.terminal = some t)
    (hf : t.pty.fault = none) (g : Geometry) :
    h.write (.resize g) = ({ h with terminal := some (t.sized g) }, .ok ()) := by
  simp [write_of_some ht, Terminal.accept, Terminal.resize_of_sound hf, Except.map]

theorem respond_fst {α : Type} (content : α → Http.Content)
    (result : Host × Except TerminalError α) : (respond content result).1 = result.1 := by
  obtain ⟨h, a | e⟩ := result <;> rfl

end Host
end TermLink
