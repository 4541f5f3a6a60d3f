import TermLink.Host.Station
import TermLink.Proofs.Host.Stream

/-!
# What leaves a terminal's output alone

What a fetch reads is the backlog of a terminal and how its process ended. Nothing that a request or
a stream does changes these, a fetch apart, nor whether input is taken; the most it does is to start
the terminal.
-/

namespace TermLink

/-- What a fetch reads of a terminal, and whether its process takes input. -/
structure Terminal.Output where
  backlog : Backlog
  exitCode : Option Int32
  running : Bool
  /-- Whether the operations on the pseudo-terminal fail. -/
  failing : Bool
  deriving DecidableEq, Repr

namespace Terminal

/-- The output of a terminal that was just started. -/
def Output.new (c : Nat) : Output := ⟨.ofCeiling c, none, true, false⟩

/-- The output of a terminal. -/
def output (t : Terminal) : Output :=
  ⟨t.backlog, t.exitCode, t.running, t.pty.fault.isSome⟩

theorem IsNew.output {t : Terminal} {c : Nat} (h : t.IsNew c) : t.output = .new c := by
  rw [Terminal.output, h.backlog, h.exitCode, h.running, h.fault, Output.new]
  rfl

/-- Input does not touch the output, whether it is accepted or not. -/
theorem output_accept (t : Terminal) (m : Message) : (t.accept m).1.output = t.output := by
  rw [output, t.fault_accept, t.accept_eq]
  rfl

theorem output_resize (t : Terminal) (g : Geometry) : (t.resize g).1.output = t.output := by
  rw [output, t.fault_resize, t.resize_eq]
  rfl

end Terminal

namespace Host

/-- The output of the terminal, if it has been started. -/
def output? (h : Host) : Option Terminal.Output := h.terminal.map Terminal.output

/-- A change that leaves the output as it is, where at most the terminal is started. -/
structure Spares (h next : Host) : Prop where
  ceiling : next.backlogCeiling = h.backlogCeiling
  output : next.output? = h.output?
    ∨ h.output? = none ∧ next.output? = some (.new h.backlogCeiling)

theorem Spares.of_terminal {h next : Host} (hceiling : next.backlogCeiling = h.backlogCeiling)
    (hterminal : next.terminal = h.terminal) : h.Spares next :=
  ⟨hceiling, .inl (by rw [output?, hterminal, output?])⟩

theorem Spares.refl (h : Host) : h.Spares h := ⟨rfl, .inl rfl⟩

theorem Spares.trans {a b c : Host} (hab : a.Spares b) (hbc : b.Spares c) : a.Spares c := by
  refine ⟨hbc.ceiling.trans hab.ceiling, ?_⟩
  rcases hab.output with same | ⟨none, new⟩
  · rcases hbc.output with again | ⟨none, new⟩
    · exact .inl (again.trans same)
    · exact .inr ⟨same ▸ none, hab.ceiling ▸ new⟩
  · rcases hbc.output with again | ⟨nothing, -⟩
    · exact .inr ⟨none, again.trans new⟩
    · rw [new] at nothing
      cases nothing

/-- Where there is a terminal, nothing has changed. -/
theorem Spares.output_eq {h next : Host} (hs : h.Spares next) {o : Terminal.Output}
    (ho : h.output? = some o) : next.output? = some o := by
  rcases hs.output with same | ⟨none, -⟩
  · exact same.trans ho
  · rw [ho] at none
    cases none

variable (h : Host)

theorem spares_write (m : Message) : h.Spares (h.write m).1 := by
  cases ht : h.terminal with
  | none =>
    rw [write_of_none ht]
    exact .refl h
  | some t =>
    rw [write_of_some ht]
    refine ⟨rfl, .inl ?_⟩
    simp [output?, ht, t.output_accept]

theorem spares_resize (g : Geometry) : h.Spares (h.resize g).1 := by
  cases ht : h.terminal with
  | none =>
    simp only [resize, require, ht]
    exact .refl h
  | some t =>
    rw [resize_of_some ht]
    refine ⟨rfl, .inl ?_⟩
    simp [output?, ht, t.output_resize]

theorem spares_establish (env : Environment) (g : Geometry) (repo : Option String) :
    h.Spares (h.establish env g repo).1 := by
  obtain ⟨t, s, ht, -, heq⟩ | ⟨workspace, e, heq⟩ | ⟨ht, workspace, t, s, hnew, heq⟩ :=
    h.establish_cases env g repo
  · rw [heq]
    refine ⟨rfl, .inl ?_⟩
    rw [output?, output?, ht]
    rfl
  · rw [heq]
    exact .of_terminal rfl rfl
  · rw [heq]
    refine ⟨rfl, .inr ⟨by rw [output?, ht, Option.map_none], ?_⟩⟩
    rw [output?, Option.map_some, hnew.output]

theorem spares_attach? {address : Address} {next : Host} {i : SubscriberId}
    (hn : h.attach? address = some (next, i)) : h.Spares next := by
  cases ht : h.terminal with
  | none => simp [attach?, ht] at hn
  | some t =>
    simp only [attach?, ht, bind, Option.bind, Option.some.injEq, Prod.mk.injEq] at hn
    obtain ⟨rfl, -⟩ := hn
    refine ⟨rfl, .inl ?_⟩
    rw [output?, output?, ht]
    rfl

theorem spares_detach (i : SubscriberId) : h.Spares (h.detach i) := by
  refine ⟨rfl, .inl ?_⟩
  rw [output?, output?, detach, Option.map_map]
  rfl

end Host

namespace Host.Stream

variable (s : Stream) (h : Host)

theorem spares_attach : h.Spares (s.attach h).1 := by
  simp only [attach]
  split
  · exact .refl h
  · split
    · next hn => exact h.spares_attach? hn
    · exact .refl h

theorem spares_opened : h.Spares (opened h).1 := by
  have created : h.Spares { h with room := (h.room.create h.queueDepth).1 } := .of_terminal rfl rfl
  exact created.trans (spares_attach _ _)

theorem spares_reply (m : Message) : h.Spares (s.reply h m) := .of_terminal rfl rfl

theorem spares_endReading : h.Spares (s.endReading h).1 := by
  simp only [endReading]
  split
  · exact h.spares_detach _
  · exact .refl h

theorem spares_establish (env : Environment) (g : Geometry) (repo : Option String) :
    h.Spares (s.establish h env g repo).1 := by
  have established := h.spares_establish env g repo
  simp only [establish]
  split
  · next host started hstart =>
    rw [hstart] at established
    split
    · exact (established.trans (s.spares_reply _ _)).trans (s.spares_attach _)
    · exact established.trans (s.spares_attach _)
  · next host e hstart =>
    rw [hstart] at established
    exact established.trans (s.spares_reply _ _)

theorem spares_input (m : Message) : h.Spares (s.input h m).1 := by
  have written := (s.spares_attach h).trans ((s.attach h).1.spares_write m)
  simp only [input]
  split
  · next host hwrite =>
    rw [hwrite] at written
    exact written
  · next host e hwrite =>
    rw [hwrite] at written
    exact written.trans (spares_reply _ _ _)

theorem spares_receive (env : Environment) (frame : Bytes) :
    h.Spares (s.receive h env frame).1 := by
  simp only [receive]
  split
  · split
    · next m _ =>
      cases m with
      | init size repo => exact s.spares_establish h env size repo
      | data payload => exact s.spares_input h _
      | resize size => exact s.spares_input h _
      | ping timestamp => exact s.spares_reply h _
      | exit code => exact s.spares_endReading h
      | pong | error | status => exact .refl h
    · exact .of_terminal rfl rfl
  · exact .refl h

theorem spares_hangUp : h.Spares (s.hangUp h).1 := by
  simp only [hangUp]
  split
  · exact s.spares_endReading h
  · exact .refl h

theorem spares_notice : h.Spares (s.notice h).1 := by
  simp only [notice]
  split
  · exact s.spares_endReading h
  · exact .refl h

theorem spares_sendNext : h.Spares (s.sendNext h).1 := by
  refine .of_terminal ?_ (kept_sendNext s h).terminal
  simp only [sendNext]
  split
  · split
    · split <;> rfl
    · rfl
  · rfl

theorem spares_stopWriting : h.Spares (s.stopWriting h).1 := by
  refine .of_terminal ?_ (kept_stopWriting s h).terminal
  simp only [stopWriting]
  split <;> rfl

end Host.Stream

namespace Host.Station

theorem spares_onStream (st : Station) (k : Nat) {f : Stream → Host → Host × Stream}
    (hf : ∀ (s : Stream) (h : Host), h.Spares (f s h).1) :
    st.host.Spares (st.onStream k f).host := by
  simp only [onStream]
  split
  · exact hf _ _
  · exact .refl _

end Host.Station
end TermLink
