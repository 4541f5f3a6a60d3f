import TermLink.Proofs.Deed

/-!
# A terminal whose output is fetched

A terminal that nobody is subscribed to. What is printed stays in the backlog, up to its ceiling,
until it is fetched.
-/

namespace TermLink

/-- What a fetch would give. -/
def Terminal.unread (t : Terminal) : List Message := t.poll.2

theorem Terminal.unread_eq (t : Terminal) :
    t.unread = (if t.backlog.bytes = [] then [] else [.data t.backlog.bytes])
      ++ (t.exitCode.map Message.exit).toList := rfl

namespace Host

/-- A host whose terminal nobody is subscribed to. -/
structure Unheard (h : Host) (t : Terminal) : Prop where
  terminal : h.terminal = some t
  running : t.running = t.exitCode.isNone
  fault : t.pty.fault = none
  subscribers : t.subscribers = {}

variable {h : Host} {t : Terminal}

/-- A message that is broadcast goes to nobody. -/
theorem Unheard.broadcast (H : h.Unheard t) (room : Mailroom) (m : Message) :
    t.broadcast room m = (t, room) := by
  have nobody : t.subscribers.broadcast room m = (t.subscribers, room, ⟨0, 0⟩) := by
    rw [H.subscribers]
    rfl
  simp [Terminal.broadcast, nobody]

/-- What is printed can be fetched, as far as the ceiling allows. -/
theorem Unheard.publish (H : h.Unheard t) (hc : t.exitCode = none) {chunk : Bytes}
    (hroom : t.backlog.bytes.length + chunk.length ≤ t.backlog.ceiling) :
    ∃ u, (h.publish chunk).Unheard u ∧ u.pty = t.pty ∧ u.exitCode = none
      ∧ u.backlog = { t.backlog with bytes := t.backlog.bytes ++ chunk } := by
  have push : (t.backlog.push chunk).1 =
      { t.backlog with bytes := t.backlog.bytes ++ chunk } := by
    have fits : (t.backlog.bytes ++ chunk).length - t.backlog.ceiling = 0 := by
      rw [List.length_append]
      exact Nat.sub_eq_zero_of_le hroom
    simp only [Backlog.push, fits, List.drop_zero, Nat.add_zero]
  have stored : Unheard { h with terminal := some (t.store chunk) } (t.store chunk) :=
    ⟨rfl, H.running, H.fault, H.subscribers⟩
  have published : h.publish chunk = { h with terminal := some (t.store chunk) } := by
    have silent := stored.broadcast h.room (.data chunk)
    have running : (t.store chunk).exitCode.isSome = false := by simp [Terminal.store, hc]
    simp [publish_eq H.terminal, Terminal.publish, Terminal.deliver, running, silent]
  rw [published]
  exact ⟨t.store chunk, stored, rfl, hc, push⟩

/-- An exit that is reported can be fetched. -/
theorem Unheard.recordExit (H : h.Unheard t) (hc : t.exitCode = none) (code : Int32) :
    ∃ u, (h.recordExit code).Unheard u ∧ u.pty = t.pty ∧ u.exitCode = some code
      ∧ u.backlog = t.backlog := by
  have ended : Unheard
      { h with terminal := some { t with running := false, exitCode := some code } }
      { t with running := false, exitCode := some code } :=
    ⟨rfl, rfl, H.fault, H.subscribers⟩
  have recorded : h.recordExit code =
      { h with terminal := some { t with running := false, exitCode := some code } } := by
    have silent := ended.broadcast h.room (.exit code)
    simp [recordExit_eq H.terminal, Terminal.recordExit, hc, silent]
  rw [recorded]
  exact ⟨_, ended, rfl, rfl, rfl⟩

theorem Unheard.withPty (H : h.Unheard t) {pty : Pty} (hfault : pty.fault = none) :
    Unheard { h with terminal := some { t with pty } } { t with pty } :=
  ⟨rfl, H.running, hfault, H.subscribers⟩

/-- A fetch gives all that is unread. -/
theorem Unheard.read (H : h.Unheard t) :
    ∃ host u, h.read = (host, .ok t.unread) ∧ host.Unheard u ∧ u.pty = t.pty
      ∧ u.exitCode = t.exitCode ∧ u.backlog = { t.backlog with bytes := [] } := by
  have fetched : Unheard { h with terminal := some t.poll.1 } t.poll.1 :=
    ⟨rfl, H.running, H.fault, H.subscribers⟩
  refine ⟨_, t.poll.1, ?_, fetched, rfl, rfl, rfl⟩
  simp [Host.read, require, H.terminal, Terminal.unread]

end Host
end TermLink
