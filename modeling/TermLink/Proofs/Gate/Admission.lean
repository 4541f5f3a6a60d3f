import TermLink.Gate.Admission
import TermLink.Proofs.Keyring.Basic

/-!
# The calls of a decision

What each call to the store does to a decision and to the keys, whether it fails or not, and what
the store has told by the time that a decision is taken.
-/

namespace TermLink.Gate.Admission

/-- What a call to the store does: from a stage and the keys to the next stage and the keys then.
The first argument says whether the call fails. -/
inductive Moves (autoRegister : Bool) (key : ClientKey) (now : Instant) :
    Bool → Stage → Keyring → Stage → Keyring → Prop
  | found {keys : Keyring} (h : keys.contains key.fingerprint = true) :
    Moves autoRegister key now false .lookup keys (.use .accepted) keys
  | unknown {keys : Keyring} (h : keys.contains key.fingerprint = false)
      (hauto : autoRegister = true) :
    Moves autoRegister key now false .lookup keys .registration keys
  | rejected {keys : Keyring} (h : keys.contains key.fingerprint = false)
      (hauto : autoRegister = false) :
    Moves autoRegister key now false .lookup keys (.decided .rejected) keys
  | unread {keys : Keyring} :
    Moves autoRegister key now true .lookup keys (.decided .indeterminate) keys
  | created {keys : Keyring} (h : keys.contains key.fingerprint = false) :
    Moves autoRegister key now false .registration keys (.use .registered)
      (keys.register key.fingerprint key.publicKey now).1
  | present {keys : Keyring} (h : keys.contains key.fingerprint = true) :
    Moves autoRegister key now false .registration keys (.use .accepted) keys
  | unwritten {keys : Keyring} :
    Moves autoRegister key now true .registration keys (.decided .indeterminate) keys
  | used (v : Verdict) {keys : Keyring} :
    Moves autoRegister key now false (.use v) keys (.decided v) (keys.touch key.fingerprint now)
  | unused (v : Verdict) {keys : Keyring} :
    Moves autoRegister key now true (.use v) keys (.decided v) keys
  | settled (fails : Bool) (v : Verdict) {keys : Keyring} :
    Moves autoRegister key now fails (.decided v) keys (.decided v) keys

theorem moves_step (autoRegister : Bool) (key : ClientKey) (now : Instant) (fails : Bool)
    (stage : Stage) (keys : Keyring) :
    Moves autoRegister key now fails stage keys
      (stage.step autoRegister key now fails keys).1
      (stage.step autoRegister key now fails keys).2 := by
  cases stage with
  | lookup =>
    cases fails with
    | true => exact .unread
    | false =>
      cases hc : keys.contains key.fingerprint with
      | true => simpa [Stage.step, hc] using Moves.found hc
      | false =>
        cases hauto : autoRegister with
        | true => simpa [Stage.step, hc] using Moves.unknown hc rfl
        | false => simpa [Stage.step, hc] using Moves.rejected hc rfl
  | registration =>
    cases fails with
    | true => exact .unwritten
    | false =>
      cases hc : keys.contains key.fingerprint with
      | true => simpa [Stage.step, Keyring.register_of_contains hc] using Moves.present hc
      | false =>
        have created : Moves autoRegister key now false .registration keys (.use .registered) _ :=
          .created hc
        rw [Keyring.register_of_not_contains hc] at created
        simpa [Stage.step, Keyring.register_of_not_contains hc] using created
  | use v =>
    cases fails with
    | true => exact .unused v
    | false => exact .used v
  | decided v => exact .settled fails v

/-- No call fails if none is said to. -/
theorem at_healthy (stage : Stage) : ({} : Faults).at stage = false := by cases stage <;> rfl

/-- What a decision comes to if no call fails. -/
theorem authorize_healthy (autoRegister : Bool) (key : ClientKey) (now : Instant)
    (keys : Keyring) :
    authorize autoRegister key now {} keys =
      if keys.contains key.fingerprint then (.accepted, keys.touch key.fingerprint now)
      else if autoRegister then
        (.registered,
          (keys.register key.fingerprint key.publicKey now).1.touch key.fingerprint now)
      else (.rejected, keys) := by
  cases hc : keys.contains key.fingerprint with
  | true => simp [authorize, run, Stage.step, at_healthy, Stage.verdict, hc]
  | false =>
    cases autoRegister <;>
      simp [authorize, run, Stage.step, at_healthy, Stage.verdict, hc,
        Keyring.register_of_not_contains]

/-- With a closed store nothing is decided. -/
theorem decide_of_closed {store : Keyring.Store} (h : store.isOpen = false) (autoRegister : Bool)
    (key : ClientKey) (now : Instant) :
    decide autoRegister key now store = (.indeterminate, store) := by
  obtain ⟨durable, keys, isOpen⟩ := store
  subst h
  rfl

theorem decide_of_open {store : Keyring.Store} (h : store.isOpen = true) (autoRegister : Bool)
    (key : ClientKey) (now : Instant) :
    decide autoRegister key now store =
      ((authorize autoRegister key now {} store.keys).1,
        { store with keys := (authorize autoRegister key now {} store.keys).2 }) := by
  simp [decide, faultsOf, h]

/-- What a call to the store told. -/
inductive Finding where
  | failed
  | looked (known : Bool)
  /-- The key was to be added, and whether it is known after that. -/
  | added (known : Bool)
  deriving DecidableEq, Repr

/-- What the call of a stage tells about a key, from whether it fails and whether the key is known
before and after it. The record of the use tells nothing. -/
def Stage.tells (fails before after : Bool) : Stage → List Finding
  | .lookup => [if fails then .failed else .looked before]
  | .registration => [if fails then .failed else .added after]
  | .use _ | .decided _ => []

/-- Whether the store vouches for a key: it was found, or was added and is known now. -/
def Vouched (findings : List Finding) : Prop :=
  .looked true ∈ findings ∨ .added true ∈ findings

/-- What the store has told by the time that a decision comes to a stage. -/
inductive Course (autoRegister : Bool) : List Finding → Stage → Prop
  | begun : Course autoRegister [] .lookup
  | unread : Course autoRegister [.failed] (.decided .indeterminate)
  | known : Course autoRegister [.looked true] (.use .accepted)
  | unknown (hauto : autoRegister = true) : Course autoRegister [.looked false] .registration
  | refused (hauto : autoRegister = false) :
    Course autoRegister [.looked false] (.decided .rejected)
  | unwritten (hauto : autoRegister = true) :
    Course autoRegister [.looked false, .failed] (.decided .indeterminate)
  | added (hauto : autoRegister = true) (v : Verdict) (hv : v = .accepted ∨ v = .registered) :
    Course autoRegister [.looked false, .added true] (.use v)
  | settled {findings : List Finding} {v : Verdict} (h : Course autoRegister findings (.use v)) :
    Course autoRegister findings (.decided v)

variable {autoRegister : Bool} {findings : List Finding} {stage : Stage} {v : Verdict}

theorem Course.vouched (h : Course autoRegister findings (.use v)) :
    Vouched findings ∧ (v = .accepted ∨ v = .registered) := by
  cases h with
  | known => exact ⟨.inl (by simp), .inl rfl⟩
  | added _ _ hv => exact ⟨.inr (by simp), hv⟩

/-- A key is let in because the store vouched for it or because it failed. -/
theorem Course.of_admits (h : Course autoRegister findings (.decided v)) (hv : v.admits = true) :
    v = .indeterminate ∨ Vouched findings := by
  cases h with
  | unread | unwritten => exact .inl rfl
  | refused => cases hv
  | settled h => exact .inr h.vouched.1

theorem Course.of_failed (h : Course autoRegister findings stage) (hf : .failed ∈ findings) :
    stage = .decided .indeterminate ∧ ¬Vouched findings := by
  cases h with
  | unread | unwritten => exact ⟨rfl, by simp [Vouched]⟩
  | begun | known | unknown | refused | added => simp at hf
  | settled h => cases h <;> simp at hf

theorem Course.of_unknown (h : Course false findings stage) (hf : .looked false ∈ findings) :
    stage = .decided .rejected ∧ ¬Vouched findings := by
  cases h with
  | refused => exact ⟨rfl, by simp [Vouched]⟩
  | unknown hauto | unwritten hauto | added hauto => cases hauto
  | begun | unread | known => simp at hf
  | settled h =>
    cases h with
    | known => simp at hf
    | added hauto => cases hauto

/-- A call takes a decision further on its course, and the keys change only if the store vouches for
the key. -/
theorem Moves.course {key : ClientKey} {now : Instant} {fails : Bool} {stage' : Stage}
    {keys keys' : Keyring} (h : Moves autoRegister key now fails stage keys stage' keys')
    (hcourse : Course autoRegister findings stage) :
    let later := findings
      ++ stage.tells fails (keys.contains key.fingerprint) (keys'.contains key.fingerprint)
    Course autoRegister later stage' ∧ (keys' ≠ keys → Vouched later) := by
  cases h with
  | found hc =>
    cases hcourse
    simpa [Stage.tells, hc] using Course.known
  | unknown hc hauto =>
    cases hcourse
    simpa [Stage.tells, hc] using Course.unknown hauto
  | rejected hc hauto =>
    cases hcourse
    simpa [Stage.tells, hc] using Course.refused hauto
  | unread =>
    cases hcourse
    simpa [Stage.tells] using Course.unread
  | created hc =>
    cases hcourse with
    | unknown hauto =>
      have known : (keys.register key.fingerprint key.publicKey now).1.contains key.fingerprint =
          true := Keyring.contains_register.mpr (.inl rfl)
      simpa [Stage.tells, known, Vouched] using Course.added hauto .registered (.inr rfl)
  | present hc =>
    cases hcourse with
    | unknown hauto => simpa [Stage.tells, hc] using Course.added hauto .accepted (.inl rfl)
  | unwritten =>
    cases hcourse with
    | unknown hauto => simpa [Stage.tells] using Course.unwritten hauto
  | used => simpa [Stage.tells] using ⟨hcourse.settled, fun _ => hcourse.vouched.1⟩
  | unused => simpa [Stage.tells] using hcourse.settled
  | settled => simpa [Stage.tells] using hcourse

end TermLink.Gate.Admission
