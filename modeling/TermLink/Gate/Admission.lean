import TermLink.Keyring.Store

/-!
# Admission

Whether a client may come in is decided by its key. A known key is accepted; an unknown one is
registered or rejected, as the gate is set up. Where the keys cannot be consulted the client is
neither trusted nor refused: it comes in and learns that its key could not be verified.

## Implementation notes

A decision takes up to three calls to the store: the look-up, the registration and the record of
the use. Each is one step of `Stage`, because the calls of several clients may be interleaved, and
each may fail by itself.
-/

namespace TermLink.Gate

/-- What was decided about a client. -/
inductive Verdict where
  | accepted
  | registered
  | rejected
  | indeterminate
  deriving DecidableEq, Repr

/-- Whether the client comes in. -/
def Verdict.admits : Verdict → Bool
  | .rejected => false
  | _ => true

/-- The word for a verdict. -/
def Verdict.word : Verdict → String
  | .accepted => "accepted"
  | .registered => "registered"
  | .rejected => "rejected"
  | .indeterminate => "indeterminate"

/-- Every verdict. -/
def Verdict.all : List Verdict := [.accepted, .registered, .rejected, .indeterminate]

/-- A client's key. -/
structure ClientKey where
  fingerprint : String
  publicKey : Bytes
  deriving DecidableEq, Repr

namespace Admission

/-- How far a decision has come. -/
inductive Stage where
  | lookup
  | registration
  /-- The use of the key is still to be recorded. -/
  | use (verdict : Verdict)
  | decided (verdict : Verdict)
  deriving DecidableEq, Repr

/-- Makes the next call to the store, which fails if `fails`. A failed look-up or registration
leaves the decision open; a failed record of the use does not matter. -/
def Stage.step (autoRegister : Bool) (key : ClientKey) (now : Instant) (fails : Bool) :
    Stage → Keyring → Stage × Keyring
  | .lookup, keys =>
    if fails then (.decided .indeterminate, keys)
    else if keys.contains key.fingerprint then (.use .accepted, keys)
    else if autoRegister then (.registration, keys)
    else (.decided .rejected, keys)
  | .registration, keys =>
    if fails then (.decided .indeterminate, keys)
    else match keys.register key.fingerprint key.publicKey now with
      | (keys, .created) => (.use .registered, keys)
      | (keys, .present) => (.use .accepted, keys)
  | .use v, keys => (.decided v, if fails then keys else keys.touch key.fingerprint now)
  | .decided v, keys => (.decided v, keys)

/-- Which of the calls fail. -/
structure Faults where
  lookup : Bool := false
  registration : Bool := false
  use : Bool := false
  deriving DecidableEq, Repr

/-- Whether the call of a stage fails. -/
def Faults.at (f : Faults) : Stage → Bool
  | .lookup => f.lookup
  | .registration => f.registration
  | .use _ => f.use
  | .decided _ => false

/-- Makes up to `n` calls. -/
def run (autoRegister : Bool) (key : ClientKey) (now : Instant) (faults : Faults) :
    Nat → Stage × Keyring → Stage × Keyring
  | 0, s => s
  | n + 1, (stage, keys) =>
    run autoRegister key now faults n (stage.step autoRegister key now (faults.at stage) keys)

/-- The verdict of a decision that has been taken. -/
def Stage.verdict : Stage → Verdict
  | .decided v => v
  | _ => .indeterminate

/-- Decides about a client, with no other client's calls in between. -/
def authorize (autoRegister : Bool) (key : ClientKey) (now : Instant) (faults : Faults)
    (keys : Keyring) : Verdict × Keyring :=
  let (stage, keys) := run autoRegister key now faults 3 (.lookup, keys)
  (stage.verdict, keys)

/-- The calls that fail with a store: all of them if it is closed, and else none. -/
def faultsOf (store : Keyring.Store) : Faults :=
  if store.isOpen then {} else ⟨true, true, true⟩

/-- Decides about a client by what a store holds. -/
def decide (autoRegister : Bool) (key : ClientKey) (now : Instant) (store : Keyring.Store) :
    Verdict × Keyring.Store :=
  let (verdict, keys) := authorize autoRegister key now (faultsOf store) store.keys
  (verdict, { store with keys })

end Admission
end TermLink.Gate
