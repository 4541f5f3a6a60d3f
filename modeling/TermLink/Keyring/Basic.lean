import TermLink.Bytes
import TermLink.Calendar

/-!
# Keyrings

The keys that a gate knows, by fingerprint. A key that is known is never replaced; it can only be
used and removed.
-/

namespace TermLink

/-- A known key. -/
structure KeyRecord where
  fingerprint : String
  publicKey : Bytes
  createdAt : Instant
  lastUsed : Option Instant := none
  deriving DecidableEq, Repr

/-- The known keys, each fingerprint once. -/
structure Keyring where
  records : List KeyRecord := []
  deriving DecidableEq, Repr

/-- What came of registering a key. -/
inductive Registration where
  | created
  /-- The fingerprint was known, and nothing has changed. -/
  | present
  deriving DecidableEq, Repr

namespace Keyring

/-- The record of a fingerprint. -/
def get? (k : Keyring) (fingerprint : String) : Option KeyRecord :=
  k.records.find? fun r => r.fingerprint = fingerprint

/-- Whether a fingerprint is known. -/
def contains (k : Keyring) (fingerprint : String) : Bool := (k.get? fingerprint).isSome

/-- The number of known keys. -/
def size (k : Keyring) : Nat := k.records.length

/-- Adds a key, unless its fingerprint is known. -/
def register (k : Keyring) (fingerprint : String) (publicKey : Bytes) (now : Instant) :
    Keyring × Registration :=
  if k.contains fingerprint then (k, .present)
  else (⟨k.records ++ [{ fingerprint, publicKey, createdAt := now }]⟩, .created)

/-- Records that a key has been used, if it is known. -/
def touch (k : Keyring) (fingerprint : String) (now : Instant) : Keyring :=
  ⟨k.records.map fun r =>
    if r.fingerprint = fingerprint then { r with lastUsed := some now } else r⟩

/-- Removes a key, and says whether it was known. -/
def remove (k : Keyring) (fingerprint : String) : Keyring × Bool :=
  (⟨k.records.filter fun r => r.fingerprint ≠ fingerprint⟩, k.contains fingerprint)

/-- Whether a record comes no later than another: by the time of creation, and by fingerprint
among those of one time. -/
def precedes (a b : KeyRecord) : Bool :=
  a.createdAt < b.createdAt
    || (a.createdAt = b.createdAt && decide (a.fingerprint ≤ b.fingerprint))

/-- The known keys in order of creation. -/
def list (k : Keyring) : List KeyRecord := k.records.mergeSort precedes

end Keyring
end TermLink
