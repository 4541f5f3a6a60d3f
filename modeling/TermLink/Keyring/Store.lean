import TermLink.Keyring.Basic

/-!
# Stores of keys

A keyring is kept in a store, which is a file or only memory. A closed store answers nothing. When
a store is opened again, a file still holds what it held and memory is empty.
-/

namespace TermLink.Keyring

/-- A store of keys. -/
structure Store where
  /-- Whether the keys outlive the closing of the store. -/
  durable : Bool
  keys : Keyring := {}
  isOpen : Bool := true
  deriving DecidableEq, Repr

/-- Why a store does not answer. -/
inductive StoreError where
  | closed
  deriving DecidableEq, Repr

namespace Store

/-- The keys, if the store is open. -/
def read (s : Store) : Except StoreError Keyring :=
  if s.isOpen then .ok s.keys else .error .closed

/-- Changes the keys, if the store is open, and gives what the change tells. -/
def change {α : Type} (s : Store) (f : Keyring → Keyring × α) : Store × Except StoreError α :=
  if s.isOpen then
    let (keys, a) := f s.keys
    ({ s with keys }, .ok a)
  else (s, .error .closed)

/-- Closes the store. -/
def close (s : Store) : Store := { s with isOpen := false }

/-- Closes the store and opens it again. -/
def reopen (s : Store) : Store :=
  { s with isOpen := true, keys := if s.durable then s.keys else {} }

end Store
end TermLink.Keyring
