import TermLink.FileTree

/-!
# The key of a gate

A gate proves by a key who it is. The key is loaded from a file, or made and put there when the
gate is first started.

## Implementation notes

What the key itself is does not matter here; whether there is a usable one at its path is given.
-/

namespace TermLink.Gate.HostKey

/-- Why there is no key. -/
inductive Fault where
  | load (path : String)
  /-- The directory for the key is missing and cannot be made. -/
  | directory (path : String)
  | create (path : String)
  deriving DecidableEq, Repr

/-- The words for a fault. -/
def Fault.message : Fault → String
  | .load path => "failed to load host key " ++ path
  | .directory path => "failed to create host key directory " ++ path
  | .create path => "failed to create host key " ++ path

/-- Loads the key at a path, or makes one where there is nothing yet. `isKey` says whether what
there is at the path is a usable key. -/
def ensure (files : FileTree) (path : String) (isKey : Bool) : Except Fault FileTree :=
  if files.has path then
    if isKey then .ok files else .error (.load path)
  else match files.makeDirectories? (Path.parent path) with
    | none => .error (.directory (Path.parent path))
    | some files =>
      match files.create? path .file with
      | none => .error (.create path)
      | some files => .ok files

/-- The kind of key that is made. -/
def algorithm : String := "ssh-ed25519"

/-- The access rights of the key's file: its owner may read and write it. -/
def mode : Nat := 0o600

/-- What a gate calls itself towards its clients. -/
def identification : String := "SSH-2.0-ssh-relay_0.1.0"

end TermLink.Gate.HostKey
