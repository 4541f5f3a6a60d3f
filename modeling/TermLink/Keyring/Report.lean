import TermLink.Keyring.Basic

/-!
# Reports on the known keys

What an administrator is told about the keys, line by line.
-/

namespace TermLink.Keyring

/-- The line about a key. -/
def line (r : KeyRecord) : String :=
  let used := match r.lastUsed with
    | some t => t.render
    | none => "never"
  r.fingerprint ++ "\tregistered " ++ Instant.render r.createdAt ++ "\tlast used " ++ used ++ "\n"

/-- The lines about all keys, in order of creation. -/
def listReport (k : Keyring) : String := String.join (k.list.map line)

/-- The line with the number of keys. -/
def countReport (k : Keyring) : String := String.ofList (Text.digits k.size) ++ "\n"

/-- Why an administrator's request fails. -/
inductive AdminError where
  /-- The keys cannot be read at all. -/
  | unavailable
  | unknownKey (fingerprint : String)
  deriving DecidableEq, Repr

/-- The words for a failure. -/
def AdminError.message : AdminError → String
  | .unavailable => "failed to open key registry"
  | .unknownKey fingerprint => "no key registered with fingerprint " ++ fingerprint

/-- Removes a key and gives the line that says so. -/
def removeReport (k : Keyring) (fingerprint : String) : Keyring × Except AdminError String :=
  match k.remove fingerprint with
  | (k, true) => (k, .ok ("removed " ++ fingerprint ++ "\n"))
  | (k, false) => (k, .error (.unknownKey fingerprint))

end TermLink.Keyring
