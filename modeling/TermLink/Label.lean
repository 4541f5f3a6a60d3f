import TermLink.Text.Utf8

/-!
# Session labels

The short names by which sessions are told apart in logs.
-/

namespace TermLink.Label

/-- The number of characters or bytes that a label keeps. -/
def width : Nat := 16

/-- The label of a fingerprint: its first characters. -/
def ofFingerprint (fingerprint : String) : String :=
  String.ofList (fingerprint.toList.take width)

/-- The label of a session at the edge: the first bytes of its identifier, all of it where they
would cut a character, and a word of its own where there is none. -/
def ofSession (id : Option String) : String :=
  match id with
  | none => "anonymous"
  | some text => (Utf8.decode? ((Utf8.encode text).take width)).getD text

end TermLink.Label
