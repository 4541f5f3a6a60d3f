import TermLink.Header
import TermLink.Label
import TermLink.Message.Basic
import TermLink.Text.Integer

/-!
# What a gate tells about a session

A gate opens a session towards the edge with header fields that say who the client is, how large
its terminal is and which repository it named. The edge reads them leniently: a field that is
absent, blank or garbled counts as not given.

## Implementation notes

A gate makes its values first and writes the request later, and what cannot be made or written ends
the dial alike. `toHeaders?` answers for both at once, as `Header.ofText?` does.
-/

namespace TermLink

/-- Who and what a session is for. -/
structure SessionInfo where
  id : Option String
  size : Geometry
  repo : Option String
  deriving DecidableEq, Repr

namespace SessionInfo

/-- The field of the client's key. -/
def idField : String := "x-session-id"

/-- The field of the terminal's columns. -/
def colsField : String := "x-cols"

/-- The field of the terminal's rows. -/
def rowsField : String := "x-rows"

/-- The field of the repository. -/
def repoField : String := "x-repo"

/-- The field of the secret that gate and edge share. -/
def secretField : String := "x-auth-secret"

/-- The trimmed text of a field, unless it is blank. -/
def content? (hs : Headers) (name : String) : Option String := (hs.text? name).bind Text.content?

/-- The number in a field, or the fallback. -/
def number (hs : Headers) (name : String) (fallback : Nat) : Int64 :=
  ((content? hs name).bind Text.int64?).getD (Int64.ofNat fallback)

/-- What header fields tell about a session. -/
def ofHeaders (hs : Headers) : SessionInfo where
  id := content? hs idField
  size :=
    ⟨number hs colsField Geometry.defaultCols, number hs rowsField Geometry.defaultRows⟩
  repo := content? hs repoField

/-- The text of a number in a field. -/
def numberText (n : Int64) : String := String.ofList (Text.signedDigits n.toInt)

/-- The fields that tell about a session, with the secret where it is not empty. There are none if
a value cannot be made or written. -/
def toHeaders? (id : String) (size : Geometry) (repo secret : Option String) : Option Headers :=
  let given (name : String) (value : Option String) : List (String × String) :=
    (value.map fun v => (name, v)).toList
  let fields :=
    [(idField, id), (colsField, numberText size.cols), (rowsField, numberText size.rows)]
      ++ given repoField repo ++ given secretField (secret.filter (· ≠ ""))
  fields.mapM fun (name, value) => Header.ofText? name value

/-- The request for a terminal that a session begins with. -/
def request (s : SessionInfo) : Message := .request s.size s.repo

/-- The name of the session in logs. -/
def label (s : SessionInfo) : String := Label.ofSession s.id

end SessionInfo
end TermLink
