import TermLink.Bytes

/-!
# Paths

A path is a text of names with slashes between them. Doubled slashes and the name `.` lead nowhere,
and `..` leads to the directory above.

## Implementation notes

`steps` keeps the names that lead nowhere, because a file cannot be followed by any of them.
-/

namespace TermLink.Path

/-- The longest name in bytes. -/
def longestName : Nat := 255

/-- The number of bytes that a path must stay below. -/
def limit : Nat := 4096

/-- Whether a path can be asked for at all. -/
def isUsable (path : String) : Bool :=
  path.utf8ByteSize < limit && !path.toList.contains (Char.ofNat 0)

/-- Whether a file or a directory can have a name. -/
def nameFits (name : String) : Bool := name.utf8ByteSize ≤ longestName

/-- A path with a slash at its end. -/
def withSlash (path : String) : String :=
  if path.toList.getLast? = some '/' then path else path ++ "/"

/-- A path that is meant from a directory, as a list with slashes between the names. The empty path
is the directory in which a program runs. -/
def joinOn {α : Type} [DecidableEq α] (slash : α) (directory path : List α) : List α :=
  if beginsWith [slash] path ∨ directory = [] then path
  else if directory.getLast? = some slash then directory ++ path
  else directory ++ slash :: path

/-- A path that is meant from a directory, as texts. -/
def join (directory path : String) : String :=
  String.ofList (joinOn '/' directory.toList path.toList)

/-- The slash as a byte. -/
def slash : UInt8 := 47

/-- A path that is meant from a directory, as the bytes by which a system knows them. -/
def joinBytes (directory path : Bytes) : Bytes := joinOn slash directory path

/-- The names that a path goes through in order, also those that lead nowhere. -/
def steps (path : String) : List String :=
  (pieces (· = '/') path.toList).map String.ofList

/-- A reversed path without the slashes and the names `.` in front. -/
def skipEmpty : List Char → List Char
  | '/' :: rest => skipEmpty rest
  | ['.'] => []
  | '.' :: '/' :: rest => skipEmpty rest
  | cs => cs

/-- The path of the directory that holds a path's last name. -/
def parent (path : String) : String :=
  let above := skipEmpty ((skipEmpty path.toList.reverse).dropWhile (· ≠ '/'))
  if above = [] then "/" else String.ofList above.reverse

/-- The last name of a path, also where it leads nowhere. -/
def lastStep (path : String) : String := (steps path).getLast?.getD ""

end TermLink.Path
