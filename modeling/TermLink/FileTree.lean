import TermLink.Path

/-!
# Trees of files

As much of a file system as matters here: which files and directories there are, where a path leads
among them, and what comes of making new ones.

## Implementation notes

A place is the list of names that leads to it from the top without detours. A directory that is
reached by a link is a copy of the one that the link leads to; what is around that one is unknown,
so no path leads out of it.
-/

namespace TermLink

/-- A file, or a directory with all it holds. -/
inductive FileTree where
  | file
  /-- The directory in which git keeps a repository, with the names of the files in a clone. -/
  | repository (files : List String)
  /-- A directory, which is reached by a link if it is `linked`. -/
  | directory (entries : List (String × FileTree)) (linked : Bool)
  deriving Repr, Inhabited

namespace FileTree

/-- A directory of its own with nothing in it. -/
def empty : FileTree := .directory [] false

/-- What a directory holds. -/
def entries : FileTree → List (String × FileTree)
  | .directory es _ => es
  | _ => []

/-- What a directory holds under a name. -/
def child? (t : FileTree) (name : String) : Option FileTree := t.entries.lookup name

/-- What there is at a place. -/
def at? (t : FileTree) : List String → Option FileTree
  | [] => some t
  | name :: rest =>
    match t.child? name with
    | some sub => sub.at? rest
    | none => none

/-- Whether there is a directory at a place. -/
def isDirectoryAt (t : FileTree) (place : List String) : Bool :=
  match t.at? place with
  | some .file => false
  | some _ => true
  | none => false

/-- The place above a directory. Above the top there is the top. -/
def above? (t : FileTree) (place : List String) : Option (List String) :=
  match t.at? place with
  | some (.directory _ true) => none
  | some .file => none
  | some _ => some place.dropLast
  | none => none

/-- The tree with something put at a place, and the directories on the way. -/
def put : FileTree → List String → FileTree → FileTree
  | _, [], node => node
  | .directory es linked, name :: rest, node =>
    let sub := (es.lookup name).getD empty
    .directory ((name, sub.put rest node) :: es.filter (·.1 ≠ name)) linked
  | t, _ :: _, _ => t

/-- Where names lead from a place. -/
def follow? (t : FileTree) (place : List String) : List String → Option (List String)
  | [] => some place
  | name :: rest =>
    if name = "" ∨ name = "." then
      if t.isDirectoryAt place then t.follow? place rest else none
    else if name = ".." then
      match t.above? place with
      | some up => t.follow? up rest
      | none => none
    else if (t.at? (place ++ [name])).isSome then t.follow? (place ++ [name]) rest
    else none

/-- The place to which a path leads. -/
def find? (t : FileTree) (path : String) : Option (List String) :=
  if Path.isUsable path then t.follow? [] (Path.steps path) else none

/-- Whether a path leads to something. -/
def has (t : FileTree) (path : String) : Bool := (t.find? path).isSome

/-- Makes the directories that names lead through from a place. -/
def makeFrom? (t : FileTree) (place : List String) : List String → Option FileTree
  | [] => if t.isDirectoryAt place then some t else none
  | name :: rest =>
    if name = "" ∨ name = "." then
      if t.isDirectoryAt place then t.makeFrom? place rest else none
    else if name = ".." then
      match t.above? place with
      | some up => t.makeFrom? up rest
      | none => none
    else if (t.at? (place ++ [name])).isSome then t.makeFrom? (place ++ [name]) rest
    else if t.isDirectoryAt place && Path.nameFits name then
      (t.put (place ++ [name]) empty).makeFrom? (place ++ [name]) rest
    else none

/-- The tree with a path's directories, those that are missing made, if they can be. -/
def makeDirectories? (t : FileTree) (path : String) : Option FileTree :=
  if Path.isUsable path then t.makeFrom? [] (Path.steps path) else none

/-- The tree with something new at a path, whose directory must be there already. -/
def create? (t : FileTree) (path : String) (node : FileTree) : Option FileTree :=
  let name := Path.lastStep path
  match t.find? (Path.parent path) with
  | some place =>
    if ["", ".", ".."].contains name || !Path.isUsable path || !Path.nameFits name
        || !t.isDirectoryAt place || (t.at? (place ++ [name])).isSome then none
    else some (t.put (place ++ [name]) node)
  | none => none

end FileTree
end TermLink
