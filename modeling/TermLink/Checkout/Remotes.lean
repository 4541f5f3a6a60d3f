import TermLink.Checkout.Workspace
import TermLink.Text.Percent
import TermLink.Text.Utf8

/-!
# Repositories on file

Where no network can be reached, git finds repositories only by `file` addresses. The escapes of an
address are read first; its path may then wander among the directories that there are, and `.git`
may be left off the end of a repository's name.

## Implementation notes

A `Ground` is the directory in which a workspace lies, with the repositories beside it. It holds
all files but those of the workspace, which changes from one selector to the next.
-/

namespace TermLink.Checkout

/-- The path of a `file` address, which begins at the first slash after the scheme. -/
def filePath? (address : String) : Option String := do
  let rest ← afterLead? (Utf8.encode "file://") (Utf8.encode address)
  let path ← Utf8.decode? ((Percent.decode rest).dropWhile (· ≠ 47))
  if path = "" then none else some path

/-- What may follow the path of a repository, in the order in which it is tried. -/
def repositoryEndings : List String := ["/.git", "", ".git/.git", ".git"]

/-- The repository at a path: the files of a clone. What is a file there, and not the directory of
a repository, ends the search. -/
def repositoryAt? (files : FileTree) (path : String) : Option (List String) :=
  let path := String.ofList (trimEnd (· = '/') path.toList)
  let found := repositoryEndings.findSome? fun ending =>
    match (files.find? (path ++ ending)).bind files.at? with
    | some .file => some none
    | some (.repository names) => some (some names)
    | _ => none
  found.bind id

/-- A directory in which a workspace lies with repositories beside it. -/
structure Ground where
  root : String
  files : FileTree

namespace Ground

/-- A directory with nothing in it. -/
def ofRoot (root : String) : Ground :=
  ⟨root, (FileTree.empty.makeDirectories? root).getD .empty⟩

/-- The path of the workspace. -/
def workspacePath (g : Ground) : String := Path.join g.root "ws"

/-- The path of the directory of repositories. -/
def remotesPath (g : Ground) : String := Path.join g.root "remotes"

/-- Makes a directory. -/
def withDirectory (g : Ground) (path : String) : Ground :=
  { g with files := (g.files.makeDirectories? path).getD g.files }

/-- Puts something at a path, and makes the directory for it. -/
def withNode (g : Ground) (path : String) (node : FileTree) : Ground :=
  let g := g.withDirectory (Path.parent path)
  { g with files := (g.files.create? path node).getD g.files }

/-- A repository with one commit, as it looks through a link to it. -/
def repository : FileTree :=
  .directory [(gitName, .repository ["README"]), ("README", .file)] true

/-- Links a repository under a name. -/
def withRemote (g : Ground) (name : String) : Ground :=
  g.withNode (Path.join g.remotesPath name) repository

/-- Makes what looks like a checkout in the workspace. -/
def withCheckout (g : Ground) (name : String) : Ground :=
  g.withDirectory (Path.join (Path.join g.workspacePath name) gitName)

/-- Puts something that is no checkout into the workspace. -/
def withClutter (g : Ground) (name : String) : Ground :=
  g.withNode (Path.join (Path.join g.workspacePath name) "clutter") .file

/-- The workspace. -/
def workspace (g : Ground) : Workspace where
  rootPath := Utf8.encode g.workspacePath
  base := "file://" ++ g.remotesPath
  entries :=
    match (g.files.find? g.workspacePath).bind g.files.at? with
    | some t => t.entries
    | none => []

/-- The files of the ground with a workspace in its place. -/
def around (g : Ground) (w : Workspace) : FileTree :=
  let g := g.withDirectory g.workspacePath
  match g.files.find? g.workspacePath with
  | some place => g.files.put place (.directory w.entries false)
  | none => g.files

/-- What git does with an address on this ground. -/
def git (g : Ground) : Git := fun w address =>
  if address.toList.contains (Char.ofNat 0) then .failed "nul byte found in provided data"
  else
    match (filePath? address).bind (repositoryAt? (g.around w)) with
    | some names => .done names
    | none => .failed "git clone exited with exit status: 128"

end Ground
end TermLink.Checkout
