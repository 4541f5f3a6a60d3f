import TermLink.Checkout.Preparer
import TermLink.FileTree

/-!
# Workspaces

A workspace is the directory under which repositories are checked out, one directory for each
name. It is a system of its own: what git does with its entries is all that happens in it.

## Implementation notes

The workspace is what its root holds, by name, and `origins` says from where each checkout came
that was made here. What git does is a parameter: for an address, and as far as the address leads
back into the workspace, either what a clone of it holds or why it cannot be cloned and what is left
of it; and for a checkout that is already there, what an update of it makes of every entry, because
an entry may be reached from another one by a link. Unless something else is said no update can be
had.
-/

namespace TermLink.Checkout

/-- A directory for checkouts. -/
structure Workspace extends Preparer where
  entries : List (String × FileTree) := []
  /-- The address from which the checkout of each name was cloned. -/
  origins : List (String × String) := []
  deriving Repr

/-- What comes of a clone. -/
inductive Cloning where
  /-- The clone holds files with these names. -/
  | done (names : List String)
  /-- There is no clone, and why. Git may leave what it made of the directory until then. -/
  | failed (detail : String) (left : Option FileTree := none)
  deriving Repr

/-- What git does with an address. -/
abbrev Git := Workspace → String → Cloning

/-- What git makes of an entry by an update of the checkout of a name: all that is in the entry then
beside the repository, or nothing where the update leaves it as it is. -/
abbrev Update := Workspace → (name entry : String) → Option (List (String × FileTree))

/-- Without a way to the repositories no update can be had. -/
def Update.failed : Update := fun _ _ _ => none

namespace Workspace

/-- The path of the workspace as a text. -/
def root (w : Workspace) : String := w.path .root

/-- What the workspace holds under a name. -/
def entry? (w : Workspace) (name : String) : Option FileTree := w.entries.lookup name

/-- Whether there is a checkout of a name. -/
def isCheckout (w : Workspace) (name : String) : Bool :=
  match w.entry? name with
  | some t => (t.child? gitName).isSome
  | none => false

/-- Whether something is in the way of a clone. An empty directory is not. -/
def isTaken (w : Workspace) (name : String) : Bool :=
  match w.entry? name with
  | none => !Path.nameFits name
  | some (.directory [] _) => false
  | some _ => true

/-- The names in the directory of a place. -/
def files (w : Workspace) : Place → List String
  | .root => w.entries.map Prod.fst
  | .entry name =>
    match w.entry? name with
    | some t => t.entries.map Prod.fst
    | none => []

/-- The directory of a clone with these files. -/
def cloned (names : List String) : FileTree :=
  .directory ((gitName, .repository names) :: names.map fun n => (n, .file)) false

/-- The workspace with something else under a name. -/
def withEntry (w : Workspace) (name : String) (t : FileTree) : Workspace :=
  { w with entries := (name, t) :: w.entries.filter (·.1 ≠ name) }

/-- The workspace with what a clone of an address made under a name. What there is of a repository
came from that address. -/
def withClone (w : Workspace) (address name : String) (t : FileTree) : Workspace :=
  if (t.child? gitName).isSome then
    { w.withEntry name t with origins := (name, address) :: w.origins }
  else w.withEntry name t

/-- A directory with other files beside its repository. -/
def refreshed (files : List (String × FileTree)) : FileTree → FileTree
  | .directory es linked =>
    .directory (es.filter (·.1 = gitName) ++ files.filter (·.1 ≠ gitName)) linked
  | t => t

/-- The workspace after an update of the checkout of a name. -/
def updated (w : Workspace) (update : Update) (name : String) : Workspace :=
  { w with entries := w.entries.map fun e => (e.1, ((update w name e.1).elim id refreshed) e.2) }

/-- Clones an address into the directory of a name. The directory is made before the address is
looked at, so an address that leads back to it gives a clone with nothing in it. What is in the way
of a clone stays as it is. -/
def clone (w : Workspace) (git : Git) (address name : String) : Workspace × Except String Unit :=
  match git (w.withEntry name (cloned [])) address with
  | .done names =>
    if w.isTaken name then (w, .error "git clone exited with exit status: 128")
    else (w.withClone address name (cloned names), .ok ())
  | .failed detail left =>
    if w.isTaken name then (w, .error detail)
    else (left.elim w (w.withClone address name), .error detail)

/-- The name whose directory is at a path. -/
def nameAt? (w : Workspace) (path : Bytes) : Option String :=
  (afterLead? (w.directory (.entry "")) path).bind Utf8.decode?

/-- Whether there is a checkout whose repository is at a path. -/
def hasRepository (w : Workspace) (path : Bytes) : Bool :=
  match (beforeTail? (Path.slash :: Utf8.encode gitName) path).bind w.nameAt? with
  | some name => w.isCheckout name
  | none => false

/-- Workspaces as a system. A clone into a directory elsewhere may be had, but changes nothing
here. -/
def system (git : Git) (update : Update) : System Workspace where
  has := hasRepository
  perform w
    | .makeDirectory _ => (w, .ok ())
    | .pull directory =>
      match w.nameAt? directory with
      | some name => (w.updated update name, .ok ())
      | none => (w, .error "git pull exited with exit status: 128")
    | .clone address directory =>
      match w.nameAt? (Utf8.encode directory) with
      | some name => w.clone git address name
      | none =>
        match git w address with
        | .done _ => (w, .ok ())
        | .failed detail _ => (w, .error detail)

/-- Prepares the workspace for a selector, if one is given. -/
def prepare (w : Workspace) (git : Git) (selector : Option String)
    (update : Update := Update.failed) : Workspace × Prepared :=
  w.toPreparer.prepare (system git update) w selector

end Workspace
end TermLink.Checkout
