import TermLink.Checkout.Name
import TermLink.Text.Blank
import TermLink.Text.Utf8

/-!
# Preparing the directory of a terminal

Before a terminal starts, the repository that was asked for is brought into a directory of its own
below a root. Preparing never fails: where no checkout can be had, the terminal starts in the root
itself and its user is told why.

## Implementation notes

A `System` is all that is around: the files, and git. Whatever it is asked to do, it may do anything
to itself, also where it says that it has failed.

A path is the bytes by which the system knows it. The directory of a clone is given to git as a
text, with U+FFFD for what is none, and so is every path that is shown.
-/

namespace TermLink.Checkout

/-- What is asked of a system. -/
inductive Act where
  | makeDirectory (path : Bytes)
  /-- Runs `git pull --ff-only` in a directory. -/
  | pull (directory : Bytes)
  /-- Runs `git clone --depth=1` of an address into a directory. -/
  | clone (address directory : String)
  deriving DecidableEq, Repr

/-- A system of files and git, whose states are `σ`. -/
structure System (σ : Type) where
  /-- Whether there is something at a path. -/
  has : σ → Bytes → Bool
  /-- The state after an act, and what the system says where the act fails. -/
  perform : σ → Act → σ × Except String Unit

/-- Where a terminal starts. -/
inductive Place where
  | root
  | entry (name : String)
  deriving DecidableEq, Repr

/-- Why a terminal does not start in the checkout that was asked for. -/
inductive Warning where
  /-- No directory can be named for the selector. -/
  | unusable (selector : String)
  | cloneFailed (selector detail : String)
  deriving DecidableEq, Repr

/-- The words for a warning. -/
def Warning.message : Warning → String
  | .unusable selector => "ignoring workspace selector `" ++ selector ++ "`"
  | .cloneFailed selector detail => "Warning: failed to clone " ++ selector ++ ": " ++ detail

/-- A place that is ready for a terminal, and what its user should know about it. -/
structure Prepared where
  place : Place
  warning : Option Warning := none
  deriving DecidableEq, Repr

/-- The name under which git keeps a repository in its checkout. -/
def gitName : String := ".git"

/-- The directory below which repositories are checked out, and the address that the short names of
repositories are meant from. -/
structure Preparer where
  rootPath : Bytes
  base : String
  deriving Repr

namespace Preparer

variable {σ : Type}

/-- The directory of a place. -/
def directory (p : Preparer) : Place → Bytes
  | .root => p.rootPath
  | .entry name => Path.joinBytes p.rootPath (Utf8.encode name)

/-- The path of a place as a text. -/
def path (p : Preparer) (place : Place) : String := Utf8.decodeLossy (p.directory place)

/-- Where git keeps the repository of a checkout. -/
def repository (p : Preparer) (name : String) : Bytes :=
  Path.joinBytes (p.directory (.entry name)) (Utf8.encode gitName)

/-- Prepares for a selector without white space around it. Nobody is told of a checkout that cannot
be updated. -/
def prepareSelector (p : Preparer) (sys : System σ) (world : σ) (selector : String) :
    σ × Prepared :=
  match name? selector with
  | none => (world, ⟨.root, some (.unusable selector)⟩)
  | some name =>
    if sys.has world (p.repository name) then
      ((sys.perform world (.pull (p.directory (.entry name)))).1, ⟨.entry name, none⟩)
    else
      match sys.perform world (.clone (source p.base selector) (p.path (.entry name))) with
      | (world, .ok ()) => (world, ⟨.entry name, none⟩)
      | (world, .error detail) => (world, ⟨.root, some (.cloneFailed selector detail)⟩)

/-- Prepares for a selector, if one is given. The root is made first, and nobody is told where that
fails. -/
def prepare (p : Preparer) (sys : System σ) (world : σ) (selector : Option String) : σ × Prepared :=
  let world := (sys.perform world (.makeDirectory p.rootPath)).1
  match selector.bind Text.content? with
  | none => (world, ⟨.root, none⟩)
  | some s => p.prepareSelector sys world s

end Preparer
end TermLink.Checkout
