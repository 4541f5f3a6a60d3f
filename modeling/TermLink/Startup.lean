import TermLink.Gate.HostKey
import TermLink.SocketAddress

/-!
# Starting the programs

What each program needs before it can serve, and what is said when it does not get it. A host and
an edge only need their address. A gate first opens the store of keys, then loads its own key, and
then takes its address.
-/

namespace TermLink.Startup

/-- Why a program cannot serve. -/
inductive Failure where
  | bind (address : SocketAddress)
  | keyStore
  | hostKey (cause : Gate.HostKey.Fault)
  /-- A gate's address is not to be had. -/
  | server
  deriving DecidableEq, Repr

/-- The words for a failure. -/
def Failure.message : Failure → String
  | .bind address => "failed to bind " ++ address.render
  | .keyStore => "failed to open key registry"
  | .hostKey cause => cause.message
  | .server => "ssh server failed"

/-- How a start ended, and what files there are after it. -/
structure Result where
  failure : Option Failure
  files : FileTree

/-- Starts a host or an edge. -/
def plain (files : FileTree) (address : SocketAddress) (addressIsLocal : Bool) : Result :=
  { failure := if addressIsLocal then none else some (.bind address), files }

/-- Opens the store at a path, which is made if there is none. -/
def openStore? (files : FileTree) (path : String) : Option FileTree := do
  let files ← files.makeDirectories? (Path.parent path)
  if files.has path then some files else files.create? path .file

/-- Starts a gate. `isKey` says whether what there is at the key's path is a usable key. -/
def gate (files : FileTree) (storePath keyPath : String) (isKey addressIsLocal : Bool) : Result :=
  match openStore? files storePath with
  | none => { failure := some .keyStore, files }
  | some files =>
    match Gate.HostKey.ensure files keyPath isKey with
    | .error cause => { failure := some (.hostKey cause), files }
    | .ok files => { failure := if addressIsLocal then none else some .server, files }

end TermLink.Startup
