import TermLink.Http

/-!
# Targets of requests

A request is written with a target, which holds more than the path that is asked for: a query and
a fragment may follow the path, and a scheme and an authority may stand before it. Some texts are
no target at all.

## Implementation notes

A text that begins with neither a slash nor a scheme names an authority and has no path. Of the
faults of a text the first one counts, and what follows the authority is looked at last.
-/

namespace TermLink.Http

/-- Why a text is no target. -/
inductive TargetFault where
  | empty
  | tooLong
  | character
  | schemeTooLong
  | authority
  | format
  deriving DecidableEq, Repr

/-- The words for a fault. -/
def TargetFault.message : TargetFault → String
  | .empty => "empty string"
  | .tooLong => "uri too long"
  | .character => "invalid uri character"
  | .schemeTooLong => "scheme too long"
  | .authority => "invalid authority"
  | .format => "invalid format"

namespace Target

/-- The longest target in bytes. -/
def longest : Nat := 65534

/-- The longest name of a scheme. -/
def longestScheme : Nat := 64

/-- The characters of a scheme's name. -/
def isSchemeChar (c : Char) : Bool := c.isAlphanum || "+-.~".toList.contains c

/-- What follows a scheme, if the text begins with one. -/
def afterScheme? (cs : List Char) : Except TargetFault (Option (List Char)) :=
  let name := cs.takeWhile isSchemeChar
  match afterLead? "://".toList (cs.dropWhile isSchemeChar) with
  | none => .ok none
  | some rest =>
    if longestScheme < name.length then .error .schemeTooLong
    else if cs.length ≤ 3 then .ok none
    else .ok (some rest)

/-- The characters of an authority that have no meaning of their own. -/
def isAuthorityChar (c : Char) : Bool := c.isAlphanum || "!$&'()*+,-.;=_~".toList.contains c

/-- The characters that end an authority. -/
def endsAuthority (c : Char) : Bool := c = '/' || c = '?' || c = '#'

/-- What has been seen of an authority. -/
structure AuthorityScan where
  /-- The colons that may be in front of a service's number. -/
  colons : Nat := 0
  opened : Bool := false
  closed : Bool := false
  /-- Whether an escape was seen that is not part of a user's name. -/
  escaped : Bool := false
  /-- Whether the last character was the one that ends a user's name. -/
  atUser : Bool := false

/-- The largest number of colons in an address between brackets. -/
def mostColons : Nat := 8

/-- Reads a character of an authority. -/
def AuthorityScan.step (s : AuthorityScan) (c : Char) : Except TargetFault AuthorityScan :=
  let next := { s with atUser := false }
  if c = ':' then
    if mostColons ≤ s.colons then .error .authority else .ok { next with colons := s.colons + 1 }
  else if c = '[' then
    if s.escaped || s.opened then .error .authority else .ok { next with opened := true }
  else if c = ']' then
    if !s.opened || s.closed then .error .authority
    else .ok { next with closed := true, colons := 0, escaped := false }
  else if c = '@' then .ok { next with atUser := true, colons := 0, escaped := false }
  else if c = '%' then .ok { next with escaped := true }
  else if isAuthorityChar c then .ok next
  else .error .character

/-- Whether an authority may end here. -/
def AuthorityScan.isComplete (s : AuthorityScan) : Bool :=
  s.opened = s.closed && s.colons ≤ 1 && !s.atUser && !s.escaped

/-- Checks the authority at the beginning of a text, and gives it and what follows it. -/
def splitAuthority (cs : List Char) : Except TargetFault (List Char × List Char) := do
  let (name, rest) := cs.span fun c => !endsAuthority c
  let s ← name.foldlM AuthorityScan.step {}
  if s.isComplete then .ok (name, rest) else .error .authority

/-- The characters of a path. -/
def isPathChar (c : Char) : Bool := '!' ≤ c && c ∉ ['#', '<', '>', '?', '\x60']

/-- The characters of a query. -/
def isQueryChar (c : Char) : Bool := '!' ≤ c && c ∉ ['\x22', '#', '<', '>']

/-- The path at the beginning of a text in which only a query and a fragment may follow it. An
empty path is a slash. -/
def pathFrom (cs : List Char) : Except TargetFault String :=
  let (path, rest) := cs.span fun c => c ≠ '?' && c ≠ '#'
  let query := match rest with
    | '?' :: more => more.takeWhile (· ≠ '#')
    | _ => []
  if path.all isPathChar && query.all isQueryChar then
    .ok (if path = [] then "/" else String.ofList path)
  else .error .character

/-- The path of a target. An authority alone has an empty one. -/
def path (target : String) : Except TargetFault String :=
  if longest < target.utf8ByteSize then .error .tooLong
  else match target.toList with
    | [] => .error .empty
    | ['*'] => .ok "*"
    | '/' :: rest => pathFrom ('/' :: rest)
    | cs => do
      match ← afterScheme? cs with
      | some rest =>
        let (name, rest) ← splitAuthority rest
        if name = [] then .error .format else pathFrom rest
      | none =>
        let (_, rest) ← splitAuthority cs
        if rest = [] then .ok ""
        else .error (if cs.length = 1 then .character else .format)

end Target

/-- Why a request cannot be sent. -/
inductive Unsendable where
  | method
  | target (cause : TargetFault)
  deriving DecidableEq, Repr

/-- The words for what is wrong with a request. -/
def Unsendable.message : Unsendable → String
  | .method => "invalid HTTP method"
  | .target cause => cause.message

/-- Whether a text is a method's name. -/
def isMethod (name : String) : Bool := name ≠ "" && name.toList.all Header.isNameChar

/-- The request for a target, if it can be sent. -/
def Request.ofTarget (method target : String) (headers : Headers) (body : Bytes) :
    Except Unsendable Request :=
  if isMethod method then
    match Target.path target with
    | .ok path => .ok { method, path, body, headers }
    | .error cause => .error (.target cause)
  else .error .method

end TermLink.Http
