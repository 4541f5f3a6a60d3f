import TermLink.Text.Blank

/-!
# Selectors

A selector names the repository in whose checkout a terminal starts, as `user/repo`. People write
the address of a GitHub repository in several ways; all of them are reduced to that form.

## Implementation notes

In an address both parts may hold any character but a slash. Only the bare form limits them to the
letters, digits and marks of a GitHub name.
-/

namespace TermLink.Selector

/-- The ending of a repository's name that an address may carry. -/
def gitEnding : List Char := ['.', 'g', 'i', 't']

/-- The characters of a bare selector's parts. -/
def isNameChar (c : Char) : Bool :=
  c.isAlphanum || c = '_' || c = '.' || c = '-'

/-- A name without one `.git` at its end, unless nothing else is left. -/
def dropGitEnding (name : List Char) : List Char :=
  match beforeTail? gitEnding name with
  | some (c :: rest) => c :: rest
  | _ => name

/-- The two parts around the only slash, neither of them empty. -/
def parts? (cs : List Char) : Option (List Char × List Char) :=
  match cs.span (· ≠ '/') with
  | (user, '/' :: repo) => if user ≠ [] ∧ repo ≠ [] ∧ '/' ∉ repo then some (user, repo) else none
  | _ => none

/-- The beginning of an address, and whether a slash may end the address. -/
structure Host where
  lead : List Char
  endSlash : Bool

/-- The ways to name the host, in the order in which they are tried. -/
def hosts : List Host :=
  [⟨"http://github.com/".toList, true⟩, ⟨"https://github.com/".toList, true⟩,
    ⟨"git@github.com:".toList, false⟩, ⟨"github.com/".toList, true⟩]

/-- The selector of an address on a host. -/
def Host.parse? (h : Host) (cs : List Char) : Option (List Char) := do
  let path ← afterLead? h.lead cs
  let path := if h.endSlash then (beforeTail? ['/'] path).getD path else path
  let (user, repo) ← parts? path
  some (user ++ '/' :: dropGitEnding repo)

/-- The selector that is written out. -/
def parseBare? (cs : List Char) : Option (List Char) := do
  let (user, repo) ← parts? cs
  if user.all isNameChar && repo.all isNameChar then some cs else none

/-- The selector for a repository's address or name, with white space around it. -/
def parse? (input : String) : Option String :=
  let cs := (Text.trimmed input).toList
  ((hosts.findSome? fun h => h.parse? cs) <|> parseBare? cs).map String.ofList

/-- The selector in a command: its first word, if that is one. -/
def ofCommand? (command : String) : Option String := parse? (Text.firstWord command)

end TermLink.Selector
