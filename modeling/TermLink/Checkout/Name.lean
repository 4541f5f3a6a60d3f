import TermLink.Path

/-!
# Names of checkouts

The directory in which a repository is checked out is named for the last part of its address, and
the address from which it is cloned is the selector itself or its path on a base address.
-/

namespace TermLink.Checkout

/-- The characters that divide an address into parts. -/
def isDivider (c : Char) : Bool := c = '/' || c = ':'

/-- Removes every `.git` at the front of a name that is held last character first. -/
def dropGitEndings : List Char → List Char
  | 't' :: 'i' :: 'g' :: '.' :: rest => dropGitEndings rest
  | name => name

/-- The last part of an address, without slashes after it and without any `.git` at its end. -/
def lastPart (address : List Char) : List Char :=
  let part := (address.reverse.dropWhile (· = '/')).takeWhile fun c => !isDivider c
  (dropGitEndings part).reverse

/-- The name of a repository's directory, if the address gives a usable one. -/
def name? (address : String) : Option String :=
  let part := lastPart address.toList
  if part = [] ∨ part = ['.'] ∨ part = ['.', '.'] then none else some (String.ofList part)

/-- The beginnings of the addresses that say by themselves where the repository is. -/
def fullAddressLeads : List (List Char) :=
  ["http://".toList, "https://".toList, "git@".toList, "file://".toList]

/-- Whether an address says by itself where the repository is. -/
def isFullAddress (address : String) : Bool :=
  fullAddressLeads.any fun lead => beginsWith lead address.toList

/-- The address from which a repository is cloned. -/
def source (base selector : String) : String :=
  if isFullAddress selector then selector else Path.withSlash base ++ selector

end TermLink.Checkout
