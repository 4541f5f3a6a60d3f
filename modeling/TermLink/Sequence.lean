/-!
# Parts of sequences

Stripping, cutting and finding parts of a list, as bytes and texts both need it.
-/

namespace TermLink

variable {α : Type}

/-- Removes every leading and every trailing element that satisfies `p`. -/
def trim (p : α → Bool) (xs : List α) : List α :=
  ((xs.dropWhile p).reverse.dropWhile p).reverse

/-- Removes every trailing element that satisfies `p`. -/
def trimEnd (p : α → Bool) (xs : List α) : List α :=
  (xs.reverse.dropWhile p).reverse

/-- What follows `lead`, if the list begins with it. -/
def afterLead? [DecidableEq α] : List α → List α → Option (List α)
  | [], xs => some xs
  | _ :: _, [] => none
  | a :: lead, x :: xs => if a = x then afterLead? lead xs else none

/-- What precedes `tail`, if the list ends with it. -/
def beforeTail? [DecidableEq α] (tail xs : List α) : Option (List α) :=
  (afterLead? tail.reverse xs.reverse).map List.reverse

/-- Whether the list begins with `lead`. -/
def beginsWith [DecidableEq α] (lead xs : List α) : Bool := (afterLead? lead xs).isSome

/-- Whether `part` occurs somewhere in the list. -/
def occurs [DecidableEq α] (part : List α) : List α → Bool
  | [] => part.isEmpty
  | x :: rest => beginsWith part (x :: rest) || occurs part rest

/-- The pieces between the elements that satisfy `p`, of which there is always one more than such
elements. -/
def pieces (p : α → Bool) (xs : List α) : List (List α) :=
  xs.foldr
    (fun x rest =>
      if p x then [] :: rest
      else match rest with
        | [] => [[x]]
        | piece :: more => (x :: piece) :: more)
    [[]]

end TermLink
