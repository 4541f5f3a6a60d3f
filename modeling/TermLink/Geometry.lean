/-!
# Terminal sizes

A size travels as two signed numbers, so that a peer may ask for anything; a terminal resolves it
to columns and rows that it can have.
-/

namespace TermLink

/-- A requested terminal size. -/
structure Geometry where
  cols : Int64
  rows : Int64
  deriving DecidableEq, Repr, Inhabited

/-- The size of a terminal, which is at least one and at most 65535 each way once resolved. -/
structure Size where
  cols : Nat
  rows : Nat
  deriving DecidableEq, Repr, Inhabited

namespace Geometry

/-- The columns of a terminal for which none were asked. -/
def defaultCols : Nat := 80

/-- The rows of a terminal for which none were asked. -/
def defaultRows : Nat := 24

/-- The largest number of columns or rows. -/
def largest : Nat := 65535

/-- A requested length, or the fallback where it is not positive, cut at the largest. -/
def resolveLength (requested : Int64) (fallback : Nat) : Nat :=
  if requested.toInt ≤ 0 then fallback else min requested.toInt.toNat largest

/-- The size that a terminal takes for a request. -/
def resolve (g : Geometry) : Size :=
  ⟨resolveLength g.cols defaultCols, resolveLength g.rows defaultRows⟩

end Geometry
end TermLink
