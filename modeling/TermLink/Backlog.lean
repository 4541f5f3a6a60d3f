import TermLink.Bytes

/-!
# Backlogs

The most recent output of a terminal, kept for those who fetch it now and then. It holds at most
its ceiling; what is too much is lost from the front.
-/

namespace TermLink

/-- Recent output, oldest byte first. -/
structure Backlog where
  /-- The number of bytes that are kept, at least one. -/
  ceiling : Nat
  bytes : Bytes := []
  /-- The number of bytes lost so far. -/
  dropped : Nat := 0
  deriving DecidableEq, Repr

namespace Backlog

/-- The empty backlog with a ceiling, where zero counts as one. -/
def ofCeiling (c : Nat) : Backlog := { ceiling := max c 1 }

/-- The number of bytes held. -/
def size (b : Backlog) : Nat := b.bytes.length

/-- Adds output, and gives the number of bytes lost for it. -/
def push (b : Backlog) (chunk : Bytes) : Backlog × Nat :=
  let all := b.bytes ++ chunk
  let excess := all.length - b.ceiling
  ({ b with bytes := all.drop excess, dropped := b.dropped + excess }, excess)

/-- Gives all that is held and forgets it. -/
def drain (b : Backlog) : Backlog × Bytes := ({ b with bytes := [] }, b.bytes)

end Backlog
end TermLink
