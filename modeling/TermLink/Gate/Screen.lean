import TermLink.Message.Basic
import TermLink.Text.Utf8

/-!
# Screens

A screen is the terminal in front of which a client sits, as far as a gate writes to it. What the
terminal prints is passed on unchanged; the notices of the other parties become lines of text.
-/

namespace TermLink.Gate

/-- A client's screen. -/
structure Screen where
  /-- All that has been written. -/
  written : Bytes := []
  /-- How many more writes succeed, if that is limited. -/
  writesLeft : Option Nat := none
  deriving DecidableEq, Repr

namespace Screen

/-- Writes bytes, unless the client takes nothing more. -/
def write? (s : Screen) (bytes : Bytes) : Option Screen :=
  match s.writesLeft with
  | none => some { s with written := s.written ++ bytes }
  | some 0 => none
  | some (n + 1) => some ⟨s.written ++ bytes, some n⟩

/-- Writes a notice. It does not matter if the client takes nothing more. -/
def notify (s : Screen) (notice : String) : Screen := (s.write? (Utf8.encode notice)).getD s

end Screen

/-- The end of a line on a screen. -/
def lineEnd : String := "\r\n"

/-- What a message of the backend puts on the screen. Some kinds put nothing there. -/
def shown? : Message → Option Bytes
  | .data payload => some payload
  | .error text => some (Utf8.encode ("Error: " ++ text ++ lineEnd))
  | .status text => some (Utf8.encode ("\r" ++ text ++ lineEnd))
  | .init .. | .resize _ | .exit _ | .ping _ | .pong _ => none

end TermLink.Gate
