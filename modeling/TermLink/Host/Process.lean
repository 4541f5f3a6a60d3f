import TermLink.Host.Basic

/-!
# The process of a terminal

What a terminal's process is started with, besides its directory, and what is known of its end.
-/

namespace TermLink.Host

/-- The variables that are set for the process. -/
def processVariables : List (String × String) :=
  [("TERM", "xterm-256color"), ("COLORTERM", "truecolor")]

/-- Why a program could not be started. -/
def spawnFailure (program : String) : String := "spawn `" ++ program ++ "` in PTY"

/-- The code with which a process has ended. Only the lowest byte of the number that it gives is
kept. -/
def exitCode (given : Int) : Int32 := Int32.ofInt (given % 256)

end TermLink.Host
