import TermLink.Program

/-!
# The command line

`gate`, `host` or `edge`, followed by that program's own options: writes the settings with which
the program would run, or says on the error stream why it cannot.
-/

namespace TermLink

/-- The program that a word names. -/
def Program.ofWord? : String → Option Program
  | "gate" => some .gate
  | "host" => some .host
  | "edge" => some .edge
  | _ => none

/-- The exit status where a program cannot run as it was told to. -/
def Program.Fault.status : Program.Fault → UInt32
  | .usage .helpRequested | .usage .versionRequested => 0
  | .usage _ => 2
  | _ => 1

/-- The variables that are set, of those that some program reads. -/
def readVariables : IO CommandLine.Variables :=
  Program.variableNames.filterMapM fun name => do
    return (← IO.getEnv name).map fun value => (name, value)

/-- Writes the settings of a program. -/
def report (p : Program) (args : List String) : IO UInt32 := do
  match p.configure args (← readVariables) with
  | .ok settings =>
    IO.println (String.ofList settings.render)
    return 0
  | .error fault =>
    IO.eprintln fault.message
    return fault.status

end TermLink

def main (args : List String) : IO UInt32 := do
  match args with
  | word :: rest =>
    match TermLink.Program.ofWord? word with
    | some p => TermLink.report p rest
    | none =>
      IO.eprintln "expected gate, host or edge"
      return 2
  | [] =>
    IO.eprintln "expected gate, host or edge"
    return 2
