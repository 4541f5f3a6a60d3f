import TermLink.Sequence
import TermLink.Text.Integer

/-!
# Command lines

The grammar of the programs' command lines: options that take one value, `--help` and `--version`,
operands, and words that lead to a command of their own. An option that is not given takes its
value from a variable, and else its fallback.

## Implementation notes

A value after an equals sign is checked at once. One that is an argument of its own is checked only
when the next option or operand begins, or at the end, so of two faults in a line the earlier one
need not be the one reported. `pending` is the option whose value has not been checked.
-/

namespace TermLink.CommandLine

/-- Why a command line does not lead to a run. -/
inductive Usage where
  | unknownArgument
  /-- A word that is none of those allowed, or a value that is missing or empty. -/
  | invalidValue
  /-- A number that cannot be read. -/
  | unreadableNumber
  /-- An option given twice. -/
  | repeatedOption
  /-- A value for an option that takes none. -/
  | surplusValue
  | missingOperand
  | unknownCommand
  | helpRequested
  | versionRequested
  /-- A command that must be followed by another was not. -/
  | commandExpected
  deriving DecidableEq, Repr

/-- The words for a fault. -/
def Usage.message : Usage → String
  | .unknownArgument => "unknown argument"
  | .invalidValue => "a value is missing or not allowed"
  | .unreadableNumber => "a number cannot be read"
  | .repeatedOption => "an option is given twice"
  | .surplusValue => "an option has a value that it does not take"
  | .missingOperand => "an operand is missing"
  | .unknownCommand => "unknown command"
  | .helpRequested => "help was asked for"
  | .versionRequested => "the version was asked for"
  | .commandExpected => "a command is missing"

/-- What an option's value may be. -/
inductive Domain where
  | text
  /-- A path, which is not empty. -/
  | path
  | boolean
  | choice (words : List String)
  /-- A number of at most 64 bits. -/
  | number
  deriving DecidableEq, Repr

/-- The value of an option. -/
inductive Value where
  | text (s : String)
  | boolean (b : Bool)
  | number (n : Nat)
  deriving DecidableEq, Repr

/-- The value that a text spells. -/
def Domain.read (d : Domain) (s : String) : Except Usage Value :=
  match d with
  | .text => .ok (.text s)
  | .path => if s = "" then .error .invalidValue else .ok (.text s)
  | .boolean =>
    if s = "true" then .ok (.boolean true)
    else if s = "false" then .ok (.boolean false)
    else .error .invalidValue
  | .choice words => if s ∈ words then .ok (.text s) else .error .invalidValue
  | .number =>
    match Text.word64? s with
    | some n => .ok (.number n)
    | none => .error .unreadableNumber

/-- An option that takes one value. -/
structure Opt where
  /-- What follows the two hyphens. -/
  name : String
  variableName : String
  domain : Domain := .text
  fallback : Option Value := none
  deriving DecidableEq, Repr

/-- The operands of a command. -/
inductive Operands where
  | none
  /-- Exactly one. -/
  | one
  /-- Any number. The first argument that is nothing else begins them, with hyphens or without, and
  all that follows belongs to them. -/
  | rest
  deriving DecidableEq, Repr

/-- A command: the words that lead to it, and what may follow them. -/
structure Command where
  path : List String := []
  options : List Opt := []
  hasVersion : Bool := false
  operands : Operands := .none
  deriving DecidableEq, Repr

/-- The paths of all commands of a program. -/
abbrev Menu := List (List String)

/-- The command that explains the others, which is there wherever there are others. -/
def helpWord : String := "help"

/-- The words that lead from a path to further commands. -/
def Menu.words (m : Menu) (path : List String) : List String :=
  m.filterMap fun p =>
    match afterLead? path p with
    | some [word] => some word
    | _ => none

/-- The values of variables by name. -/
abbrev Variables := List (String × String)

/-- What has been read of a command line. -/
structure Reading where
  given : List (String × Value) := []
  pending : Option (Opt × Option String) := none
  operands : List String := []
  /-- Whether only operands can follow. -/
  trailing : Bool := false
  deriving Repr

namespace Reading

/-- The option that waits for its value in the next argument. -/
def awaiting? (r : Reading) : Option Opt :=
  match r.pending with
  | some (o, none) => some o
  | _ => none

/-- Gives an option a value of its domain, unless it has been given one before. -/
def give (r : Reading) (o : Opt) (s : String) : Except Usage Reading :=
  if (r.given.lookup o.name).isSome then .error .repeatedOption
  else do
    let v ← o.domain.read s
    .ok { r with given := r.given ++ [(o.name, v)], pending := none }

/-- Checks the option that is pending, which must have a value. -/
def resolve (r : Reading) : Except Usage Reading :=
  match r.pending with
  | none => .ok r
  | some (_, none) => .error .invalidValue
  | some (o, some s) => r.give o s

/-- Begins an option, with its value if the same argument holds it. -/
def beginOption (r : Reading) (o : Opt) (value : Option String) : Except Usage Reading := do
  let r ← r.resolve
  match value with
  | some s => r.give o s
  | none => .ok { r with pending := some (o, none) }

/-- Answers a request for help or the version, once what came before has been checked. -/
def stop (r : Reading) (request : Usage) : Except Usage Reading := do
  let _ ← r.resolve
  .error request

/-- Takes an argument as an operand. -/
def operand (r : Reading) (c : Command) (words : List String) (s : String) :
    Except Usage Reading :=
  match c.operands with
  | .rest => do
    let r ← r.resolve
    .ok { r with operands := r.operands ++ [s], trailing := true }
  | .one =>
    if r.operands = [] then do
      let r ← r.resolve
      .ok { r with operands := [s] }
    else .error .unknownArgument
  | .none =>
    if words = [] ∨ (r.trailing ∧ s ∈ words) then .error .unknownArgument
    else .error .unknownCommand

/-- Takes an argument as the value that is awaited, or else as an operand. -/
def plain (r : Reading) (c : Command) (words : List String) (s : String) :
    Except Usage Reading :=
  match r.awaiting? with
  | some o => .ok { r with pending := some (o, some s) }
  | none => r.operand c words s

/-- Takes an argument that looks like an option but is none. -/
def unknown (r : Reading) (c : Command) (words : List String) (s : String) :
    Except Usage Reading :=
  if c.operands = .rest then r.plain c words s else .error .unknownArgument

/-- Takes an argument of two hyphens, a name, and perhaps an equals sign and a value. -/
def long (r : Reading) (c : Command) (words : List String) (s : String) (body : List Char) :
    Except Usage Reading :=
  let name := String.ofList (body.takeWhile (· ≠ '='))
  let value :=
    match body.dropWhile (· ≠ '=') with
    | [] => none
    | _ :: v => some (String.ofList v)
  match c.options.find? (·.name = name) with
  | some o => r.beginOption o value
  | none =>
    let request :=
      if name = "help" then some Usage.helpRequested
      else if name = "version" ∧ c.hasVersion then some Usage.versionRequested
      else none
    match request, value with
    | some u, none => r.stop u
    | some _, some _ => .error .surplusValue
    | none, _ => r.unknown c words s

/-- What a letter after one hyphen asks for. -/
def letter? (c : Command) (l : Char) : Option Usage :=
  if l = 'h' then some .helpRequested
  else if l = 'V' ∧ c.hasVersion then some .versionRequested
  else none

/-- Takes an argument of one hyphen and letters. -/
def short (r : Reading) (c : Command) (words : List String) (s : String) (letters : List Char) :
    Except Usage Reading :=
  if c.operands = .rest ∧ letters.any (fun l => (letter? c l).isNone) then r.plain c words s
  else
    match letters.head?.bind (letter? c) with
    | some u => r.stop u
    | none => r.unknown c words s

/-- Takes an argument that is no command. -/
def take (r : Reading) (c : Command) (words : List String) (s : String) : Except Usage Reading :=
  if r.trailing then r.operand c words s
  else
    match s.toList with
    | ['-', '-'] => .ok { r with trailing := true }
    | '-' :: '-' :: body => r.long c words s body
    | '-' :: l :: letters => r.short c words s (l :: letters)
    | _ => r.plain c words s

/-- Takes the values of variables for the options that were not given. -/
def takeVariables (r : Reading) (env : Variables) : List Opt → Except Usage Reading
  | [] => .ok r
  | o :: rest =>
    match r.given.lookup o.name, env.lookup o.variableName with
    | none, some s => do
      let r ← r.give o s
      r.takeVariables env rest
    | _, _ => r.takeVariables env rest

/-- Completes the reading of a command. -/
def finish (r : Reading) (c : Command) (env : Variables) : Except Usage Reading := do
  let r ← r.resolve
  let r ← r.takeVariables env c.options
  if c.operands = .one ∧ r.operands = [] then .error .missingOperand else .ok r

/-- The value of an option: the one given, or the fallback. -/
def value? (r : Reading) (o : Opt) : Option Value := (r.given.lookup o.name) <|> o.fallback

/-- The text of an option; the empty one where there is none. -/
def text (r : Reading) (o : Opt) : String :=
  match r.value? o with
  | some (.text s) => s
  | _ => ""

/-- The text of an option that may be left out. -/
def text? (r : Reading) (o : Opt) : Option String :=
  match r.value? o with
  | some (.text s) => some s
  | _ => none

/-- The number of an option; zero where there is none. -/
def number (r : Reading) (o : Opt) : Nat :=
  match r.value? o with
  | some (.number n) => n
  | _ => 0

/-- The truth value of an option; false where there is none. -/
def boolean (r : Reading) (o : Opt) : Bool :=
  match r.value? o with
  | some (.boolean b) => b
  | _ => false

end Reading

/-- Where the arguments of a command end. -/
inductive Outcome where
  | ended (r : Reading)
  /-- A word led to another command, which the rest belongs to. -/
  | command (r : Reading) (word : String) (rest : List String)

/-- Explains the command that the words lead to from a path. -/
def explain (m : Menu) (path words : List String) : Usage :=
  if words = [] ∨ path ++ words ∈ m then .helpRequested else .unknownCommand

/-- Reads the arguments of a command up to a word that leads to another. -/
def readFrom (m : Menu) (c : Command) (r : Reading) : List String → Except Usage Outcome
  | [] => .ok (.ended r)
  | s :: rest =>
    let words := m.words c.path
    if !r.trailing && r.awaiting?.isNone && words.contains s then
      if s = helpWord then .error (explain m c.path rest) else .ok (.command r s rest)
    else
      match r.take c words s with
      | .ok next => readFrom m c next rest
      | .error e => .error e

/-- Reads the arguments of a command. -/
def read (m : Menu) (c : Command) (args : List String) : Except Usage Outcome :=
  readFrom m c {} args

end TermLink.CommandLine
