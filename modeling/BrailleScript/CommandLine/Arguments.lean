/-!
# Arguments of the command line

Options may stand before or behind the command they belong to; the values of an option follow it
as the next argument or behind an equals sign.  Two dashes alone end the options.
-/

namespace BrailleScript.CommandLine

/-- What is to be done. -/
inductive Command where
  | run (input : String) (report cache bundle : Option String) (trace : Bool)
  | compile (input : String) (out : Option String)
  | tokens (input : String)
  | tree (input : String)
  | spell (input : String) (out : Option String)
  | encode (text : String)
  | decode (cells : String)
  deriving Repr, DecidableEq

/-- What a command line asks for. -/
structure Invocation where
  prettyErrors : Bool
  config : Option String
  command : Command
  deriving Repr, DecidableEq

/-- Why arguments are not understood. -/
inductive UsageError where
  | noCommand
  | unknownCommand (name : String)
  | unexpected (arg : String)
  | missingValue (option : String)
  | repeated (option : String)
  | missingArgument (name : String)
  deriving Repr, DecidableEq

namespace UsageError

/-- The words in which a wrong command line is refused. -/
def message : UsageError → String
  | noCommand => "no command is given"
  | unknownCommand name => "unrecognized subcommand '" ++ name ++ "'"
  | unexpected arg => "unexpected argument '" ++ arg ++ "' found"
  | missingValue option => "a value is required for '" ++ option ++ "' but none was supplied"
  | repeated option => "the argument '" ++ option ++ "' cannot be used multiple times"
  | missingArgument name => "the following required arguments were not provided: " ++ name

end UsageError

/-- The options that take a value. -/
inductive ValueOption where
  | config | report | cache | bundle | out
  deriving Repr, DecidableEq

/-- The options that stand alone. -/
inductive FlagOption where
  | prettyErrors | trace
  deriving Repr, DecidableEq

/-- The option as it is written on the command line. -/
def ValueOption.name : ValueOption → String
  | config => "--config"
  | report => "--report"
  | cache => "--cache"
  | bundle => "--export"
  | out => "--out"

/-- The flag as it is written on the command line. -/
def FlagOption.name : FlagOption → String
  | prettyErrors => "--pretty-errors"
  | trace => "--trace"

/-- The options a command has beside those of all commands. -/
def valueOptions : String → List ValueOption
  | "run" => [.config, .report, .cache, .bundle]
  | "compile" | "spell" => [.config, .out]
  | _ => [.config]

/-- The flags that a command knows. -/
def flagOptions : String → List FlagOption
  | "run" => [.prettyErrors, .trace]
  | _ => [.prettyErrors]

/-- What was read so far. -/
structure Draft where
  /-- The command; empty before it is known. -/
  command : String := ""
  values : List (ValueOption × String) := []
  flags : List FlagOption := []
  positional : List String := []

/-- The commands, in the order in which they are listed. -/
def commandNames : List String :=
  ["run", "compile", "tokens", "ast", "spell", "encode", "decode"]

namespace Draft

/-- Keeps the value of an option, which is given once at most. -/
def setValue (d : Draft) (o : ValueOption) (value : String) : Except UsageError Draft :=
  if d.values.any (·.1 == o) then .error (.repeated o.name)
  else .ok { d with values := d.values ++ [(o, value)] }

/-- Keeps a flag, which is given once at most. -/
def setFlag (d : Draft) (f : FlagOption) : Except UsageError Draft :=
  if d.flags.contains f then .error (.repeated f.name) else .ok { d with flags := d.flags ++ [f] }

/-- An argument that is no option: the command, or one of its arguments. -/
def addPositional (d : Draft) (arg : String) : Except UsageError Draft :=
  if d.command = "" then
    if commandNames.contains arg then .ok { d with command := arg }
    else .error (.unknownCommand arg)
  else if d.positional.isEmpty then .ok { d with positional := [arg] }
  else .error (.unexpected arg)

end Draft

/-- The part of a text up to the first equals sign, and the part behind it. -/
def splitEquals (cs : List Char) : List Char × Option (List Char) :=
  match cs.dropWhile (· != '=') with
  | [] => (cs, none)
  | _ :: value => (cs.takeWhile (· != '='), some value)

/-- What an argument is, as far as the command is known. -/
inductive ArgKind where
  | flag (f : FlagOption)
  /-- An option with its value, if that is part of the argument. -/
  | value (o : ValueOption) (given : Option String)
  | positional
  | endOfOptions
  | unknown

/-- A long option, given without its dashes. -/
def longOption (command : String) (cs : List Char) : ArgKind :=
  let (name, given) := splitEquals cs
  let full := "--" ++ String.ofList name
  match (valueOptions command).find? (·.name == full) with
  | some o => .value o (given.map String.ofList)
  | none =>
    match (flagOptions command).find? (·.name == full), given with
    | some f, none => .flag f
    | _, _ => .unknown

/-- What an argument is, by its first characters and the options of the command. -/
def classify (command arg : String) : ArgKind :=
  match arg.toList with
  | ['-', '-'] => .endOfOptions
  | '-' :: '-' :: rest => longOption command rest
  | ['-'] => .positional
  -- `-o` is the only short option, and its value may follow at once
  | '-' :: 'o' :: rest =>
    if (valueOptions command).contains .out then
      match rest with
      | [] => .value .out none
      | '=' :: value => .value .out (some (String.ofList value))
      | value => .value .out (some (String.ofList value))
    else .unknown
  | '-' :: _ => .unknown
  | _ => .positional

/-- Whether an argument can be the value of the option before it. -/
def isValue (arg : String) : Bool :=
  match arg.toList with
  | '-' :: _ :: _ => false
  | _ => true

/-- Reads the arguments that are left. -/
def readArgs (d : Draft) : List String → Except UsageError Draft
  | [] => .ok d
  | arg :: rest =>
    match classify d.command arg with
    | .flag f => do readArgs (← d.setFlag f) rest
    | .value o (some v) => do readArgs (← d.setValue o v) rest
    | .value o none =>
      match rest with
      | v :: rest => if isValue v then do readArgs (← d.setValue o v) rest else .error (.missingValue o.name)
      | [] => .error (.missingValue o.name)
    | .positional => do readArgs (← d.addPositional arg) rest
    -- behind `--` nothing is an option
    | .endOfOptions => rest.foldlM Draft.addPositional d
    | .unknown => .error (.unexpected arg)

/-- The command of a draft. -/
def Draft.toCommand (d : Draft) : Except UsageError Command := do
  if d.command = "" then throw .noCommand
  let some input := d.positional.head? | throw (.missingArgument "<INPUT>")
  let value (o : ValueOption) : Option String := d.values.lookup o
  match d.command with
  | "run" =>
    return .run input (value .report) (value .cache) (value .bundle) (d.flags.contains .trace)
  | "compile" => return .compile input (value .out)
  | "tokens" => return .tokens input
  | "ast" => return .tree input
  | "spell" => return .spell input (value .out)
  | "encode" => return .encode input
  | _ => return .decode input

/-- What the arguments ask for. -/
def parseArgs (args : List String) : Except UsageError Invocation := do
  let d ← readArgs {} args
  return ⟨d.flags.contains .prettyErrors, d.values.lookup .config, ← d.toCommand⟩

end BrailleScript.CommandLine
