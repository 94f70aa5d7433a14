import BrailleScript.CommandLine.Arguments
import BrailleScript.CommandLine.Console
import BrailleScript.Config
import BrailleScript.Diagnostic
import BrailleScript.JavaScript.Compiler
import BrailleScript.Machine.Execution
import BrailleScript.Toml.Report

/-!
# The command line

What each command does with the files it is given.  A command ends with an exit code, or with a
complaint, which is code 1.
-/

namespace BrailleScript.CommandLine

open CommandLine.Action

/-- What a command needs to know of its surroundings. -/
structure Surroundings where
  /-- The home directory. -/
  home : Option String
  /-- The time at which it starts. -/
  now : Instant
  /-- The bound on the steps of a program. -/
  bound : Nat

/-- Where the configuration is looked for if it is not named. -/
def defaultConfig (s : Surroundings) : Option String :=
  s.home.map (· ++ "/.cellscript/config.toml")

/-- Reads the configuration from a file. -/
def loadConfigFile (path : String) : Action Config := do
  let document ← readFile ("reading config " ++ path) path
  ofExcept (fun e => ⟨"in " ++ path, ["parsing config", e.display document]⟩) (Config.read document)

/-- The configuration: a named file must be there, the default one need not. -/
def loadConfig (s : Surroundings) : Option String → Action Config
  | some path => loadConfigFile path
  | none => do
    match defaultConfig s with
    | some path =>
      if (← get).files.isFile (Path.parts path) then loadConfigFile path else return {}
    | none => return {}

/-- The text of an input file. -/
def readInput (path : String) : Action String :=
  readFile ("reading " ++ path) path

/-- Shows an error of a source; the exit code is 1. -/
def reportError (path source : String) (pretty : Bool) (e : Error) : Action UInt32 := do
  err (Diagnostic.report path source e pretty)
  return 1

/-- Imports a bundle. -/
def importBundle (ledger : Ledger) (path : String) : Action Ledger := do
  let purpose := "importing " ++ path
  let ioCauses (e : FileError) : List String := ["bundle i/o failed: " ++ e.message, e.message]
  let text ← ofExcept (fun e => (⟨purpose, ioCauses e⟩ : Complaint)) ((← get).files.read path)
  let complain (e : BundleError) : Complaint :=
    ⟨purpose, e.message :: match e with
      | .notJson inner => [inner.message]
      | .unsupported _ => []⟩
  let bundle ← ofExcept complain (Bundle.read text)
  ofExcept complain (ledger.load bundle)

/-- Shows what a run printed and how it failed. -/
def showOutcome (path source : String) (pretty : Bool) (o : Outcome) (m : Machine) : Action UInt32 := do
  match o with
  | .finished e =>
    out (String.join (e.output.map (· ++ "\n")))
    return 0
  | .failed e =>
    out (String.join (m.output.toList.map (· ++ "\n")))
    reportError path source pretty e
  -- the exit code of a program that has broken down
  | .conflict | .exhausted =>
    out (String.join (m.output.toList.map (· ++ "\n")))
    return 101

/-- Runs a program and shows what it printed; the report, the bundle and the log are written as
asked. -/
def runProgram (s : Surroundings) (config : Config) (pretty : Bool) (input : String)
    (report cache exported : Option String) (trace : Bool) : Action UInt32 := do
  let source ← readInput input
  let ledger ←
    match cache with
    | some path => importBundle (.start s.now.sessionName config.ledger) path
    | none => pure (.start s.now.sessionName config.ledger)
  let backend ← ofExcept (fun message => ⟨message, []⟩) config.backend.backend
  let machine := Machine.fresh config.interpreter ledger backend fun _ => s.now
  let (outcome, machine) := machine.runSource s.bound source
  -- what is asked for besides is written however the run ended
  let code ← showOutcome input source pretty outcome machine
  if trace then err machine.ledger.log
  if let some path := report then
    writeFile ("writing report " ++ path) id path machine.ledger.report.pretty
  if let some path := exported then
    writeFile ("exporting bundle " ++ path) (fun cs => cs.map ("bundle i/o failed: " ++ ·) ++ cs) path
      machine.ledger.toBundle.toJson.pretty
  return code

/-- Compiles a program and writes the code beside it or where it is wanted. -/
def compileProgram (config : Config) (pretty : Bool) (input : String) (target : Option String) :
    Action UInt32 := do
  let target := target.getD (Path.withExtension "js" input)
  let source ← readInput input
  match parseSource config.interpreter.lenientLiterals source with
  | .error e => reportError input source pretty e
  | .ok tree =>
    let options : JavaScript.EmitOptions :=
      { maxLoopIterations := config.interpreter.maxLoopIterations }
    writeFile ("writing " ++ target) id target (JavaScript.Compiler.compile options tree)
    out ("compiled: wrote " ++ target ++ "\n")
    return 0

/-- Prints the tokens of a program, one in a line. -/
def showTokens (config : Config) (pretty : Bool) (input : String) : Action UInt32 := do
  let source ← readInput input
  match tokenize config.interpreter.lenientLiterals source with
  | .error e => reportError input source pretty (.lexing e)
  | .ok tokens =>
    out (String.join (tokens.map (·.line ++ "\n")))
    return 0

/-- Prints the tree of a program. -/
def showTree (config : Config) (pretty : Bool) (input : String) : Action UInt32 := do
  let source ← readInput input
  match parseSource config.interpreter.lenientLiterals source with
  | .error e => reportError input source pretty e
  | .ok tree =>
    out (tree.tree ++ "\n")
    return 0

/-- Spells a readable text in cells and prints or writes them. -/
def spellText (input : String) (target : Option String) : Action UInt32 := do
  let cells := Readable.spell (← readInput input)
  match target with
  | some path => writeFile ("writing " ++ path) id path cells
  | none => out cells
  return 0

/-- Does what an invocation asks for and gives the exit code. -/
def perform (s : Surroundings) (i : Invocation) : Action UInt32 := do
  match i.command with
  | .encode text =>
    out (Cell.encodeText text ++ "\n")
    return 0
  | .decode cells =>
    out (Cell.decodeText (Text.trim cells) ++ "\n")
    return 0
  | .spell input target => spellText input target
  | .run input report cache exported trace =>
    let config ← loadConfig s i.config
    runProgram s config i.prettyErrors input report cache exported trace
  | .compile input target =>
    let config ← loadConfig s i.config
    compileProgram config i.prettyErrors input target
  | .tokens input =>
    let config ← loadConfig s i.config
    showTokens config i.prettyErrors input
  | .tree input =>
    let config ← loadConfig s i.config
    showTree config i.prettyErrors input

/-- The files that an invocation may read. -/
def inputs (s : Surroundings) (i : Invocation) : List String :=
  let config := (i.config.or (defaultConfig s)).toList
  match i.command with
  | .encode _ | .decode _ => []
  | .spell input _ => [input]
  | .run input _ cache _ _ => config ++ input :: cache.toList
  | .compile input _ | .tokens input | .tree input => config ++ [input]

/-- Runs the command line: the exit code and what was written. -/
def run (s : Surroundings) (args : List String) (console : Console) : UInt32 × Console :=
  match parseArgs args with
  | .error e => (2, { console with stderr := console.stderr ++ "error: " ++ e.message ++ "\n" })
  | .ok i =>
    match perform s i console with
    | .ok code console => (code, console)
    | .error complaint console => (1, { console with stderr := console.stderr ++ complaint.text })

end BrailleScript.CommandLine
