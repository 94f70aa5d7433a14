import BrailleScript.Text.Blank

/-!
# Log levels

How much the command line reports of its work, as the environment asks for it.
-/

namespace BrailleScript

/-- How much is logged. -/
inductive LogLevel where
  | trace | debug | info | warn | error
  deriving Repr, DecidableEq

namespace LogLevel

/-- The name of a level, as log lines show it. -/
def name : LogLevel → String
  | trace => "TRACE"
  | debug => "DEBUG"
  | info => "INFO"
  | warn => "WARN"
  | error => "ERROR"

/-- The level of a word; blanks around it and the case of `A` to `Z` do not matter. -/
def ofWord? (s : String) : Option LogLevel :=
  match String.ofList ((Text.trimChars s.toList).map Char.toLower) with
  | "trace" => some trace
  | "debug" => some debug
  | "info" => some info
  | "warn" | "warning" => some warn
  | "error" => some error
  | _ => none

/-- A level that is named wins over the request for debugging. -/
def choose (debugging level : Option String) : LogLevel :=
  match level.bind ofWord? with
  | some l => l
  | none => if debugging = some "1" then debug else warn

end LogLevel

end BrailleScript
