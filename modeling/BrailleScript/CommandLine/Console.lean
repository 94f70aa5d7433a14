import BrailleScript.CommandLine.Files

/-!
# The console

Where a command reads and writes, and how it complains: a message, and the causes that led to it.
-/

namespace BrailleScript.CommandLine

/-- What a command sees and leaves: its outputs and the files. -/
structure Console where
  stdout : String := ""
  stderr : String := ""
  files : Files := {}
  /-- The files written, in order. -/
  written : List String := []

/-- A message and its causes, from the outermost on. -/
structure Complaint where
  message : String
  causes : List String := []
  deriving Repr, DecidableEq

namespace Complaint

/-- The lines of a cause behind each other with `first` in front of the first one and `other` in
front of the others. -/
def indented (first other s : String) : String :=
  first ++ ("\n" ++ other).intercalate (s.splitOn "\n")

/-- The causes with their numbers. -/
def numbered (n : Nat) : List String → String
  | [] => ""
  | c :: rest =>
    let number := toString n
    let pad := String.ofList (List.replicate (5 - number.length) ' ')
    "\n" ++ indented (pad ++ number ++ ": ") "       " c ++ numbered (n + 1) rest

/-- What is shown of a complaint. -/
def text (c : Complaint) : String :=
  "Error: " ++ c.message ++
    (match c.causes with
      | [] => ""
      | [cause] => "\n\nCaused by:\n" ++ indented "    " "    " cause
      | causes => "\n\nCaused by:" ++ numbered 0 causes) ++ "\n"

/-- Says what was being done. -/
def during (message : String) (c : Complaint) : Complaint :=
  ⟨message, c.message :: c.causes⟩

end Complaint

/-- A step of a command. -/
abbrev Action := EStateM Complaint Console

namespace Action

variable {α : Type}

/-- Prints on the standard output. -/
def out (s : String) : Action Unit :=
  modify fun c => { c with stdout := c.stdout ++ s }

/-- Prints on the standard error. -/
def err (s : String) : Action Unit :=
  modify fun c => { c with stderr := c.stderr ++ s }

/-- Goes on with a result, or ends the command with a complaint about the error. -/
def ofExcept {ε : Type} (complain : ε → Complaint) : Except ε α → Action α
  | .ok a => return a
  | .error e => throw (complain e)

/-- The text of a file; `purpose` says what it is read for. -/
def readFile (purpose path : String) : Action String := do
  ofExcept (fun e => ⟨purpose, [e.message]⟩) ((← get).files.read path)

/-- Writes a text to a file; a complaint says for which purpose. -/
def writeFile (purpose : String) (causes : List String → List String) (path text : String) :
    Action Unit := do
  let files ← ofExcept (fun e => ⟨purpose, causes [e.message]⟩) ((← get).files.write path text)
  modify fun c => { c with files, written := c.written ++ [path] }

end Action

end BrailleScript.CommandLine
