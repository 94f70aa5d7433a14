import BrailleScript.Error
import BrailleScript.Text.Lines

/-!
# Diagnostics

Errors as shown to people: on one line, or with the line of the source and a mark under the
offending place.
-/

namespace BrailleScript.Diagnostic

/-- So many spaces. -/
def spaces (n : Nat) : String :=
  String.ofList (List.replicate n ' ')

/-- A number aligned to the right in a field of the given width. -/
def padLeft (width : Nat) (s : String) : String :=
  spaces (width - s.length) ++ s

/-- The line of the source with the given number, empty if there is none. -/
def lineAt (source : String) (line : Nat) : String :=
  (Text.linesOf source).getD (line - 1) ""

/-- An error with its line of the source and `len` marks from the column on. -/
def excerpt (file source title : String) (pos : Pos) (len : Nat) : String :=
  let number := padLeft 4 (toString pos.line)
  let gap := spaces number.length
  let marks := spaces (pos.col - 1) ++ String.ofList (List.replicate (max len 1) '^')
  "error: " ++ title ++ "\n" ++
    "--> " ++ file ++ ":" ++ pos.text ++ "\n" ++
    " " ++ gap ++ " |\n" ++
    number ++ " | " ++ lineAt source pos.line ++ "\n" ++
    " " ++ gap ++ " | " ++ marks

/-- What is written for an error in a file. -/
def report (file source : String) (e : Error) (pretty : Bool) : String :=
  match e.pos with
  | some pos =>
    if pretty then excerpt file source e.title pos 1 ++ "\n\n"
    else "error: " ++ e.title ++ " (" ++ file ++ ":" ++ pos.text ++ ")\n"
  | none => "error: " ++ e.title ++ "\n"

/-- The number of lines and characters of a source. -/
def summary (source : String) : String :=
  toString (Text.linesOf source).length ++ " lines, " ++ toString source.length ++ " characters"

end BrailleScript.Diagnostic
