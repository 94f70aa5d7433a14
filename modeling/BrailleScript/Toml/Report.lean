import BrailleScript.Toml

/-!
# Faults of TOML documents shown in their line

The line of a fault with marks under its place.  A place behind the last character is shown one
column behind that character, in its line.
-/

namespace BrailleScript.TomlError

/-- How many bytes some characters have. -/
def bytes (cs : List Char) : Nat :=
  (String.ofList cs).utf8ByteSize

/-- How many lines end before a place, and how many columns of its own line are before it.  In
front of a character of several bytes the columns are bytes, else they are characters. -/
def lineAndColumn (cs : List Char) (place : Nat) : Nat × Nat :=
  let seen := Nat.min place (cs.length - 1)
  let before := cs.take seen
  let line := before.reverse.takeWhile (· != '\n')
  let wide := place < cs.length && (cs.drop place).head?.any fun c => 1 < c.utf8Size
  (before.count '\n', (if wide then bytes line else line.length) + (place - seen))

/-- The line with a number. -/
def lineAt (cs : List Char) : Nat → List Char
  | 0 => cs.takeWhile (· != '\n')
  | n + 1 => lineAt ((cs.dropWhile (· != '\n')).drop 1) n

/-- The fault with its line of the document and marks under its place. -/
def display (document : String) (e : TomlError) : String :=
  let cs := document.toList
  let (line, column) := lineAndColumn cs e.span.start
  let content := lineAt cs line
  let number := toString (line + 1)
  let gutter := String.ofList (List.replicate (number.length + 1) ' ')
  let marked := bytes ((cs.drop e.span.start).take (e.span.stop - e.span.start))
  let marks := Nat.max 1 (Nat.min marked (bytes content))
  "TOML parse error at line " ++ number ++ ", column " ++ toString (column + 1) ++ "\n" ++
    gutter ++ "|\n" ++
    number ++ " | " ++ String.ofList content ++ "\n" ++
    gutter ++ "|" ++ String.ofList (List.replicate (column + 1) ' ' ++ List.replicate marks '^') ++
    "\n" ++ e.fault.message ++ "\n"

end BrailleScript.TomlError
