/-!
# Lines of a text

A line ends with a line feed, which does not belong to it, and neither does a carriage return
right before that line feed.  Text after the last line feed is a line of its own unless empty.
-/

namespace BrailleScript.Text

/-- Drops a carriage return at the end of a line. -/
def dropReturn (line : List Char) : List Char :=
  if line.getLast? = some '\r' then line.dropLast else line

/-- The lines of a text, `current` (last character first) being the part already read of the
line in progress. -/
def linesFrom (current : List Char) : List Char → List (List Char)
  | [] => if current.isEmpty then [] else [current.reverse]
  | c :: rest =>
    if c = '\n' then dropReturn current.reverse :: linesFrom [] rest
    else linesFrom (c :: current) rest

/-- The lines of a text. -/
def linesOf (s : String) : List String :=
  (linesFrom [] s.toList).map String.ofList

end BrailleScript.Text
