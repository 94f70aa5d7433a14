/-!
# Positions in source text

Lines count from 1; the column of a character is the number of characters of its line up to and
including it.  A line feed is counted as the start of the line after it, at column 0.
-/

namespace BrailleScript

/-- A line and a column. -/
structure Pos where
  line : Nat
  col : Nat
  deriving Repr, DecidableEq, Inhabited

namespace Pos

/-- `line:col`. -/
def text (p : Pos) : String :=
  toString p.line ++ ":" ++ toString p.col

/-- The position of the character `c` when the character before it is at `p`. -/
def advance (p : Pos) (c : Char) : Pos :=
  if c = '\n' then ⟨p.line + 1, 0⟩ else ⟨p.line, p.col + 1⟩

/-- Before the first character. -/
def start : Pos := ⟨1, 0⟩

end Pos

/-- A place between two characters: the bytes before it, and the position of the last character
before it. -/
structure Cursor where
  offset : Nat
  pos : Pos
  deriving Repr, DecidableEq

namespace Cursor

/-- Before the first character. -/
def start : Cursor := ⟨0, Pos.start⟩

/-- Behind the character `c`. -/
def advance (here : Cursor) (c : Char) : Cursor :=
  ⟨here.offset + c.utf8Size, here.pos.advance c⟩

/-- Behind all the characters. -/
def advanceAll (here : Cursor) (cs : List Char) : Cursor :=
  cs.foldl advance here

end Cursor

end BrailleScript
