import BrailleScript.Symbol
import BrailleScript.Text.Blank

/-!
# Readable spelling

Programs can be written in plain text and spelled in cells.  `pieces` splits the text: blanks
separate words, the delimiters and a `.` that is no decimal point are words of their own, a `"` at
the start of a word opens a string and a `#` a comment to the end of the line.  `spell` writes
each piece in cells, with a space between two pieces that would otherwise run together.
-/

namespace BrailleScript.Readable

/-- A piece of readable text. -/
inductive Piece where
  | blank (c : Char)
  | word (cs : List Char)
  | text (cs : List Char)
  | comment (cs : List Char)
  deriving Repr, DecidableEq

/-- A character that is a word of its own. -/
def isSplit (c : Char) : Bool :=
  ['(', ')', '\x7b', '\x7d', '[', ']', ',', ':', ';', '.'].contains c

/-- A `.` between digits belongs to the number in front of it. -/
def isDecimalPoint (c : Char) (word : List Char) (next : Option Char) : Bool :=
  c == '.' && !word.isEmpty && word.all Char.isDigit && next.any Char.isDigit

/-- The content of a string up to its closing quote, and the text after that.  A backslash before
`n` and `t` gives a line feed and a tab, before any other character that character. -/
def stringBody : List Char → List Char × List Char
  | [] => ([], [])
  | '"' :: rest => ([], rest)
  | '\\' :: [] => ([], [])
  | '\\' :: c :: rest =>
    ((if c = 'n' then '\n' else if c = 't' then '\t' else c) :: (stringBody rest).1,
      (stringBody rest).2)
  | c :: rest => (c :: (stringBody rest).1, (stringBody rest).2)

/-- Reading a string never puts characters back. -/
theorem length_stringBody_le (cs : List Char) : (stringBody cs).2.length ≤ cs.length := by
  fun_induction stringBody cs <;> simp_all <;> omega

/-- The word collected so far, last character first, as a piece. -/
def flush (word : List Char) : List Piece :=
  if word.isEmpty then [] else [.word word.reverse]

/-- The pieces of a text, `word` being the part already read of the current word, last character
first. -/
def piecesFrom (word : List Char) (cs : List Char) : List Piece :=
  match cs with
  | [] => flush word
  | c :: rest =>
    if Text.isBlank c then flush word ++ .blank c :: piecesFrom [] rest
    -- quotes and number signs inside a word belong to the word
    else if c = '"' && word.isEmpty then
      .text (stringBody rest).1 :: piecesFrom [] (stringBody rest).2
    else if c = '#' && word.isEmpty then
      .comment (Text.trimChars (rest.takeWhile (· != '\n'))) ::
        piecesFrom [] (rest.dropWhile (· != '\n'))
    else if isSplit c && !isDecimalPoint c word rest.head? then
      flush word ++ .word [c] :: piecesFrom [] rest
    else piecesFrom (c :: word) rest
termination_by cs.length
decreasing_by
  · simp
  · have := length_stringBody_le rest
    simp only [List.length_cons]
    omega
  · have := (List.dropWhile_suffix (l := rest) (· != '\n')).length_le
    simp only [List.length_cons]
    omega
  · simp
  · simp

/-- The pieces of a readable text. -/
def pieces (cs : List Char) : List Piece :=
  piecesFrom [] cs

/-- Digits with at most one point among them. -/
def isNumberWord (cs : List Char) : Bool :=
  cs.any Char.isDigit && cs.all (fun c => c.isDigit || c == '.') && cs.count '.' ≤ 1

/-- The cells of a word: an escaped name after `@`, the cell of a role, a number, or a name. -/
def wordCells (cs : List Char) : List Char :=
  match cs with
  | '@' :: name => Symbol.identifierEscape :: Cell.encodeChars name
  | _ =>
    match Role.ofSpelling? (String.ofList cs) with
    | some role => [role.cell]
    | none =>
      if isNumberWord cs then
        Symbol.numberSign :: cs.map fun c =>
          if c.isDigit then Symbol.digitCell (c.toNat - '0'.toNat) else Symbol.decimalPoint
      else
        match Cell.encodeChars cs with
        -- a name of one cell would be read in the role of the cell
        | [only] =>
          if (Role.ofCell? only).isSome || Symbol.isStructural only then
            [Symbol.identifierEscape, only]
          else [only]
        | cells => cells

/-- The cells of a piece. -/
def Piece.cells : Piece → List Char
  | blank c => [c]
  | word cs => wordCells cs
  | text cs => Symbol.stringMark :: Cell.encodeChars cs ++ [Symbol.stringMark]
  | comment cs => Symbol.commentMark :: Cell.encodeChars cs

/-- Whether a space must follow the piece when no blank does. -/
def Piece.needsSpace : Piece → Bool
  | word _ | text _ => true
  | blank _ | comment _ => false

/-- Whether a space must precede the piece when a word or string ends right before it. -/
def Piece.isBlank : Piece → Bool
  | blank _ => true
  | _ => false

/-- The cells of the pieces; `needSpace` says whether the piece before them needs a space. -/
def joinFrom (needSpace : Bool) : List Piece → List Char
  | [] => []
  | p :: rest =>
    let cells := p.cells ++ joinFrom p.needsSpace rest
    if needSpace && !p.isBlank then ' ' :: cells else cells

/-- A readable text in cells. -/
def spell (s : String) : String :=
  String.ofList (joinFrom false (pieces s.toList))

/-- Source text as cells: text without a single cell is taken as readable spelling. -/
def toCells (s : String) : String :=
  if s.toList.any Cell.isCell then s else spell s

end BrailleScript.Readable
