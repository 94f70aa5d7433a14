import BrailleScript.Cell

/-!
# Symbols

The cells with a role in programs.  Keywords, operators and delimiters have one cell each, given
by their place in the tables `Keyword.all`, `Operator.all` and `Delimiter.all`; the digits, the
decimal point, the number sign, the identifier escape and the marks of comments and strings have
fixed cells.
-/

namespace BrailleScript

/-- The keywords of the language. -/
inductive Keyword where
  | letKw | constKw | fnKw | asyncKw | awaitKw | classKw | extendsKw | thisKw | superKw | returnKw
  | yieldKw | ifKw | elseKw | whileKw | loopKw | forKw | inKw | tryKw | catchKw | printKw
  | importKw | haltKw | switchKw | caseKw | defaultKw | breakKw | continueKw | trueKw | falseKw
  | nullKw | inferKw | embedKw | promptKw | composeKw | reflectKw | searchKw
  deriving Repr, DecidableEq

namespace Keyword

/-- All keywords in the order of their cells. -/
def all : List Keyword :=
  [letKw, constKw, fnKw, asyncKw, awaitKw, classKw, extendsKw, thisKw, superKw, returnKw,
   yieldKw, ifKw, elseKw, whileKw, loopKw, forKw, inKw, tryKw, catchKw, printKw,
   importKw, haltKw, switchKw, caseKw, defaultKw, breakKw, continueKw, trueKw, falseKw,
   nullKw, inferKw, embedKw, promptKw, composeKw, reflectKw, searchKw]

/-- The readable spelling. -/
def name : Keyword → String
  | letKw => "let"
  | constKw => "const"
  | fnKw => "fn"
  | asyncKw => "async"
  | awaitKw => "await"
  | classKw => "class"
  | extendsKw => "extends"
  | thisKw => "this"
  | superKw => "super"
  | returnKw => "return"
  | yieldKw => "yield"
  | ifKw => "if"
  | elseKw => "else"
  | whileKw => "while"
  | loopKw => "loop"
  | forKw => "for"
  | inKw => "in"
  | tryKw => "try"
  | catchKw => "catch"
  | printKw => "print"
  | importKw => "import"
  | haltKw => "halt"
  | switchKw => "switch"
  | caseKw => "case"
  | defaultKw => "default"
  | breakKw => "break"
  | continueKw => "continue"
  | trueKw => "true"
  | falseKw => "false"
  | nullKw => "null"
  | inferKw => "infer"
  | embedKw => "embed"
  | promptKw => "prompt"
  | composeKw => "compose"
  | reflectKw => "reflect"
  | searchKw => "search"

/-- The cell of the first keyword. -/
def base : Nat := 0x2880

/-- The cell of a keyword. -/
def cell (k : Keyword) : Char :=
  Char.ofNat (base + all.idxOf k)

end Keyword

/-- The operators of the language. -/
inductive Operator where
  | plus | minus | star | slash | percent | equal | notEqual | less | lessEqual | greater
  | greaterEqual | both | either | bang | assign | arrow | pipe | dot
  deriving Repr, DecidableEq

namespace Operator

/-- All operators in the order of their cells. -/
def all : List Operator :=
  [plus, minus, star, slash, percent, equal, notEqual, less, lessEqual, greater,
   greaterEqual, both, either, bang, assign, arrow, pipe, dot]

/-- The readable spelling. -/
def lexeme : Operator → String
  | plus => "+"
  | minus => "-"
  | star => "*"
  | slash => "/"
  | percent => "%"
  | equal => "=="
  | notEqual => "!="
  | less => "<"
  | lessEqual => "<="
  | greater => ">"
  | greaterEqual => ">="
  | both => "&&"
  | either => "||"
  | bang => "!"
  | assign => "="
  | arrow => "=>"
  | pipe => "|>"
  | dot => "."

/-- Binding strength; a higher one binds tighter. -/
def precedence : Operator → Nat
  | assign | arrow => 1
  | pipe => 2
  | either => 3
  | both => 4
  | equal | notEqual => 5
  | less | lessEqual | greater | greaterEqual => 6
  | plus | minus => 7
  | star | slash | percent => 8
  | bang => 9
  | dot => 10

/-- Whether a chain of the operator groups from the right. -/
def isRightAssoc : Operator → Bool
  | assign | arrow => true
  | _ => false

/-- Whether the operator stands between two operands of an expression. -/
def isInfix : Operator → Bool
  | bang | assign | arrow | dot => false
  | _ => true

/-- The cell of the first operator. -/
def base : Nat := 0x28C0

/-- The cell of an operator. -/
def cell (o : Operator) : Char :=
  Char.ofNat (base + all.idxOf o)

end Operator

/-- The delimiters of the language. -/
inductive Delimiter where
  | parenOpen | parenClose | braceOpen | braceClose | bracketOpen | bracketClose | comma | colon
  | semicolon
  deriving Repr, DecidableEq

namespace Delimiter

/-- All delimiters in the order of their cells. -/
def all : List Delimiter :=
  [parenOpen, parenClose, braceOpen, braceClose, bracketOpen, bracketClose, comma, colon,
   semicolon]

/-- The readable spelling. -/
def lexeme : Delimiter → String
  | parenOpen => "("
  | parenClose => ")"
  | braceOpen => "\x7b"
  | braceClose => "\x7d"
  | bracketOpen => "["
  | bracketClose => "]"
  | comma => ","
  | colon => ":"
  | semicolon => ";"

/-- The cell of the first delimiter. -/
def base : Nat := 0x28E0

/-- The cell of a delimiter. -/
def cell (d : Delimiter) : Char :=
  Char.ofNat (base + all.idxOf d)

end Delimiter

/-- What a single cell may stand for. -/
inductive Role where
  | keyword (k : Keyword)
  | operator (o : Operator)
  | delimiter (d : Delimiter)
  deriving Repr, DecidableEq

namespace Role

/-- The cell of a role. -/
def cell : Role → Char
  | keyword k => k.cell
  | operator o => o.cell
  | delimiter d => d.cell

/-- The readable spelling of a role. -/
def spelling : Role → String
  | keyword k => k.name
  | operator o => o.lexeme
  | delimiter d => d.lexeme

/-- All roles: keywords, then operators, then delimiters. -/
def all : List Role :=
  Keyword.all.map keyword ++ Operator.all.map operator ++ Delimiter.all.map delimiter

/-- The entry of a table whose first cell is `base`. -/
def atCell? {α : Type} (table : List α) (base : Nat) (c : Char) : Option α :=
  if base ≤ c.toNat then table[c.toNat - base]? else none

/-- The role of a cell. -/
def ofCell? (c : Char) : Option Role :=
  (atCell? Keyword.all Keyword.base c).map keyword
    <|> (atCell? Operator.all Operator.base c).map operator
    <|> (atCell? Delimiter.all Delimiter.base c).map delimiter

/-- The role with a readable spelling. -/
def ofSpelling? (s : String) : Option Role :=
  all.find? (·.spelling == s)

end Role

namespace Symbol

/-- The version of the tables. -/
def version : Nat := 1

/-- The cells of the digits from 0 to 9. -/
def digitCells : List Char :=
  ['⠚', '⠁', '⠃', '⠉', '⠙', '⠑', '⠋', '⠛', '⠓', '⠊']

/-- The digit of a cell. -/
def digit? (c : Char) : Option Nat :=
  let i := digitCells.idxOf c
  if i < 10 then some i else none

/-- The cell of the last decimal digit of `n`. -/
def digitCell (n : Nat) : Char :=
  digitCells.getD (n % 10) '⠚'

/-- The cell of the point in a number. -/
def decimalPoint : Char := '⠲'

/-- Starts a number. -/
def numberSign : Char := '⣼'

/-- Makes an identifier of the word after it. -/
def identifierEscape : Char := '⣽'

/-- Starts a comment, and may end it. -/
def commentMark : Char := '⣾'

/-- Starts and ends a string. -/
def stringMark : Char := '⣿'

/-- A cell that ends a word and is read before words are. -/
def isStructural (c : Char) : Bool :=
  c == commentMark || c == stringMark || c == identifierEscape

/-- A cell that may be part of a word. -/
def isWordCell (c : Char) : Bool :=
  Cell.isCell c && !isStructural c

end Symbol

end BrailleScript
