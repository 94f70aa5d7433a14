import BrailleScript.Failure
import BrailleScript.Token.Lexer
import BrailleScript.Node.Parser

/-!
# Errors on the way from source to result

A source can fail to split into tokens, to form a tree, or to run.
-/

namespace BrailleScript

/-- Why a program was not run to its end, by the stage that found out. -/
inductive Error where
  | lexing (e : LexError)
  | parsing (e : SyntaxError)
  | running (e : Failure)
  deriving Repr

namespace Error

/-- Where in the source the error is, if it has a place. -/
def pos : Error → Option Pos
  | lexing e => some e.pos
  | parsing e => some e.pos
  | running e => e.pos

/-- The whole text of the error. -/
def text : Error → String
  | lexing e => "lex error: " ++ e.message
  | parsing e => "syntax error: " ++ e.text
  | running e => "runtime error: " ++ e.text

/-- The text for reports that show the position of a syntax error themselves. -/
def title : Error → String
  | lexing e => "lex error: " ++ e.message
  | parsing e => "syntax error: " ++ e.message
  | running e => "runtime error: " ++ e.text

end Error

/-- The tree of a source. -/
def parseSource (lenient : Bool) (source : String) : Except Error Node :=
  match tokenize lenient source with
  | .error e => .error (.lexing e)
  | .ok tokens =>
    match parse tokens with
    | .error e => .error (.parsing e)
    | .ok node => .ok node

end BrailleScript
