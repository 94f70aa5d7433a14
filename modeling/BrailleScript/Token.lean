import BrailleScript.Symbol
import BrailleScript.Position
import BrailleScript.Decimal.Layout

/-!
# Tokens

What a program is made of, with the cells each token was read from and where they stand.
-/

namespace BrailleScript

/-- What a token stands for. -/
inductive TokenKind where
  | keyword (k : Keyword)
  | operator (o : Operator)
  | delimiter (d : Delimiter)
  | number (x : Float)
  | text (s : String)
  | identifier (name : String)
  | comment (s : String)
  | endOfInput
  deriving Repr, Inhabited

/-- A token with its place in the source. -/
structure Token where
  kind : TokenKind
  /-- The cells as they stand in the source. -/
  raw : String
  /-- Bytes of the source before the token. -/
  offset : Nat
  pos : Pos
  deriving Repr, Inhabited

namespace TokenKind

/-- Whether a token is a comment. -/
def isComment : TokenKind → Bool
  | comment _ => true
  | _ => false

/-- Whether a token is the end of the input. -/
def isEndOfInput : TokenKind → Bool
  | endOfInput => true
  | _ => false

/-- Whether a token is an identifier. -/
def isIdentifier : TokenKind → Bool
  | identifier _ => true
  | _ => false

/-- Whether a token is the given keyword. -/
def isKeyword (k : Keyword) : TokenKind → Bool
  | keyword k' => k == k'
  | _ => false

/-- Whether a token is the given operator. -/
def isOperator (o : Operator) : TokenKind → Bool
  | operator o' => o == o'
  | _ => false

/-- Whether a token is the given delimiter. -/
def isDelimiter (d : Delimiter) : TokenKind → Bool
  | delimiter d' => d == d'
  | _ => false

/-- The token as error messages name it. -/
def short : TokenKind → String
  | keyword k => "'" ++ k.name ++ "'"
  | operator o => "'" ++ o.lexeme ++ "'"
  | delimiter d => "'" ++ d.lexeme ++ "'"
  | number _ => "number"
  | text _ => "string"
  | identifier _ => "identifier"
  | comment _ => "comment"
  | endOfInput => "end of input"

/-- The kind with its content. -/
def full : TokenKind → String
  | keyword k => "Keyword(" ++ k.name ++ ")"
  | operator o => "Operator(" ++ o.lexeme ++ " prec=" ++ toString o.precedence ++ ")"
  | delimiter d => "Delimiter(" ++ d.lexeme ++ ")"
  | number x => "Number(" ++ Decimal.plain.write x ++ ")"
  | text s => "String(" ++ Text.quoted s ++ ")"
  | identifier n => "Identifier('" ++ n ++ "')"
  | comment s => "Comment(" ++ Text.quoted s ++ ")"
  | endOfInput => "EndOfInput"

/-- The binding strength of an operator. -/
def precedence? : TokenKind → Option Nat
  | operator o => some o.precedence
  | _ => none

end TokenKind

/-- The token with its content and position, for listings. -/
def Token.line (t : Token) : String :=
  t.kind.full ++ " @" ++ t.pos.text

end BrailleScript
