import BrailleScript.Text.Identifier
import BrailleScript.Text.Quoted

/-!
# Names in emitted code

Every name of a program becomes a valid name of the emitted language, and different names stay
different: a character that may not stand in a name, and `$` itself, is written `$` code point
`$`, and names that the language or the support code reserves get the mark `$_`.
-/

namespace BrailleScript.JavaScript

/-- Words of the language and globals that the support code needs. -/
def reserved : List String :=
  ["arguments", "async", "await", "break", "case", "catch", "class", "const", "continue",
   "debugger", "default", "delete", "do", "else", "enum", "eval", "export", "extends", "false",
   "finally", "for", "function", "if", "implements", "import", "in", "instanceof", "interface",
   "let", "new", "null", "package", "private", "protected", "public", "return", "static",
   "super", "switch", "this", "throw", "true", "try", "typeof", "undefined", "var", "void",
   "while", "with", "yield", "NaN", "Infinity",
   "console", "process", "Math", "Object", "Array", "Number", "String", "JSON", "Promise",
   "fetch"]

/-- A character that cannot stand in a name. -/
def escapeNameChar (c : Char) : List Char :=
  '$' :: Text.hex c.toNat ++ ['$']

/-- The first character of a name. -/
def firstChar (c : Char) : List Char :=
  if c = '_' || Text.isIdentifierStart c then [c] else escapeNameChar c

/-- A character of a name after the first. -/
def laterChar (c : Char) : List Char :=
  if Text.isIdentifierContinue c then [c] else escapeNameChar c

/-- The name with its characters escaped, reserved or not. -/
def escapeName : List Char → List Char
  | [] => ['$']
  | c :: rest => firstChar c ++ rest.flatMap laterChar

/-- Whether a name belongs to the language or to the support code. -/
def isReserved (cs : List Char) : Bool :=
  reserved.contains (String.ofList cs) || ['_', '_'].isPrefixOf cs

/-- The name of the emitted code for a name of the program. -/
def sanitize (name : String) : String :=
  let escaped := escapeName name.toList
  String.ofList (if isReserved escaped then '$' :: '_' :: escaped else escaped)

end BrailleScript.JavaScript
