import BrailleScript.Json
import BrailleScript.Decimal.Layout
import BrailleScript.Text.Quoted

/-!
# Writing JSON

`compact` writes a value without blanks, which is also the canonical text that digests are taken
of; `pretty` puts every item and field on a line of its own.
-/

namespace BrailleScript.Json

/-- One character between the quotes of a string. -/
def escapeChar (c : Char) : List Char :=
  if c = '"' then ['\\', '"']
  else if c = '\\' then ['\\', '\\']
  else if c = '\n' then ['\\', 'n']
  else if c = '\r' then ['\\', 'r']
  else if c = '\t' then ['\\', 't']
  else if c = '\x08' then ['\\', 'b']
  else if c = '\x0c' then ['\\', 'f']
  -- the other control characters have no letter of their own
  else if c.toNat < 0x20 then
    ['\\', 'u', '0', '0', Nat.digitChar (c.toNat / 16), Nat.digitChar (c.toNat % 16)]
  else [c]

/-- A string with its quotes. -/
def quote (s : String) : String :=
  String.ofList ('"' :: s.toList.flatMap escapeChar ++ ['"'])

/-- Floats have at least one decimal, or a signed power of ten when they are very small or very
large; what is no finite number has no JSON form and is written `null`. -/
def floatLayout : Decimal.Layout :=
  { tie := .toEven, positional := some (-5, 16), pointZero := true, plusSign := true,
    nan := "null", infinity := "null" }

/-- The text of a float; what is not finite has none and becomes `null`. -/
def floatText (x : Float) : String :=
  if x.isFinite then floatLayout.write x else "null"

/-- The text of a value without parts. -/
def scalar : Json → String
  | null => "null"
  | bool b => if b then "true" else "false"
  | int n => toString n
  | float x => floatText x
  | text s => quote s
  | array _ | object _ => ""

mutual

/-- Without blanks. -/
def compact : Json → String
  | array items => "[" ++ ",".intercalate (compactItems items) ++ "]"
  | object fields => "\x7b" ++ ",".intercalate (compactFields fields) ++ "\x7d"
  | j => scalar j

/-- The texts of the items. -/
def compactItems : List Json → List String
  | [] => []
  | j :: rest => compact j :: compactItems rest

/-- The texts of the fields. -/
def compactFields : List (String × Json) → List String
  | [] => []
  | (k, j) :: rest => (quote k ++ ":" ++ compact j) :: compactFields rest

end

/-- A line break and two spaces for each level. -/
def newline (level : Nat) : String :=
  String.ofList ('\n' :: List.replicate (2 * level) ' ')

mutual

/-- With each item and field on a line of its own. -/
def prettyAt (level : Nat) : Json → String
  | array [] => "[]"
  | array (j :: rest) =>
    "[" ++ newline (level + 1) ++ prettyAt (level + 1) j ++ prettyItems (level + 1) rest ++
      newline level ++ "]"
  | object [] => "\x7b\x7d"
  | object ((k, j) :: rest) =>
    "\x7b" ++ newline (level + 1) ++ quote k ++ ": " ++ prettyAt (level + 1) j ++
      prettyFields (level + 1) rest ++ newline level ++ "\x7d"
  | j => scalar j

/-- The items behind the first one, each in a line. -/
def prettyItems (level : Nat) : List Json → String
  | [] => ""
  | j :: rest => "," ++ newline level ++ prettyAt level j ++ prettyItems level rest

/-- The fields behind the first one, each in a line. -/
def prettyFields (level : Nat) : List (String × Json) → String
  | [] => ""
  | (k, j) :: rest =>
    "," ++ newline level ++ quote k ++ ": " ++ prettyAt level j ++ prettyFields level rest

end

/-- The value over several lines. -/
def pretty (j : Json) : String :=
  prettyAt 0 j

/-- A string as it is, anything else in its compact form. -/
def display : Json → String
  | text s => s
  | j => compact j

end BrailleScript.Json
