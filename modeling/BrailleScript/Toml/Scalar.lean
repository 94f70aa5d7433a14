import BrailleScript.Decimal.Reading
import BrailleScript.Toml

/-!
# Numbers, dates and times in TOML

Each pattern looks at the start of a text.  It does not match, or it takes a part of the text, or
it breaks off: once a pattern has seen enough, what follows must fit, and no other pattern is tried.
-/

namespace BrailleScript.Toml

/-- What a pattern makes of a text. -/
inductive Match where
  | absent
  | taken (rest : List Char)
  | broken (rest : List Char) (fault : TomlFault)

namespace Match

/-- One pattern behind another. -/
def andThen (m : Match) (next : List Char → Match) : Match :=
  match m with
  | taken rest => next rest
  | other => other

/-- What follows `text` must fit: if it does not match, the pattern breaks off there. -/
def orBroken (m : Match) (text : List Char) (fault : TomlFault) : Match :=
  match m with
  | absent => broken text fault
  | other => other

/-- A pattern that may be missing. -/
def orSkip (m : Match) (text : List Char) : Match :=
  match m with
  | absent => taken text
  | other => other

/-- The first of two patterns that matches. -/
def orElse (m : Match) (other : Match) : Match :=
  match m with
  | absent => other
  | m => m

end Match

/-- One character. -/
def single (p : Char → Bool) : List Char → Match
  | c :: rest => if p c then .taken rest else .absent
  | [] => .absent

/-! ## Numbers -/

/-- The value of a hexadecimal digit. -/
def hexDigit? (c : Char) : Option Nat :=
  if c.isDigit then some (c.toNat - '0'.toNat)
  else if 'a' ≤ c && c ≤ 'f' then some (c.toNat - 'a'.toNat + 10)
  else if 'A' ≤ c && c ≤ 'F' then some (c.toNat - 'A'.toNat + 10)
  else none

/-- Whether a character is a hexadecimal digit. -/
def isHex (c : Char) : Bool := (hexDigit? c).isSome

/-- Whether a character is an octal digit. -/
def isOctal (c : Char) : Bool := '0' ≤ c && c ≤ '7'

/-- Whether a character is a binary digit. -/
def isBinary (c : Char) : Bool := c = '0' || c = '1'

/-- The value of digits in a base; underscores between them are skipped. -/
def inBase (base : Nat) (cs : List Char) : Nat :=
  (cs.filter (· != '_')).foldl (fun n c => base * n + (hexDigit? c).getD 0) 0

/-- Whether a character is a sign. -/
def isSign (c : Char) : Bool := c = '+' || c = '-'

/-- Further digits; behind an underscore there must be one. -/
def moreDigits (isDigit : Char → Bool) (fault : TomlFault) : List Char → Match
  | '_' :: rest =>
    match rest with
    | c :: after =>
      if isDigit c then moreDigits isDigit fault after else .broken (c :: after) fault
    | [] => .broken [] fault
  | c :: rest => if isDigit c then moreDigits isDigit fault rest else .taken (c :: rest)
  | [] => .taken []

/-- A sign, if there is one, and digits without a zero in front. -/
def wholeNumber (cs : List Char) : Match :=
  ((single isSign cs).orSkip cs).andThen fun
    | '0' :: rest => .taken rest
    | c :: rest =>
      if c.isDigit then moreDigits Char.isDigit (.broken (some "integer") ["digit"]) rest
      else .absent
    | [] => .absent

/-- Digits behind the mark of a base. -/
def digitsOf (isDigit : Char → Bool) (construct : String) (cs : List Char) : Match :=
  ((single isDigit cs).orBroken cs (.broken (some construct) [])).andThen
    (moreDigits isDigit (.broken (some construct) ["digit"]))

/-- What messages call a float. -/
def floatName : String := "floating-point number"

/-- The letter of a power of ten, and the power. -/
def power (cs : List Char) : Match :=
  (single (fun c => c = 'e' || c = 'E') cs).andThen fun rest =>
    ((single isSign rest).orSkip rest).andThen fun digits =>
      ((single Char.isDigit digits).orBroken digits (.broken (some floatName) [])).andThen
        (moreDigits Char.isDigit (.broken (some floatName) ["digit"]))

/-- The point and the decimals. -/
def decimals (cs : List Char) : Match :=
  (single (· = '.') cs).andThen fun rest =>
    ((single Char.isDigit rest).orBroken rest (.broken (some floatName) ["digit"])).andThen
      (moreDigits Char.isDigit (.broken (some floatName) ["digit", "digit"]))

/-- A number with decimals, a power of ten or both. -/
def fractional (cs : List Char) : Match :=
  (wholeNumber cs).andThen fun rest =>
    (power rest).orElse ((decimals rest).andThen fun rest => (power rest).orSkip rest)

/-! ## Dates and times -/

/-- What messages call a date with or without a time. -/
def dateName : String := "date-time"

/-- What messages call a time without a date. -/
def clockName : String := "time"

/-- Two digits with a value from `low` to `high`. -/
def twoDigits (construct : String) (low high : Nat) : List Char → Match
  | a :: b :: rest =>
    if a.isDigit && b.isDigit then
      let n := inBase 10 [a, b]
      if low ≤ n && n ≤ high then .taken rest
      else .broken (a :: b :: rest) (.within construct .outOfRange)
    else .absent
  | _ => .absent

/-- Whether a year has a leap day. -/
def isLeap (year : Nat) : Bool :=
  year % 4 = 0 && (year % 100 != 0 || year % 400 = 0)

/-- How many days a month has. -/
def daysOf (year month : Nat) : Nat :=
  if month = 2 then if isLeap year then 29 else 28
  else if month = 4 || month = 6 || month = 9 || month = 11 then 30
  else 31

/-- A date; behind the year and a dash the rest must fit. -/
def date : List Char → Match
  | a :: b :: c :: d :: '-' :: rest =>
    if a.isDigit && b.isDigit && c.isDigit && d.isDigit then
      let year := inBase 10 [a, b, c, d]
      let month := inBase 10 (rest.take 2)
      let must (m : Match) (text : List Char) : Match :=
        m.orBroken text (.broken (some dateName) [])
      (must (twoDigits dateName 1 12 rest) rest).andThen fun rest =>
        (must (single (· = '-') rest) rest).andThen fun rest =>
          must (twoDigits dateName 1 (daysOf year month) rest) rest
    -- what does not begin so may still be a number
    else .absent
  | _ => .absent

/-- A time of day; behind the hour and a colon the rest must fit. -/
def clock (construct : String) : List Char → Match
  | a :: b :: ':' :: rest =>
    if a.isDigit && b.isDigit && inBase 10 [a, b] ≤ 23 then
      let must (m : Match) (text : List Char) : Match :=
        m.orBroken text (.broken (some construct) [])
      (must (twoDigits construct 0 59 rest) rest).andThen fun rest =>
        (must (single (· = ':') rest) rest).andThen fun rest =>
          -- the second may be a leap second
          (must (twoDigits construct 0 60 rest) rest).andThen fun rest =>
            ((single (· = '.') rest).andThen (single Char.isDigit)).andThen
              (fun rest => .taken (rest.dropWhile Char.isDigit)) |>.orSkip rest
    else .absent
  | _ => .absent

/-- The offset from universal time. -/
def offset (cs : List Char) : Match :=
  let construct := "time offset"
  let must (m : Match) (text : List Char) : Match := m.orBroken text (.broken (some construct) [])
  (single (fun c => c = 'Z' || c = 'z') cs).orElse <|
    (single isSign cs).andThen fun rest =>
      (must (twoDigits construct 0 23 rest) rest).andThen fun rest =>
        (must (single (· = ':') rest) rest).andThen fun rest =>
          must (twoDigits construct 0 59 rest) rest

/-- A date, a time or both. -/
def moment (cs : List Char) : Match :=
  ((date cs).andThen fun rest =>
      ((single (fun c => c = 'T' || c = 't' || c = ' ') rest).andThen fun after =>
          (clock dateName after).andThen fun after => (offset after).orSkip after).orSkip rest).orElse
    (clock clockName cs)

end BrailleScript.Toml
