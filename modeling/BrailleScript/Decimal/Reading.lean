import BrailleScript.Decimal.Shortest

/-!
# Reading a number

The float nearest to a decimal number, and the texts that denote numbers: digits with an optional
point and an optional power of ten, or a name for an infinity or for "not a number".
-/

namespace BrailleScript.Decimal

/-- The float nearest to `± digits · 10 ^ exponent`.  Magnitudes far outside the range of floats
are recognised by their size, so that no huge power is computed. -/
def ofDigits (negative : Bool) (digits : Nat) (exponent : Int) : Float :=
  -- `2 ^ bits ≤ digits < 2 ^ (bits + 1)`, and a bit is more than 3 / 10 of a digit and less than 28 / 93
  let bits : Int := Nat.log2 digits
  if digits = 0 || bits * 28 / 93 + exponent < -400 then nearest negative 0 1
  else if 400 < bits * 3 / 10 + exponent then nearest negative (Nat.pow 10 400) 1
  else
    let (n, d) := scaleTen digits 1 exponent
    nearest negative n d

/-- The value of a decimal digit. -/
def digitValue (c : Char) : Nat :=
  c.toNat - '0'.toNat

/-- The number written by a list of digits. -/
def ofDigitChars (cs : List Char) : Nat :=
  cs.foldl (fun n c => 10 * n + digitValue c) 0

/-- An optional sign, and what follows it. -/
def readSign : List Char → Bool × List Char
  | '-' :: rest => (true, rest)
  | '+' :: rest => (false, rest)
  | rest => (false, rest)

/-- The power of ten after the digits, if the rest of the text is one. -/
def readPower? : List Char → Option Int
  | [] => some 0
  | c :: rest =>
    if c = 'e' || c = 'E' then
      let (negative, ds) := readSign rest
      if ds.isEmpty || !ds.all Char.isDigit then none
      else
        let n : Int := ofDigitChars ds
        some (if negative then -n else n)
    else none

/-- Digits with an optional point and power of ten; at least one digit is needed. -/
def readUnsigned? (negative : Bool) (cs : List Char) : Option Float :=
  let whole := cs.takeWhile Char.isDigit
  let rest := cs.dropWhile Char.isDigit
  let (fraction, rest) :=
    match rest with
    | '.' :: after => (after.takeWhile Char.isDigit, after.dropWhile Char.isDigit)
    | _ => ([], rest)
  -- a point alone is no numeral
  if whole.isEmpty && fraction.isEmpty then none
  else
    match readPower? rest with
    | none => none
    | some power =>
      some (ofDigits negative (ofDigitChars (whole ++ fraction)) (power - fraction.length))

/-- The number denoted by a text, the whole of it. -/
def read? (s : String) : Option Float :=
  let (negative, cs) := readSign s.toList
  let name := String.ofList (cs.map Char.toLower)
  if name = "inf" || name = "infinity" then
    some (if negative then -1.0 / 0.0 else 1.0 / 0.0)
  else if name = "nan" then some (0.0 / 0.0)
  else readUnsigned? negative cs

end BrailleScript.Decimal
