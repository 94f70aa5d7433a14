import BrailleScript.Json
import BrailleScript.Decimal.Reading
import BrailleScript.Text.Utf8

/-!
# Reading JSON

A reader for JSON texts with the position of the first fault.  It goes byte by byte, since a fault
may lie inside a character; all that the grammar names is ASCII, so a byte is looked at as the
character with its code.  Containers may be nested up to a limit; `valueAt` recurses on the levels
that are left.  Of two fields with one key the later stays.  A number without point and power is an
integer if it fits 64 bits; any other is a float, computed from the digits that fit 64 bits by one
multiplication or division with a power of ten.
-/

namespace BrailleScript.Json

/-- What is wrong with a text. -/
inductive Fault where
  | eofInList | eofInObject | eofInString | eofInValue
  | expectedColon | expectedListCommaOrEnd | expectedObjectCommaOrEnd | expectedIdent
  | expectedValue | invalidEscape | invalidNumber | numberOutOfRange | controlCharacter
  | keyMustBeString | loneSurrogate | unexpectedEndOfHexEscape | trailingComma
  | trailingCharacters | tooDeep
  /-- The text is JSON, but not of the wanted shape. -/
  | shape (message : String)
  deriving Repr, DecidableEq

/-- The words for a fault. -/
def Fault.message : Fault → String
  | eofInList => "EOF while parsing a list"
  | eofInObject => "EOF while parsing an object"
  | eofInString => "EOF while parsing a string"
  | eofInValue => "EOF while parsing a value"
  | expectedColon => "expected `:`"
  | expectedListCommaOrEnd => "expected `,` or `]`"
  | expectedObjectCommaOrEnd => "expected `,` or `\x7d`"
  | expectedIdent => "expected ident"
  | expectedValue => "expected value"
  | invalidEscape => "invalid escape"
  | invalidNumber => "invalid number"
  | numberOutOfRange => "number out of range"
  | controlCharacter => "control character (\\u0000-\\u001F) found while parsing a string"
  | keyMustBeString => "key must be a string"
  | loneSurrogate => "lone leading surrogate in hex escape"
  | unexpectedEndOfHexEscape => "unexpected end of hex escape"
  | trailingComma => "trailing comma"
  | trailingCharacters => "trailing characters"
  | tooDeep => "recursion limit exceeded"
  | shape message => message

/-- A fault and the line and byte where it was found. -/
structure ReadError where
  fault : Fault
  line : Nat
  column : Nat
  deriving Repr, DecidableEq

/-- The words for a fault with its place in the text. -/
def ReadError.message (e : ReadError) : String :=
  e.fault.message ++ " at line " ++ toString e.line ++ " column " ++ toString e.column

/-- The bytes that are left, and the line and the bytes of it that have been read. -/
structure Source where
  rest : List UInt8
  line : Nat
  column : Nat
  /-- How many bytes are left: every loop takes a byte in each turn, so it bounds them all. -/
  left : Nat
  left_eq : left = rest.length

/-- A text of which nothing is read. -/
def Source.ofText (s : String) : Source :=
  ⟨Text.Utf8.encode s.toList, 1, 0, _, rfl⟩

/-- The character with the code of a byte. -/
def byteChar (b : UInt8) : Char :=
  Char.ofNat b.toNat

/-- A step of a reader, on what is left of the text. -/
abbrev Reader := StateT Source (Except ReadError)

namespace Reader

/-- The next byte. -/
def peek : Reader (Option Char) := do
  return (← get).rest.head?.map byteChar

/-- Takes the next byte, if there is one. -/
def nextByte : Reader (Option UInt8) := do
  match ← get with
  | ⟨b :: rest, line, column, left, h⟩ =>
    let (line, column) := if byteChar b = '\n' then (line + 1, 0) else (line, column + 1)
    set (⟨rest, line, column, left - 1, by simp [h]⟩ : Source)
    return some b
  | _ => return none

/-- Takes the next byte, if there is one, as a character. -/
def next : Reader (Option Char) := do
  return (← nextByte).map byteChar

/-- A fault at the last byte taken. -/
def fault {α : Type} (f : Fault) : Reader α := do
  let s ← get
  throw ⟨f, s.line, s.column⟩

/-- A fault at the next byte. -/
def faultNext {α : Type} (f : Fault) : Reader α := do
  let _ ← nextByte
  fault f

/-- The characters that may stand between tokens. -/
def isSpace (c : Char) : Bool :=
  c = ' ' || c = '\n' || c = '\t' || c = '\r'

/-- Takes bytes while `p` holds, and gives them. -/
def takeFuel (p : Char → Bool) : Nat → Reader (List Char)
  | 0 => return []
  | fuel + 1 => do
    match ← peek with
    | some c =>
      if p c then
        let _ ← next
        let cs ← takeFuel p fuel
        return c :: cs
      else return []
    | none => return []

/-- Takes characters as long as they satisfy the condition. -/
def takeWhile (p : Char → Bool) : Reader (List Char) := do
  takeFuel p (← get).left

/-- Skips blanks and gives the byte behind them. -/
def skipSpace : Reader (Option Char) := do
  let _ ← takeWhile isSpace
  peek

/-- The rest of a word of which the first letter is taken. -/
def ident (value : Json) : List Char → Reader Json
  | [] => return value
  | c :: rest => do
    match ← next with
    | some d => if c = d then ident value rest else fault .expectedIdent
    | none => fault .eofInValue

/-! ### Numbers -/

/-- The largest number of 64 bits. -/
def maxWord : Nat := UInt64.size - 1

/-- Digits appended to a number as long as it fits 64 bits, and the digits that are left. -/
def appendDigits (n : Nat) : List Char → Nat × List Char
  | [] => (n, [])
  | c :: rest =>
    let n' := 10 * n + Decimal.digitValue c
    if maxWord < n' then (n, c :: rest) else appendDigits n' rest

/-- `10 ^ e` for `e ≤ 308`. -/
def powerOfTen (e : Nat) : Float :=
  Decimal.ofDigits false 1 e

/-- Divides by `10 ^ 308` until the power that is left is at most that, at most `fuel` times. -/
def divideDown (x : Float) (e : Nat) : Nat → Float
  | 0 => 0
  | fuel + 1 =>
    if e ≤ 308 then x / powerOfTen e
    else if x == 0 then x
    else divideDown (x / powerOfTen 308) (e - 308) fuel

/-- `± n · 10 ^ e` in floating point arithmetic. -/
def scaled (negative : Bool) (n : Nat) (e : Int) : Reader Json := do
  let x := (UInt64.ofNat n).toFloat
  let y ←
    if 0 ≤ e then
      -- beyond 308 the power itself is out of range, unless there is nothing to scale
      if e ≤ 308 then
        let y := x * powerOfTen e.toNat
        if y.isInf then fault .numberOutOfRange else pure y
      else if x == 0 then pure x
      else fault .numberOutOfRange
    else pure (divideDown x (-e).toNat 8)
  return .float (if negative then -y else y)

/-- The largest power of ten that is looked at. -/
def maxPower : Nat := 2147483647

/-- Takes the digits that follow `p`, up to the one with which the power is too large: then there
is none. -/
def powerDigits (p : Nat) : Nat → Reader (Option Nat)
  | 0 => return some p
  | fuel + 1 => do
    match ← peek with
    | some c =>
      if c.isDigit then
        let _ ← next
        let p' := 10 * p + Decimal.digitValue c
        -- the power is kept in 32 bits with a sign
        if maxPower < p' then return none else powerDigits p' fuel
      else return some p
    | none => return some p

/-- The power of ten behind the letter `e`, added to `e₀`.  With a power that is too large the
number is out of range, unless it is zero or the power is negative. -/
def power (negative : Bool) (n : Nat) (e₀ : Int) : Reader Json := do
  let _ ← next
  let sign ← peek
  if sign = some '+' || sign = some '-' then let _ ← next
  match ← next with
  | none => fault .eofInValue
  | some c =>
    if !c.isDigit then fault .invalidNumber
    else
      match ← powerDigits (Decimal.digitValue c) (← get).left with
      | some p => scaled negative n (if sign = some '-' then e₀ - p else e₀ + p)
      | none =>
        -- zero stays zero, and a large negative power gives zero
        if n != 0 && sign != some '-' then fault .numberOutOfRange
        else
          let _ ← takeWhile Char.isDigit
          return .float (if negative then -0.0 else 0.0)

/-- The end of a float: a power of ten or nothing. -/
def floatEnd (negative : Bool) (n : Nat) (e : Int) : Reader Json := do
  match ← peek with
  | some 'e' | some 'E' => power negative n e
  | _ => scaled negative n e

/-- The decimals behind the point; digits that no longer fit are dropped. -/
def decimals (negative : Bool) (n : Nat) (e : Int) : Reader Json := do
  let _ ← next
  let ds ← takeWhile Char.isDigit
  if ds.isEmpty then
    match ← peek with
    | some _ => faultNext .invalidNumber
    | none => faultNext .eofInValue
  else
    let (n', dropped) := appendDigits n ds
    floatEnd negative n' (e - (ds.length - dropped.length : Nat))

/-- What follows the digits in front of the point; `dropped` of them did not fit. -/
def numberEnd (negative : Bool) (n : Nat) (dropped : Nat) : Reader Json := do
  match ← peek with
  | some '.' => decimals negative n dropped
  | some 'e' | some 'E' => power negative n dropped
  | _ =>
    if 0 < dropped then scaled negative n dropped
    else if !negative then return .int n
    -- minus zero is no integer, and neither is what lies below 64 bits
    else if n = 0 || -(n : Int) < Int64.minValue.toInt then return .float (-(UInt64.ofNat n).toFloat)
    else return .int (-(n : Int))

/-- A number behind its sign. -/
def number (negative : Bool) : Reader Json := do
  match ← next with
  | none => fault .eofInValue
  | some '0' =>
    match ← peek with
    -- a number does not begin with two zeros
    | some c => if c.isDigit then faultNext .invalidNumber else numberEnd negative 0 0
    | none => numberEnd negative 0 0
  | some c =>
    if !c.isDigit then fault .invalidNumber
    else
      let ds ← takeWhile Char.isDigit
      let (n, dropped) := appendDigits (Decimal.digitValue c) ds
      numberEnd negative n dropped.length

/-! ### Strings -/

/-- The value of a hexadecimal digit. -/
def hexValue? (c : Char) : Option Nat :=
  if c.isDigit then some (c.toNat - '0'.toNat)
  else if 'a' ≤ c && c ≤ 'f' then some (c.toNat - 'a'.toNat + 10)
  else if 'A' ≤ c && c ≤ 'F' then some (c.toNat - 'A'.toNat + 10)
  else none

/-- Four hexadecimal digits. -/
def hexCode : Reader Nat := do
  match ← next, ← next, ← next, ← next with
  | some a, some b, some c, some d =>
    match hexValue? a, hexValue? b, hexValue? c, hexValue? d with
    | some a, some b, some c, some d => return 4096 * a + 256 * b + 16 * c + d
    | _, _, _, _ => fault .invalidEscape
  | _, _, _, _ => fault .eofInString

/-- Takes the next byte, which must be `c`. -/
def surrogateMark (c : Char) : Reader Unit := do
  match ← next with
  | some d => if c = d then return () else fault .unexpectedEndOfHexEscape
  | none => fault .eofInString

/-- The character of an escape by its code, or of a pair of them. -/
def unicodeEscape : Reader Char := do
  let n ← hexCode
  -- the second half of a pair cannot come first
  if 0xDC00 ≤ n && n ≤ 0xDFFF then fault .loneSurrogate
  else if 0xD800 ≤ n && n ≤ 0xDBFF then
    surrogateMark '\\'
    surrogateMark 'u'
    let m ← hexCode
    if 0xDC00 ≤ m && m ≤ 0xDFFF then
      return Char.ofNat (0x10000 + (n - 0xD800) * 0x400 + (m - 0xDC00))
    else fault .loneSurrogate
  else return Char.ofNat n

/-- The character behind a backslash. -/
def escape : Reader Char := do
  match ← next with
  | none => fault .eofInString
  | some '"' => return '"'
  | some '\\' => return '\\'
  | some '/' => return '/'
  | some 'b' => return '\x08'
  | some 'f' => return '\x0c'
  | some 'n' => return '\n'
  | some 'r' => return '\r'
  | some 't' => return '\t'
  | some 'u' => unicodeEscape
  | some _ => fault .invalidEscape

/-- The bytes of a string up to its closing quote, the last one first, and then those in `done`. -/
def stringFuel (done : List UInt8) : Nat → Reader (List UInt8)
  | 0 => fault .eofInString
  | fuel + 1 => do
    match ← nextByte with
    | none => fault .eofInString
    | some b =>
      if byteChar b = '"' then return done
      else if byteChar b = '\\' then
        let c ← escape
        stringFuel ((String.utf8EncodeChar c).reverse ++ done) fuel
      -- control characters must be escaped
      else if b < 0x20 then fault .controlCharacter
      else stringFuel (b :: done) fuel

/-- A string behind its opening quote. -/
def string : Reader String := do
  let bytes ← stringFuel [] ((← get).left + 1)
  return String.ofList (Text.Utf8.decodeLossy bytes.reverse)

/-! ### Containers -/

section

variable (value : Reader Json)

/-- Whether another item of an array follows. -/
def moreItems (first : Bool) : Reader Bool := do
  match ← skipSpace with
  | none => faultNext .eofInList
  | some ']' => return false
  | some ',' =>
    if first then return true
    else
      let _ ← next
      match ← skipSpace with
      -- a comma must be followed by an item
      | some ']' => faultNext .trailingComma
      | some _ => return true
      | none => faultNext .eofInValue
  | some _ => if first then return true else faultNext .expectedListCommaOrEnd

/-- The items of an array and its closing bracket. -/
def itemsFuel (first : Bool) : Nat → Reader (List Json)
  | 0 => fault .eofInList
  | fuel + 1 => do
    if ← moreItems first then
      let x ← value
      let xs ← itemsFuel false fuel
      return x :: xs
    else
      let _ ← next
      return []

/-- Whether another field of an object follows. -/
def moreFields (first : Bool) : Reader Bool := do
  match ← skipSpace with
  | none => faultNext .eofInObject
  | some '\x7d' => return false
  | some c =>
    if first then
      if c = '"' then return true else faultNext .keyMustBeString
    else if c = ',' then
      let _ ← next
      match ← skipSpace with
      | some '"' => return true
      | some '\x7d' => faultNext .trailingComma
      | some _ => faultNext .keyMustBeString
      | none => faultNext .eofInValue
    else faultNext .expectedObjectCommaOrEnd

/-- The colon behind a key. -/
def colon : Reader Unit := do
  match ← skipSpace with
  | some ':' =>
    let _ ← next
    return ()
  | some _ => faultNext .expectedColon
  | none => faultNext .eofInObject

/-- The fields of an object and its closing brace. -/
def fieldsFuel (first : Bool) : Nat → Reader (List (String × Json))
  | 0 => fault .eofInObject
  | fuel + 1 => do
    if ← moreFields first then
      let _ ← next
      let key ← string
      colon
      let x ← value
      let rest ← fieldsFuel false fuel
      return (key, x) :: rest
    else
      let _ ← next
      return []

end

/-- How deep containers may be nested. -/
def maxDepth : Nat := 127

/-- A value, with at most `depth` levels of containers. -/
def valueAt (depth : Nat) : Reader Json := do
  match ← skipSpace with
  | none => faultNext .eofInValue
  | some 'n' =>
    let _ ← next
    ident .null ['u', 'l', 'l']
  | some 't' =>
    let _ ← next
    ident (.bool true) ['r', 'u', 'e']
  | some 'f' =>
    let _ ← next
    ident (.bool false) ['a', 'l', 's', 'e']
  | some '-' =>
    let _ ← next
    number true
  | some '"' =>
    let _ ← next
    return .text (← string)
  | some '[' =>
    match depth with
    -- containers count as levels, and nothing else does
    | 0 => faultNext .tooDeep
    | depth + 1 =>
      let _ ← next
      return .array (← itemsFuel (valueAt depth) true ((← get).left + 1))
  | some '\x7b' =>
    match depth with
    | 0 => faultNext .tooDeep
    | depth + 1 =>
      let _ ← next
      let fields ← fieldsFuel (valueAt depth) true ((← get).left + 1)
      return .object (Fields.ofList fields)
  | some c => if c.isDigit then number false else faultNext .expectedValue

/-- A value up to the end of the text. -/
def whole (value : Reader Json) : Reader Json := do
  let j ← value
  match ← skipSpace with
  | none => return j
  | some _ => faultNext .trailingCharacters

end Reader

/-- The value of a text that is read by `value` as a whole. -/
def readWith (value : Reader Json) (s : String) : Except ReadError Json :=
  ((Reader.whole value).run (.ofText s)).map Prod.fst

/-- The value of a JSON text. -/
def read (s : String) : Except ReadError Json :=
  readWith (Reader.valueAt Reader.maxDepth) s

end BrailleScript.Json
