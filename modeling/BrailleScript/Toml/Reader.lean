import BrailleScript.Toml.Scalar

/-!
# Reading TOML

A reader for documents of TOML 1.0 that reports the place of the first fault.
-/

namespace BrailleScript.Toml

/-- The characters that are left and the number of those that were read. -/
structure Source where
  rest : List Char
  offset : Nat := 0

/-- A step of a reader, on what is left of the document. -/
abbrev Reader := StateT Source (Except TomlError)

namespace Reader

variable {α : Type}

/-- The next character, which is left there. -/
def peek : Reader (Option Char) := do
  return (← get).rest.head?

/-- Takes the next character. -/
def next : Reader (Option Char) := do
  match ← get with
  | ⟨c :: rest, offset⟩ =>
    set (⟨rest, offset + 1⟩ : Source)
    return some c
  | _ => return none

/-- How many bytes of the document were read. -/
def position : Reader Nat := do
  return (← get).offset

/-- A fault at the character with this number. -/
def faultAt (place : Nat) (fault : TomlFault) : Reader α :=
  throw ⟨fault, ⟨place, place + 1⟩⟩

/-- A construct breaks off at the next character. -/
def broken (construct : Option String) (wanted : List String) : Reader α := do
  faultAt (← position) (.broken construct wanted)

/-- Goes on with a result, or fails at a place. -/
def ofExcept (place : Nat) : Except TomlFault α → Reader α
  | .ok a => return a
  | .error f => faultAt place f

/-- Takes characters while `p` holds. -/
def takeWhile (p : Char → Bool) : Reader (List Char) := do
  let s ← get
  let taken := s.rest.takeWhile p
  set (⟨s.rest.dropWhile p, s.offset + taken.length⟩ : Source)
  return taken

/-- Takes a text if it comes next. -/
def accept (part : List Char) : Reader Bool := do
  let s ← get
  if part.isPrefixOf s.rest then
    set (⟨s.rest.drop part.length, s.offset + part.length⟩ : Source)
    return true
  else return false

/-- Takes what a pattern takes, if it matches. -/
def take? (pattern : List Char → Match) : Reader (Option (List Char)) := do
  let s ← get
  let lengthTo (rest : List Char) : Nat := s.rest.length - rest.length
  match pattern s.rest with
  | .absent => return none
  | .taken rest =>
    set (⟨rest, s.offset + lengthTo rest⟩ : Source)
    return some (s.rest.take (lengthTo rest))
  | .broken rest fault => faultAt (s.offset + lengthTo rest) fault

/-- The characters that may stand inside of a line. -/
def isSpace (c : Char) : Bool := c = ' ' || c = '\t'

/-- Whether a character may stand in a comment or a literal string. -/
def isPrinted (c : Char) : Bool :=
  c = '\t' || (0x20 ≤ c.toNat && c.toNat != 0x7F)

/-- Passes over the spaces of a line. -/
def skipSpace : Reader Unit := do
  let _ ← takeWhile isSpace

/-- Takes the end of a line, if it comes next. -/
def newline : Reader Bool := do
  if ← accept ['\n'] then return true else accept ['\r', '\n']

/-- Takes a comment, if one comes next. -/
def comment : Reader Unit := do
  if (← peek) = some '#' then
    let _ ← takeWhile isPrinted

/-- Blanks, a comment and the end of the line or of the document, behind a construct. -/
def lineEnd (construct : Option String) : Reader Unit := do
  skipSpace
  comment
  if (← peek).isSome then
    if !(← newline) then broken construct ["newline", "`#`"]

/-- Skips blanks, comments and ends of lines. -/
def skipLines : Nat → Reader Unit
  | 0 => return ()
  | fuel + 1 => do
    skipSpace
    comment
    if ← newline then skipLines fuel

/-- Passes over blank lines and comments. -/
def skipBlank : Reader Unit := do
  skipLines ((← get).rest.length + 1)

/-! ### Strings -/

/-- The character of so many hexadecimal digits. -/
def unicodeEscape (count : Nat) : Reader Char := do
  let start ← position
  let digits := ((← get).rest.take count).takeWhile isHex
  let code := inBase 16 digits
  if digits.length = count && code.isValidChar then
    let _ ← accept digits
    return Char.ofNat code
  else
    faultAt start (.broken (some ("unicode " ++ toString count ++ "-digit hex code")) [])

/-- The character behind a backslash. -/
def escape : Reader Char := do
  match ← next with
  | some 'b' => return '\x08'
  | some 't' => return '\t'
  | some 'n' => return '\n'
  | some 'f' => return '\x0c'
  | some 'r' => return '\r'
  | some '"' => return '"'
  | some '\\' => return '\\'
  | some 'u' => unicodeEscape 4
  | some 'U' => unicodeEscape 8
  | _ =>
    broken (some "escape sequence")
      ["`b`", "`f`", "`n`", "`r`", "`t`", "`u`", "`U`", "`\\`", "`\"`"]

/-- The rest of a string on one line. -/
def basicString : Nat → Reader (List Char)
  | 0 => broken (some "basic string") []
  | fuel + 1 => do
    match ← peek with
    | some '"' =>
      let _ ← next
      return []
    | some '\\' =>
      let _ ← next
      let c ← escape
      return c :: (← basicString fuel)
    | some c =>
      if isPrinted c then
        let _ ← next
        return c :: (← basicString fuel)
      else broken (some "basic string") []
    | none => broken (some "basic string") []

/-- The rest of a string without escapes on one line. -/
def literalString : Reader (List Char) := do
  let cs ← takeWhile fun c => isPrinted c && c != '\''
  if ← accept ['\''] then return cs else broken (some "literal string") []

/-- Skips the end of a line behind a backslash and all blanks that follow. -/
def skipFolded : Reader Unit := do
  let _ ← takeWhile fun c => isSpace c || c = '\n' || c = '\r'

/-- Up to two quotes in front of the three that close a string. -/
def closingQuotes (quote : Char) : Reader (Option (List Char)) := do
  let quotes := (← get).rest.takeWhile (· = quote)
  if quotes.length < 3 then return none
  else
    let inner := quotes.take (Nat.min 2 (quotes.length - 3))
    let _ ← accept (List.replicate 3 quote ++ inner)
    return some inner

/-- The rest of a string over several lines. -/
def multilineString (construct : String) (quote : Char) (escapes : Bool) : Nat → Reader (List Char)
  | 0 => broken (some construct) []
  | fuel + 1 => do
    match ← closingQuotes quote with
    | some quotes => return quotes
    | none =>
      -- every end of line is a line feed in the string
      if ← newline then return '\n' :: (← multilineString construct quote escapes fuel)
      else
        match ← peek with
        | some '\\' =>
          let _ ← next
          if escapes then
            let blanks := (← get).rest.dropWhile isSpace
            if ['\n'].isPrefixOf blanks || ['\r', '\n'].isPrefixOf blanks then
              skipFolded
              multilineString construct quote escapes fuel
            else
              let c ← escape
              return c :: (← multilineString construct quote escapes fuel)
          else return '\\' :: (← multilineString construct quote escapes fuel)
        | some c =>
          if isPrinted c then
            let _ ← next
            return c :: (← multilineString construct quote escapes fuel)
          else broken (some construct) []
        | none => broken (some construct) []

/-- A string of any kind. -/
def string : Reader String := do
  let fuel := (← get).rest.length + 1
  if ← accept ['"', '"', '"'] then
    -- an end of line right behind the opening quotes is left out
    let _ ← newline
    return String.ofList (← multilineString "multiline basic string" '"' true fuel)
  else if ← accept ['\'', '\'', '\''] then
    let _ ← newline
    return String.ofList (← multilineString "multiline literal string" '\'' false fuel)
  else if ← accept ['"'] then return String.ofList (← basicString fuel)
  else
    let _ ← next
    return String.ofList (← literalString)

/-! ### Keys -/

/-- The characters of a key without quotes. -/
def isKeyChar (c : Char) : Bool :=
  c.isAlphanum || c = '_' || c = '-'

/-- A key without points, if one comes next. -/
def simpleKey? : Reader (Option Key) := do
  let start ← position
  match ← peek with
  | some '"' =>
    let _ ← next
    let cs ← basicString ((← get).rest.length + 1)
    return some ⟨String.ofList cs, ⟨start, ← position⟩⟩
  | some '\'' =>
    let _ ← next
    let cs ← literalString
    return some ⟨String.ofList cs, ⟨start, ← position⟩⟩
  | _ =>
    let cs ← takeWhile isKeyChar
    -- a key without quotes has a character at least
    if cs.isEmpty then return none else return some ⟨String.ofList cs, ⟨start, ← position⟩⟩

/-- The keys behind the first one of a dotted key; a point without a key is left. -/
def moreKeys : Nat → Reader (List Key)
  | 0 => return []
  | fuel + 1 => do
    skipSpace
    let before ← get
    if ← accept ['.'] then
      skipSpace
      match ← simpleKey? with
      | some k => return k :: (← moreKeys fuel)
      | none =>
        -- the point is given back, and with it the blanks in front
        set before
        return []
    else return []

/-- A dotted key, if one comes next: the path and the last key. -/
def dottedKey? : Reader (Option (List Key × Key)) := do
  skipSpace
  match ← simpleKey? with
  | none => return none
  | some first =>
    let rest ← moreKeys (← get).rest.length
    return some ((first :: rest).dropLast, ((first :: rest).getLast?).getD first)

/-- A key with its path, or the complaint that there is none. -/
def dottedKey : Reader (List Key × Key) := do
  match ← dottedKey? with
  | some key => return key
  | none => broken (some "key") []

/-! ### Numbers, times and truth values -/

/-- A number that fits 64 bits; a fault is at `place`. -/
def fitting (place : Nat) (span : Span) (n : Int) : Reader Toml :=
  if Int64.minValue.toInt ≤ n && n ≤ Int64.maxValue.toInt then return .int n span
  else faultAt place .tooLarge

/-- The number of digits with a sign. -/
def signed (cs : List Char) : Int :=
  match cs with
  | '-' :: digits => -(inBase 10 digits : Int)
  | '+' :: digits => inBase 10 digits
  | digits => inBase 10 digits

/-- A whole number. -/
def integer (start : Nat) : Reader Toml := do
  let based (base : Nat) (isDigit : Char → Bool) (construct : String) : Reader Toml := do
    let digits ← take? (digitsOf isDigit construct)
    fitting start ⟨start, ← position⟩ (inBase base (digits.getD []))
  -- the other bases have no sign
  if ← accept ['0', 'x'] then based 16 isHex "hexadecimal integer"
  else if ← accept ['0', 'o'] then based 8 isOctal "octal integer"
  else if ← accept ['0', 'b'] then based 2 isBinary "binary integer"
  else
    match ← take? wholeNumber with
    | some digits => fitting (← position) ⟨start, ← position⟩ (signed digits)
    | none => broken (some "integer") []

/-- The number that has a name and no digits, if it comes next with its sign. -/
def signedName? : List Char → Option Float
  | '+' :: 'i' :: 'n' :: 'f' :: _ => some (1.0 / 0.0)
  | '-' :: 'i' :: 'n' :: 'f' :: _ => some (-1.0 / 0.0)
  | '+' :: 'n' :: 'a' :: 'n' :: _ | '-' :: 'n' :: 'a' :: 'n' :: _ => some (0.0 / 0.0)
  | _ => none

/-- A number with a fraction or a power of ten, if one comes next; it must not be too large. -/
def float? (start : Nat) : Reader (Option Toml) := do
  match ← take? fractional with
  | none =>
    let rest := (← get).rest
    match signedName? rest with
    | some x =>
      let _ ← accept (rest.take 4)
      return some (.float x ⟨start, ← position⟩)
    | none => return none
  | some cs =>
    match Decimal.read? (String.ofList (cs.filter (· != '_'))) with
    | some x =>
      -- only upwards a number can be too large; downwards it becomes infinite
      if x == 1.0 / 0.0 then broken (some floatName) [] else return some (.float x ⟨start, ← position⟩)
    | none => broken (some floatName) []

/-- A word, or else a text that lacks its quotes. -/
def word (name : List Char) (v : Span → Toml) : Reader Toml := do
  let start ← position
  if ← accept name then return v ⟨start, ← position⟩
  else broken (some "string") ["`\"`", "`'`"]

/-- A value that is no string, array or table. -/
def scalar : Reader Toml := do
  let start ← position
  match ← peek with
  | none => broken none []
  | some 't' => word ['t', 'r', 'u', 'e'] (.bool true)
  | some 'f' => word ['f', 'a', 'l', 's', 'e'] (.bool false)
  | some 'i' => word ['i', 'n', 'f'] (.float (1.0 / 0.0))
  | some 'n' => word ['n', 'a', 'n'] (.float (0.0 / 0.0))
  | some '_' => broken (some "integer") ["leading digit"]
  | some '.' => broken (some floatName) ["leading digit"]
  | some c =>
    if isSign c || c.isDigit then
      -- a date begins like a number, so it is tried first
      match ← take? moment with
      | some cs => return .time (String.ofList cs) ⟨start, ← position⟩
      | none =>
        match ← float? start with
        | some v => return v
        | none => integer start
    else broken (some "string") ["`\"`", "`'`"]

/-- Whether a text starts like a value; an array ends where it does not. -/
def startsValue : List Char → Bool
  | 'i' :: rest => ['n', 'f'].isPrefixOf rest
  | 'n' :: rest => ['a', 'n'].isPrefixOf rest
  | c :: rest =>
    if isSign c then rest.head?.any Char.isDigit || (signedName? (c :: rest)).isSome
    else c.isDigit || ['"', '\'', '[', '\x7b', 't', 'f'].contains c
  | [] => false

/-! ### Arrays and inline tables -/

section

variable (value : Reader Toml)

/-- The items of an array and its closing bracket. -/
def arrayItems : Nat → Reader (List Toml)
  | 0 => broken (some "array") ["`]`"]
  | fuel + 1 => do
    skipBlank
    if ← accept [']'] then return []
    else if !startsValue (← get).rest then broken (some "array") ["`]`"]
    else
      let v ← value
      skipBlank
      -- a comma may stand behind the last item
      if ← accept [','] then return v :: (← arrayItems fuel)
      else if ← accept [']'] then return [v]
      else broken (some "array") ["`]`"]

/-- An equals sign and a value behind a key. -/
def valueBehindKey : Reader Toml := do
  if ← accept ['='] then
    skipSpace
    value
  else broken none ["`.`", "`=`"]

/-- The entries of an inline table and its closing brace; `start` is its first place. -/
def inlineEntries (start : Nat) (entries : Entries) : Nat → Reader Entries
  | 0 => broken (some "inline table") ["`\x7d`"]
  | fuel + 1 => do
    match ← dottedKey? with
    | none => broken (some "inline table") ["`\x7d`"]
    | some (path, key) =>
      let v ← valueBehindKey value
      let entries ← ofExcept start (addDotted none key.name v [] path entries)
      skipSpace
      if ← accept ['\x7d'] then return entries
      else if (← peek) = some ',' then
        -- here it may not: the fault lies at the comma, which is given back
        let before ← get
        let _ ← next
        skipSpace
        let rest := (← get).rest
        if rest.head?.any fun c => isKeyChar c || c = '"' || c = '\'' then
          inlineEntries start entries fuel
        else
          set before
          broken (some "inline table") ["`\x7d`"]
      else broken (some "inline table") ["`\x7d`"]

end

/-- How deep arrays and inline tables may be nested. -/
def maxDepth : Nat := 79

/-- A value, with at most `depth` levels of arrays and inline tables. -/
def valueAt (depth : Nat) : Reader Toml := do
  let start ← position
  match ← peek with
  | some '"' | some '\'' =>
    let s ← string
    return .text s ⟨start, ← position⟩
  | some '[' =>
    match depth with
    | 0 => faultAt start .tooDeep
    | depth + 1 =>
      let _ ← next
      let items ← arrayItems (valueAt depth) ((← get).rest.length + 1)
      return .array items ⟨start, ← position⟩
  | some '\x7b' =>
    match depth with
    | 0 => faultAt start .tooDeep
    | depth + 1 =>
      let _ ← next
      -- faults of the entries are told from behind the brace
      let inside ← position
      skipSpace
      if ← accept ['\x7d'] then return .table .inlined [] ⟨start, ← position⟩
      else
        let entries ← inlineEntries (valueAt depth) inside [] ((← get).rest.length + 1)
        return .table .inlined entries ⟨start, ← position⟩
  | _ => scalar

/-! ### Documents -/

/-- The document so far and the path of the current header. -/
structure Draft where
  entries : Entries := []
  header : List Key := []

/-- A header in single or double brackets. -/
def header (d : Draft) : Reader Draft := do
  let start ← position
  let double ← accept ['[', '[']
  if !double then
    let _ ← next
  let (path, key) ← dottedKey
  let closed ← accept (if double then [']', ']'] else [']'])
  if !closed then broken (some "table header") ["`.`", if double then "`]]`" else "`]`"]
  let span : Span := ⟨start, ← position⟩
  -- the line must be over before the table is opened
  lineEnd (some "table header")
  let names := path.map (·.name)
  let add := if double then appendTable span names key.name else openTable span names key.name
  let entries ←
    ofExcept start ((underPath add [] path d.entries).mapError (.within "table header"))
  return ⟨entries, path ++ [key]⟩

/-- A key and value of the current table. -/
def entryLine (d : Draft) : Reader Draft := do
  let start ← position
  let (path, key) ← dottedKey
  let v ← valueBehindKey (valueAt maxDepth)
  lineEnd none
  let add := addDotted (some (d.header.map (·.name))) key.name v [] path
  let entries ← ofExcept start (underPath add [] d.header d.entries)
  return { d with entries }

/-- The lines that are left. -/
def lines (d : Draft) : Nat → Reader Entries
  | 0 => return d.entries
  | fuel + 1 => do
    skipBlank
    match ← peek with
    | none => return d.entries
    | some '[' => lines (← header d) fuel
    -- a carriage return alone ends no line
    | some '\r' => broken none []
    | some _ => lines (← entryLine d) fuel

/-- Reads a whole document. -/
def document : Reader Entries := do
  -- a byte order mark
  let _ ← accept [Char.ofNat 0xFEFF]
  lines {} ((← get).rest.length + 1)

end Reader

/-- The entries of a document. -/
def read (s : String) : Except TomlError Entries :=
  (Reader.document.run ⟨s.toList, 0⟩).map Prod.fst

end BrailleScript.Toml
