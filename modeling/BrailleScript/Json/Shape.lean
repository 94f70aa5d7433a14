import BrailleScript.Json.Printer
import BrailleScript.Json.Skip

/-!
# JSON texts of a given shape

A `Shape` says which JSON values are wanted; `Shape.read` reads a text and reports the first place
where it is no JSON or of another shape.  A record is written as an object, whose other fields are
skipped, or as the array of its fields in order.  The levels of containers count through all shapes.
-/

namespace BrailleScript.Json

/-- What a record does when a field is not given. -/
inductive Presence where
  /-- It must be given. -/
  | required
  /-- It is `null`. -/
  | nullable
  /-- It is left out. -/
  | defaulted
  deriving Repr, DecidableEq

/-- What is expected of a JSON value. -/
inductive Shape where
  /-- A natural number of so many bits. -/
  | nat (bits : Nat)
  /-- An integer of 64 bits. -/
  | int
  | float
  | bool
  | text
  | any
  /-- An object with any fields. -/
  | map
  /-- One of some texts, as it is or as the only key of an object with `null` under it. -/
  | choice (names : List String)
  | optional (shape : Shape)
  | list (item : Shape)
  | record (name : String) (fields : List (String × Presence × Shape))

/-- A field of a record with the reader of its value. -/
structure FieldReader where
  name : String
  presence : Presence
  value : Reader Json

namespace Reader

/-- What a fault calls a scalar. -/
def describe : Json → String
  | .null => "null"
  | .bool b => "boolean `" ++ (if b then "true" else "false") ++ "`"
  | .int n => "integer `" ++ toString n ++ "`"
  | .float x => "floating point `" ++ floatText x ++ "`"
  | .text s => "string " ++ Text.quoted s
  | .array _ => "sequence"
  | .object _ => "map"

/-- Refuses a value of another type. -/
def otherType {α : Type} (given : Json) (wanted : String) : Reader α :=
  fault (.shape ("invalid type: " ++ describe given ++ ", expected " ++ wanted))

/-- Refuses a value out of the range. -/
def otherValue {α : Type} (given : Json) (wanted : String) : Reader α :=
  fault (.shape ("invalid value: " ++ describe given ++ ", expected " ++ wanted))

/-- Refuses the next value because of its type. -/
def refuse {α : Type} (wanted : String) : Reader α := do
  match ← peek with
  | some '[' => otherType (.array []) wanted
  | some '\x7b' => otherType (.object []) wanted
  | _ => otherType (← valueAt 0) wanted

/-- Skips blanks; a value must follow. -/
def valueStart : Reader Char := do
  match ← skipSpace with
  | some c => return c
  | none => faultNext .eofInValue

/-- A number, read with `use`. -/
def numeric (wanted : String) (use : Json → Reader Json) : Reader Json := do
  let c ← valueStart
  if c = '-' || c.isDigit then use (← valueAt 0) else refuse wanted

/-- Reads a natural number of so many bits. -/
def natValue (bits : Nat) : Reader Json :=
  let wanted := "u" ++ toString bits
  numeric wanted fun
    | .int n => if 0 ≤ n && n.toNat < 1 <<< bits then return .int n else otherValue (.int n) wanted
    | other => otherType other wanted

/-- Reads an integer of 64 bits. -/
def intValue : Reader Json :=
  numeric "i64" fun
    | .int n => if n ≤ Int64.maxValue.toInt then return .int n else otherValue (.int n) "i64"
    | other => otherType other "i64"

/-- Reads a number as a float. -/
def floatValue : Reader Json :=
  numeric "f64" fun
    | .int n => return .float (Decimal.nearest (n < 0) n.natAbs 1)
    | other => return other

/-- Reads a boolean. -/
def boolValue : Reader Json := do
  let c ← valueStart
  if c = 't' || c = 'f' then valueAt 0 else refuse "a boolean"

/-- Reads a text. -/
def textValue (wanted : String) : Reader String := do
  if (← valueStart) = '"' then
    let _ ← next
    string
  else refuse wanted

/-- The word `null`. -/
def nullValue : Reader Json := do
  if (← valueStart) = 'n' then valueAt 0 else refuse "unit"

/-- Takes the opening bracket of a container, with at most `depth` levels from there. -/
def enter (depth : Nat) : Reader Unit := do
  if depth = 0 then faultNext .tooDeep
  let _ ← next

/-- One of the names, behind its opening quote. -/
def nameOf (names : List String) : Reader Json := do
  let s ← string
  if s ∈ names then return .text s
  else
    fault (.shape ("unknown variant `" ++ s ++ "`, expected one of " ++
      ", ".intercalate (names.map fun n => "`" ++ n ++ "`")))

/-- A name as the only key of an object, behind the opening brace. -/
def keyOf (names : List String) : Reader Json := do
  match ← skipSpace with
  | some '"' =>
    let _ ← next
    let j ← nameOf names
    colon
    let _ ← nullValue
    match ← skipSpace with
    | some '\x7d' =>
      let _ ← next
      return j
    | some _ => fault .expectedValue
    | none => fault .eofInObject
  | some _ => faultNext .keyMustBeString
  | none => faultNext .eofInObject

/-- Reads one of some names. -/
def choiceValue (depth : Nat) (names : List String) : Reader Json := do
  match ← valueStart with
  | '"' =>
    let _ ← next
    nameOf names
  | '\x7b' =>
    enter depth
    keyOf names
  | _ => faultNext .expectedValue

/-- Reads a value that may be `null`. -/
def optionalValue (value : Reader Json) : Reader Json := do
  if (← valueStart) = 'n' then
    let _ ← next
    ident .null ['u', 'l', 'l']
  else value

/-- Reads a list of items. -/
def listValue (depth : Nat) (item : Reader Json) : Reader Json := do
  if (← valueStart) = '[' then
    enter depth
    return .array (← itemsFuel item true ((← get).left + 1))
  else refuse "a sequence"

/-- Reads an object with any fields. -/
def mapValue (depth : Nat) : Reader Json := do
  if (← valueStart) = '\x7b' then valueAt depth else refuse "a map"

/-- The given fields of a record and the closing brace. -/
def recordFuel (fields : List FieldReader) (given : List (String × Json)) (first : Bool) :
    Nat → Reader (List (String × Json))
  | 0 => fault .eofInObject
  | fuel + 1 => do
    if ← moreFields first then
      let _ ← next
      let key ← string
      match fields.find? (·.name == key) with
      | some f =>
        -- a field may be given once, and is refused before its value is read
        if (given.lookup key).isSome then
          if (← skipSpace) = some '\x7d' then let _ ← next
          fault (.shape ("duplicate field `" ++ key ++ "`"))
        else
          colon
          let j ← f.value
          recordFuel fields ((key, j) :: given) false fuel
      | none =>
        colon
        -- fields that are not known are passed over
        skipValue
        recordFuel fields given false fuel
    else
      let _ ← next
      return given

/-- Adds the fields that are not given. -/
def complete (given : List (String × Json)) : List FieldReader → Reader (List (String × Json))
  | [] => return []
  | f :: rest => do
    match given.lookup f.name, f.presence with
    | some j, _ => return (f.name, j) :: (← complete given rest)
    | none, .nullable => return (f.name, .null) :: (← complete given rest)
    | none, .defaulted => complete given rest
    | none, .required => fault (.shape ("missing field `" ++ f.name ++ "`"))

/-- The closing bracket of a record written as an array. -/
def closeList : Reader Unit := do
  match ← skipSpace with
  | some ']' =>
    let _ ← next
    return ()
  | some ',' =>
    let _ ← next
    match ← skipSpace with
    | some ']' => faultNext .trailingComma
    | _ => faultNext .trailingCharacters
  | some _ => faultNext .trailingCharacters
  | none => faultNext .eofInList

/-- The fields of a record written as an array; `wanted` describes it and `index` counts them. -/
def positional (wanted : String) (index : Nat) : List FieldReader → Reader (List (String × Json))
  | [] => do
    closeList
    return []
  | f :: rest => do
    if ← moreItems (index == 0) then
      let j ← f.value
      return (f.name, j) :: (← positional wanted (index + 1) rest)
    -- fields with a default may be left out at the end
    else if f.presence = .defaulted then
      positional wanted (index + 1) rest
    else
      let _ ← next
      fault (.shape ("invalid length " ++ toString index ++ ", expected " ++ wanted))

/-- Reads an object or a list with the fields of a record. -/
def recordValue (depth : Nat) (name : String) (fields : List FieldReader) : Reader Json := do
  let c ← valueStart
  if c = '\x7b' then
    enter depth
    let given ← recordFuel fields [] true ((← get).left + 1)
    return .object (← complete given fields)
  -- a record may be written as an array of its fields
  else if c = '[' then
    enter depth
    let wanted := "struct " ++ name ++ " with " ++ toString fields.length ++ " elements"
    return .object (← positional wanted 0 fields)
  else refuse ("struct " ++ name)

end Reader

mutual

/-- The reader of values of a shape, with at most `depth` levels of containers. -/
def Shape.reader (depth : Nat) : Shape → Reader Json
  | .nat bits => Reader.natValue bits
  | .int => Reader.intValue
  | .float => Reader.floatValue
  | .bool => Reader.boolValue
  | .text => do return .text (← Reader.textValue "a string")
  | .any => Reader.valueAt depth
  | .map => Reader.mapValue depth
  | .choice names => Reader.choiceValue depth names
  | .optional shape => Reader.optionalValue (shape.reader depth)
  | .list item => Reader.listValue depth (item.reader (depth - 1))
  | .record name fields => Reader.recordValue depth name (fieldReaders (depth - 1) fields)

/-- The readers for the fields of a record. -/
def fieldReaders (depth : Nat) : List (String × Presence × Shape) → List FieldReader
  | [] => []
  | (name, presence, shape) :: rest =>
    ⟨name, presence, shape.reader depth⟩ :: fieldReaders depth rest

end

/-- The value of a text of the shape; a record becomes an object of its fields. -/
def Shape.read (shape : Shape) (s : String) : Except ReadError Json :=
  readWith (shape.reader Reader.maxDepth) s

end BrailleScript.Json
