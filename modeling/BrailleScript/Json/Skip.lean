import BrailleScript.Json.Reader

/-!
# Skipping JSON

Values that nobody asked for are skipped without being built.  They must be JSON, but their numbers
may be out of range, the surrogates in their strings need no partners, and their containers may be
nested as deep as the text allows: the containers that are open stand in a list, the innermost one
first.
-/

namespace BrailleScript.Json

/-- A container of which the end is not reached. -/
inductive Frame where
  | list | object
  deriving Repr, DecidableEq

namespace Frame

/-- The byte that ends the container. -/
def close : Frame → Char
  | list => ']'
  | object => '\x7d'

/-- The fault of a text that stops inside the container. -/
def eof : Frame → Fault
  | list => .eofInList
  | object => .eofInObject

/-- The fault of a value behind which the container neither goes on nor ends. -/
def expected : Frame → Fault
  | list => .expectedListCommaOrEnd
  | object => .expectedObjectCommaOrEnd

end Frame

namespace Reader

/-! ### Scalars -/

/-- The power of ten behind the letter `e`. -/
def skipPower : Reader Unit := do
  let _ ← next
  let sign ← peek
  if sign = some '+' || sign = some '-' then let _ ← next
  if (← next).any Char.isDigit then
    let _ ← takeWhile Char.isDigit
  else fault .invalidNumber

/-- The end of a number behind its digits: a power of ten or nothing. -/
def skipFloatEnd : Reader Unit := do
  match ← peek with
  | some 'e' | some 'E' => skipPower
  | _ => return ()

/-- The end of a number behind the digits in front of the point. -/
def skipNumberEnd : Reader Unit := do
  if (← peek) = some '.' then
    let _ ← next
    if (← takeWhile Char.isDigit).isEmpty then faultNext .invalidNumber
  skipFloatEnd

/-- A number behind its sign. -/
def skipNumber : Reader Unit := do
  match ← next with
  | some '0' => if (← peek).any Char.isDigit then faultNext .invalidNumber
  | some c =>
    if c.isDigit then
      let _ ← takeWhile Char.isDigit
    else fault .invalidNumber
  | none => fault .invalidNumber
  skipNumberEnd

/-- What follows a backslash. -/
def skipEscape : Reader Unit := do
  match ← next with
  | none => fault .eofInString
  | some 'u' =>
    let _ ← hexCode
  | some c =>
    if c ∈ ['"', '\\', '/', 'b', 'f', 'n', 'r', 't'] then return () else fault .invalidEscape

/-- Passes over a string whose first quote was read; `fuel` bounds its length. -/
def skipStringFuel : Nat → Reader Unit
  | 0 => fault .eofInString
  | fuel + 1 => do
    match ← peek with
    | none => fault .eofInString
    | some '"' =>
      let _ ← next
    | some '\\' =>
      let _ ← next
      skipEscape
      skipStringFuel fuel
    | some c =>
      if c.toNat < 0x20 then fault .controlCharacter
      else
        let _ ← next
        skipStringFuel fuel

/-- A string behind its opening quote. -/
def skipString : Reader Unit := do
  skipStringFuel ((← get).left + 1)

/-! ### Containers -/

/-- Skips a scalar, or takes the opening bracket of a container and gives its frame. -/
def skipStart : Reader (Option Frame) := do
  match ← skipSpace with
  | none => faultNext .eofInValue
  | some '[' =>
    let _ ← next
    return some .list
  | some '\x7b' =>
    let _ ← next
    return some .object
  | some '"' =>
    let _ ← next
    skipString
    return none
  | some '-' =>
    let _ ← next
    skipNumber
    return none
  | some c =>
    if c.isDigit then skipNumber
    else
      -- The words are scalars and have no containers in them.
      let _ ← valueAt 0
    return none

/-- Ends the containers that end here, and gives those in which another item follows.  A comma must
stand in front of the item if the innermost container has one already. -/
def skipEnds (started : Bool) : List Frame → Reader (List Frame)
  | [] => return []
  | frame :: outer => do
    match ← skipSpace with
    | none => faultNext frame.eof
    | some c =>
      -- the comma tells that another item follows in this container
      if started && c = ',' then
        let _ ← next
        return frame :: outer
      else if c = frame.close then
        let _ ← next
        skipEnds true outer
      else if started then faultNext frame.expected
      else return frame :: outer

/-- The key of the next field and its colon, if the innermost container is an object. -/
def skipKey : List Frame → Reader Unit
  | .object :: _ => do
    match ← skipSpace with
    | some '"' =>
      let _ ← next
      skipString
      colon
    | some _ => faultNext .keyMustBeString
    | none => faultNext .eofInObject
  | _ => return ()

/-- A value and what is left of the open containers around it. -/
def skipFuel (frames : List Frame) : Nat → Reader Unit
  | 0 => return ()
  | fuel + 1 => do
    let frames ←
      match ← skipStart with
      -- a container was opened, and may end at once
      | some frame => skipEnds false (frame :: frames)
      | none => skipEnds true frames
    if frames.isEmpty then return ()
    else
      skipKey frames
      skipFuel frames fuel

/-- A value.  Each step takes at least one byte, so as many steps as bytes are enough. -/
def skipValue : Reader Unit := do
  skipFuel [] ((← get).left + 1)

end Reader

end BrailleScript.Json
