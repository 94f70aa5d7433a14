/-!
# Points in time

A point in time is the number of nanoseconds since the start of 1970, without leap seconds.  Its
calendar date is found by counting years from the first of March, so that a leap day is the last
day of its year.
-/

namespace BrailleScript

/-- A point in time. -/
structure Instant where
  nanos : Int := 0
  deriving Repr, DecidableEq, Inhabited

namespace Instant

/-- The nanoseconds of a millisecond. -/
def nanosPerMilli : Nat := 1000000

/-- The nanoseconds of a second. -/
def nanosPerSecond : Nat := 1000000000

/-- Whole milliseconds since the start of 1970. -/
def millis (t : Instant) : Int :=
  t.nanos.fdiv nanosPerMilli

/-- Whole seconds since the start of 1970. -/
def seconds (t : Instant) : Int :=
  t.nanos.fdiv nanosPerSecond

/-- The nanoseconds of the second that has begun. -/
def fraction (t : Instant) : Nat :=
  (t.nanos.fmod nanosPerSecond).toNat

/-- The milliseconds from one time to a later one. -/
def millisTo (start stop : Instant) : Float :=
  let elapsed := (stop.nanos - start.nanos).toNat
  (Float.ofNat (elapsed / nanosPerSecond) + Float.ofNat (elapsed % nanosPerSecond) / 1e9) * 1000

/-- Year, month and day of a day counted from the start of 1970. -/
def civil (day : Int) : Int × Nat × Nat :=
  let z := day + 719468
  let era := z.fdiv 146097
  let dayOfEra := (z - era * 146097).toNat
  let yearOfEra := (dayOfEra - dayOfEra / 1460 + dayOfEra / 36524 - dayOfEra / 146096) / 365
  let dayOfYear := dayOfEra - (365 * yearOfEra + yearOfEra / 4 - yearOfEra / 100)
  let shifted := (5 * dayOfYear + 2) / 153
  let month := if shifted < 10 then shifted + 3 else shifted - 9
  let year : Int := yearOfEra + era * 400
  (if month ≤ 2 then year + 1 else year, month, dayOfYear - (153 * shifted + 2) / 5 + 1)

/-- A number with zeros in front of it up to a width. -/
def padded (width n : Nat) : String :=
  let digits := Nat.toDigits 10 n
  String.ofList (List.replicate (width - digits.length) '0' ++ digits)

/-- Date and time of day, with marks between their parts. -/
def clock (dash colon : String) (t : Instant) : String :=
  let (year, month, day) := civil (t.seconds.fdiv 86400)
  let second := (t.seconds.fmod 86400).toNat
  dash.intercalate [padded 4 year.toNat, padded 2 month, padded 2 day] ++ "T" ++
    colon.intercalate [padded 2 (second / 3600), padded 2 (second / 60 % 60), padded 2 (second % 60)]

/-- The fraction of a second in three, six or nine digits, as few as show it. -/
def fractionText (t : Instant) : String :=
  if t.fraction = 0 then ""
  else if t.fraction % nanosPerMilli = 0 then "." ++ padded 3 (t.fraction / nanosPerMilli)
  else if t.fraction % 1000 = 0 then "." ++ padded 6 (t.fraction / 1000)
  else "." ++ padded 9 t.fraction

/-- Date, time and offset as in RFC 3339. -/
def timestamp (t : Instant) : String :=
  clock "-" ":" t ++ fractionText t ++ "+00:00"

/-- The name of a session that starts at this time. -/
def sessionName (t : Instant) : String :=
  "s-" ++ clock "" "" t ++ "." ++ padded 3 (t.fraction / nanosPerMilli) ++ "Z"

end Instant

end BrailleScript
