import BrailleScript.Decimal.Layout
import BrailleScript.Json

/-!
# Numbers of the language

How programs see their numbers: whole numbers of moderate size are written and serialised without
a fraction.
-/

namespace BrailleScript.Number

/-- `|x| < bound` for a number that is whole. -/
def isWholeBelow (bound : Nat) (x : Float) : Bool :=
  Decimal.isIntegral x && (Decimal.truncate x).natAbs < bound

/-- The text of a number. -/
def text (x : Float) : String :=
  if x.isNaN then "NaN"
  else if x.isInf then if 0 < x then "Infinity" else "-Infinity"
  else if isWholeBelow 1000000000000000 x then toString (Decimal.truncate x)
  else Decimal.plain.write x

/-- The JSON form of a number; what is not finite becomes `null`. -/
def toJson (x : Float) : Json :=
  if isWholeBelow 9000000000000000 x then .int (Decimal.truncate x)
  else if x.isFinite then .float x
  else .null

/-- The number nearest to an integer. -/
def ofInt (n : Int) : Float :=
  Decimal.nearest (n < 0) n.natAbs 1

end BrailleScript.Number
