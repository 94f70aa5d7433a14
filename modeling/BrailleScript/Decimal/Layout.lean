import BrailleScript.Decimal.Shortest

/-!
# Writing a number

How the digits of a number are laid out: positionally, or in scientific form outside the given
range of magnitudes.  A `Layout` holds the decisions of one output format.
-/

namespace BrailleScript.Decimal

/-- The decisions of an output format. -/
structure Layout where
  /-- Where a tie between two shortest forms goes. -/
  tie : Tie
  /-- Magnitudes `10 ^ low ≤ x < 10 ^ high` are written positionally, or all if `none`. -/
  positional : Option (Int × Int)
  /-- Whole numbers in positional form end with `.0`. -/
  pointZero : Bool
  /-- A positive exponent has a plus sign. -/
  plusSign : Bool
  nan : String
  infinity : String
  deriving Repr

/-- The digits of a natural number. -/
def natDigits (n : Nat) : List Char :=
  Nat.toDigits 10 n

/-- `digits · 10 ^ exponent` with all its zeros and a point where one is needed. -/
def positionalChars (pointZero : Bool) (d : Digits) : List Char :=
  let ds := natDigits d.digits
  if 0 ≤ d.exponent then
    let whole := if d.digits = 0 then ['0'] else ds ++ List.replicate d.exponent.toNat '0'
    if pointZero then whole ++ ['.', '0'] else whole
  else
    let places := (-d.exponent).toNat
    let padded := List.replicate (places + 1 - ds.length) '0' ++ ds
    let cut := padded.length - places
    padded.take cut ++ '.' :: padded.drop cut

/-- `digits · 10 ^ exponent` with one digit before the point and a power of ten. -/
def scientificChars (plusSign : Bool) (d : Digits) : List Char :=
  let ds := natDigits d.digits
  let power : Int := d.exponent + ds.length - 1
  let mantissa :=
    match ds with
    | [] => []
    | [c] => [c]
    | c :: rest => c :: '.' :: rest
  let sign := if power < 0 then ['-'] else if plusSign then ['+'] else []
  mantissa ++ 'e' :: sign ++ natDigits power.natAbs

/-- The digits of a magnitude in the given layout. -/
def Layout.magnitude (layout : Layout) (d : Digits) : List Char :=
  match layout.positional with
  | none => positionalChars layout.pointZero d
  | some (low, high) =>
    let power : Int := d.exponent + (natDigits d.digits).length - 1
    if d.digits = 0 || (low ≤ power && power < high) then positionalChars layout.pointZero d
    else scientificChars layout.plusSign d

/-- A number in the given layout. -/
def Layout.write (layout : Layout) (x : Float) : String :=
  match Binary.view x with
  | .nan => layout.nan
  | .infinite negative => if negative then "-" ++ layout.infinity else layout.infinity
  | .finite negative m e =>
    let body := layout.magnitude (shortest layout.tie m e)
    String.ofList (if negative then '-' :: body else body)

/-- All digits in full, without an exponent and without a superfluous point. -/
def plain : Layout :=
  { tie := .up, positional := none, pointZero := false, plusSign := false, nan := "NaN",
    infinity := "inf" }

/-- All digits in full with at least one decimal. -/
def pointed : Layout :=
  { plain with pointZero := true }

/-- At least one decimal, and powers of ten for very small and very large magnitudes. -/
def powered : Layout :=
  { pointed with positional := some (-4, 16) }

end BrailleScript.Decimal
