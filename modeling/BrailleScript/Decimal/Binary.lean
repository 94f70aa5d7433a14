/-!
# Binary floating point numbers as integers

A `Float` is either not a number, infinite, or `± mantissa · 2 ^ exponent` with a mantissa below
`2 ^ 53`.  `view` reads these parts off the bits and `nearest` goes back: it rounds a quotient of
natural numbers to the closest representable value, a tie to the even mantissa.  `remainder` is
computed on the parts, so it is exact.
-/

namespace BrailleScript.Decimal

/-- The parts of a floating point number. -/
inductive Binary where
  | nan
  | infinite (negative : Bool)
  | finite (negative : Bool) (mantissa : Nat) (exponent : Int)
  deriving Repr, DecidableEq

/-- The leading bit of a mantissa, `2 ^ 52`, which is not stored unless it is zero. -/
def leadingBit : Nat := 1 <<< 52

/-- The parts encoded by 64 bits. -/
def Binary.ofBits (bits : Nat) : Binary :=
  let negative : Bool := (bits >>> 63) % 2 = 1
  let exponent : Nat := (bits >>> 52) % 2048
  let fraction : Nat := bits % leadingBit
  if exponent = 2047 then
    if fraction = 0 then .infinite negative else .nan
  else if exponent = 0 then .finite negative fraction (-1074)
  else .finite negative (leadingBit + fraction) ((exponent : Int) - 1075)

/-- The parts of `x`. -/
def Binary.view (x : Float) : Binary :=
  .ofBits x.toBits.toNat

/-- Rounds `num / den` to the nearest integer, a tie to the even one. -/
def roundDiv (num den : Nat) : Nat :=
  let quotient := num / den
  let twice := 2 * (num % den)
  if twice < den then quotient
  else if den < twice then quotient + 1
  else quotient + quotient % 2

/-- `n · 2 ^ e` and `d` as numerator and denominator without a negative power. -/
def scaleTwo (n d : Nat) (e : Int) : Nat × Nat :=
  if 0 ≤ e then (n <<< e.toNat, d) else (n, d <<< (-e).toNat)

/-- The power of two at `num / den` or right below it. -/
def binade (num den : Nat) : Int :=
  let guess : Int := (Nat.log2 num : Int) - Nat.log2 den
  -- the logarithms of the two leave one of two powers
  let (n, d) := scaleTwo num den (-guess)
  if n < d then guess - 1 else guess

/-- The bits of `mantissa · 2 ^ exponent`; what is too large becomes infinite. -/
def encode (mantissa : Nat) (exponent : Int) : Nat :=
  if mantissa < leadingBit then mantissa
  else
    let bits := (exponent + 1075).toNat * leadingBit + (mantissa - leadingBit)
    min bits (2047 * leadingBit)

/-- The bits of the non-negative float nearest to `num / den`. -/
def nearestBits (num den : Nat) : Nat :=
  if num = 0 || den = 0 then 0
  else
    let exponent : Int := max (binade num den - 52) (-1074)
    let (n, d) := scaleTwo num den (-exponent)
    encode (roundDiv n d) exponent

/-- The float nearest to `± num / den`. -/
def nearest (negative : Bool) (num den : Nat) : Float :=
  let bits := nearestBits num den
  Float.ofBits (UInt64.ofNat (if negative then (1 <<< 63) + bits else bits))

/-- The remainder of `x / y` rounded toward zero; it has the sign of `x`. -/
def remainder (x y : Float) : Float :=
  match Binary.view x, Binary.view y with
  | .finite negative m e, .finite _ m' e' =>
    if m' = 0 then 0.0 / 0.0
    else
      -- both are scaled to the smaller exponent, where the remainder of the mantissas is exact
      let low := min e e'
      let r := (m <<< (e - low).toNat) % (m' <<< (e' - low).toNat)
      let (n, d) := scaleTwo r 1 low
      nearest negative n d
  -- a finite number is its own remainder by an infinity
  | .finite .., .infinite _ => x
  | _, _ => 0.0 / 0.0

/-- Every whole number up to this one is a float. -/
def maxExact : Nat := 1 <<< 53

/-- Whether `x` is a number without a fractional part. -/
def isIntegral (x : Float) : Bool :=
  match Binary.view x with
  | .finite _ m e => 0 ≤ e || m % (1 <<< (-e).toNat) = 0
  | _ => false

/-- The integer part of `x`, toward zero; zero if `x` is no finite number. -/
def truncate (x : Float) : Int :=
  match Binary.view x with
  | .finite negative m e =>
    let (n, d) := scaleTwo m 1 e
    let q : Int := (n / d : Nat)
    if negative then -q else q
  | _ => 0

/-- The integer part of `x`, cut to the range from 0 to `limit`. -/
def clampNat (limit : Nat) (x : Float) : Nat :=
  match Binary.view x with
  | .infinite false => limit
  | _ => min (truncate x).toNat limit

end BrailleScript.Decimal
