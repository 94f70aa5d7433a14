import BrailleScript.Decimal.Binary

/-!
# The fewest digits that read back

The reals that round to a float form an interval.  `shortest` looks for a decimal number inside
it: it starts with a grid of powers of ten too coarse to have a hit and refines it by a factor of
ten until one of the two grid points around the value lies inside.  That point has the fewest
digits; of two hits the nearer is taken, and a tie goes as `Tie` says.
-/

namespace BrailleScript.Decimal

/-- Where an exact tie between two candidates goes. -/
inductive Tie where
  | up
  | toEven
  deriving Repr, DecidableEq

/-- `digits · 10 ^ exponent`. -/
structure Digits where
  digits : Nat
  exponent : Int
  deriving Repr, DecidableEq

/-- `n · 10 ^ e` and `d` as numerator and denominator without a negative power. -/
def scaleTen (n d : Nat) (e : Int) : Nat × Nat :=
  if 0 ≤ e then (n * Nat.pow 10 e.toNat, d) else (n, d * Nat.pow 10 (-e).toNat)

/-- The reals that round to a value, in units of a quarter of its last binary place, which is
`unit / scale`: they run from `low` to `high` around `value`, ends included iff `closed`. -/
structure Interval where
  low : Nat
  value : Nat
  high : Nat
  closed : Bool
  unit : Nat
  scale : Nat

/-- The interval of the positive value `mantissa · 2 ^ exponent`.  Below a power of two the
neighbour is only half as far away. -/
def Interval.of (mantissa : Nat) (exponent : Int) : Interval :=
  let atPower := mantissa = leadingBit && -1074 < exponent
  let (unit, scale) := scaleTwo 1 4 exponent
  { low := 4 * mantissa - (if atPower then 1 else 2)
    value := 4 * mantissa
    high := 4 * mantissa + 2
    closed := mantissa % 2 = 0
    unit := unit
    scale := scale }

/-- The grid point of multiples of `10 ^ k` that represents the interval, if one lies inside. -/
def Interval.pick (i : Interval) (tie : Tie) (k : Int) : Option Nat :=
  -- `position / den` is the value counted in grid steps
  let (position, den) := scaleTen (i.value * i.unit) i.scale (-k)
  let (low, _) := scaleTen (i.low * i.unit) i.scale (-k)
  let (high, _) := scaleTen (i.high * i.unit) i.scale (-k)
  let below := position / den
  let above := below + 1
  let belowIn := if i.closed then low ≤ below * den else low < below * den
  let aboveIn := if i.closed then above * den ≤ high else above * den < high
  if belowIn && aboveIn then
    let twice := 2 * (position % den)
    if twice < den then some below
    else if den < twice then some above
    else
      match tie with
      | .up => some above
      | .toEven => some (below + below % 2)
  else if belowIn then some below
  else if aboveIn then some above
  else none

/-- Refines the grid until it has a hit, at most `steps` times. -/
def Interval.search (i : Interval) (tie : Tie) : Nat → Int → Digits
  | 0, k => ⟨(scaleTen (i.value * i.unit) i.scale (-k)).1 / i.scale, k⟩
  | steps + 1, k =>
    match i.pick tie k with
    | some d => ⟨d, k⟩
    | none => i.search tie steps (k - 1)

/-- The fewest digits that read back as `mantissa · 2 ^ exponent`. -/
def shortest (tie : Tie) (mantissa : Nat) (exponent : Int) : Digits :=
  if mantissa = 0 then ⟨0, 0⟩
  else
    let top : Int := (Nat.log2 mantissa : Int) + exponent + 1
    let start : Int := top * 30103 / 100000 + 1
    (Interval.of mantissa exponent).search tie 24 start

end BrailleScript.Decimal
