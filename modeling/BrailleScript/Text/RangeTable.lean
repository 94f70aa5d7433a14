/-!
# Tables of code point ranges

A character class is kept as a list of closed ranges of code points, in increasing order and
without overlap.  `RangeTable.contains` walks the list and stops at the first range that starts
above the character, so for a table in order it decides membership in the union of the ranges.
-/

namespace BrailleScript.Text

/-- Closed ranges of code points, in increasing order. -/
abbrev RangeTable := List (Nat × Nat)

namespace RangeTable

/-- Whether `n` lies in one of the ranges; ranges that start above `n` are not looked at. -/
def containsCode (n : Nat) : RangeTable → Bool
  | [] => false
  | (lo, hi) :: rest =>
    if n < lo then false
    else if n ≤ hi then true
    else containsCode n rest

/-- Whether the code point of `c` lies in one of the ranges. -/
def contains (table : RangeTable) (c : Char) : Bool :=
  containsCode c.toNat table

end RangeTable

end BrailleScript.Text
