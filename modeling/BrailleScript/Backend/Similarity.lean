import BrailleScript.Backend

/-!
# Similarity of vectors

The cosine of the angle between two vectors, and the total order in which scores rank: by value, the
negative zero below the positive one, and what is no number beyond the infinity of its sign.
-/

namespace BrailleScript.Backend

/-- The sum of some numbers, from left to right. -/
def sum (xs : List Float) : Float :=
  xs.foldl (· + ·) (-0.0)

/-- The length of a vector. -/
def norm (xs : List Float) : Float :=
  (sum (xs.map fun x => x * x)).sqrt

/-- The cosine of the angle between two vectors; zero if one of them has no direction. -/
def cosine (xs ys : List Float) : Float :=
  let dot := sum (List.zipWith (· * ·) xs ys)
  let m := norm xs
  let n := norm ys
  if m == 0 || n == 0 then 0 else dot / (m * n)

/-- The place of a score among all scores, where `nan` has its bits if it is no number. -/
def scoreRank (nan : NaNBits) (x : Float) : Int :=
  let bits := (if x.isNaN then nan.bits else x.toBits).toNat
  -- of the bits behind a negative sign the greatest are the lowest
  if bits < UInt64.size / 2 then bits else Int64.maxValue.toInt - bits

/-- The place of the document of a request among all documents, from the vectors of both texts. -/
def documentRank (b : Backend) (request : Nat) (query document : String) (xs ys : List Float) : Int :=
  scoreRank (b.nanBits request query document) (cosine xs ys)

/-- The first `k` items in the order of falling ranks; equal ones keep their order. -/
def topRanked {α : Type} (k : Nat) (ranked : List (Int × α)) : List α :=
  ((ranked.mergeSort fun a b => b.1 ≤ a.1).take k).map (·.2)

end BrailleScript.Backend
