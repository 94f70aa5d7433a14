import BrailleScript.Heap

/-!
# Equality of values

Arrays and maps are equal if their contents are; functions, classes and instances are equal to
themselves alone.  Comparing two containers that both lead back to themselves fails.
-/

namespace BrailleScript.Heap

/-- Whether all pairs are equal, from the first to the first that is not. -/
def allEqual (equal : Value → Value → Except Cause Bool) :
    List (Value × Value) → Except Cause Bool
  | [] => .ok true
  | (v, w) :: rest =>
    match equal v w with
    | .ok true => allEqual equal rest
    | other => other

/-- Compares two values while the pairs `within` are being compared. -/
def equalWithin (h : Heap) :
    (depth : Nat) → (within : List (Container × Container)) → Value → Value → Except Cause Bool
  | depth, within, .array x, .array y =>
    -- one container is equal to itself, even if it contains itself
    if x = y then .ok true
    -- the same pair again means that both go on without end
    else if (.array x, .array y) ∈ within then .error (.selfContaining .compare)
    else if (h.items x).size ≠ (h.items y).size then .ok false
    else
      match depth with
      | 0 => .error (.selfContaining .compare)
      | depth + 1 =>
        allEqual (equalWithin h depth ((.array x, .array y) :: within))
          ((h.items x).toList.zip (h.items y).toList)
  | depth, within, .map x, .map y =>
    if x = y then .ok true
    else if (.map x, .map y) ∈ within then .error (.selfContaining .compare)
    else if (h.entries x).keys ≠ (h.entries y).keys then .ok false
    else
      match depth with
      | 0 => .error (.selfContaining .compare)
      | depth + 1 =>
        allEqual (equalWithin h depth ((.map x, .map y) :: within))
          ((h.entries x).values.zip (h.entries y).values)
  | _, _, .null, .null => .ok true
  | _, _, .bool a, .bool b => .ok (a == b)
  | _, _, .number a, .number b => .ok (a == b)
  | _, _, .text a, .text b => .ok (a == b)
  -- what is no data is compared by where it was made
  | _, _, .function x _, .function y _ => .ok (x == y)
  | _, _, .builtin a, .builtin b => .ok (a == b)
  | _, _, .classValue a, .classValue b => .ok (a.id == b.id)
  | _, _, .object x _, .object y _ => .ok (x == y)
  | _, _, _, _ => .ok false

/-- Whether two values are equal.  No list of distinct pairs of containers is longer than the
square of their number. -/
def equal (h : Heap) (v w : Value) : Except Cause Bool :=
  h.equalWithin (h.size * h.size + 1) [] v w

end BrailleScript.Heap
