import BrailleScript.Decimal.Layout

/-!
# Numbers with a fixed count of decimals

The exact value is rounded to the given number of places, a tie to the even last digit.  The sign
of a negative value stays, also when all digits written are zero.
-/

namespace BrailleScript.Decimal

/-- `x` with exactly `places` decimals. -/
def fixed (places : Nat) (x : Float) : String :=
  match Binary.view x with
  | .nan => "NaN"
  | .infinite negative => if negative then "-inf" else "inf"
  | .finite negative m e =>
    let (n, d) := scaleTwo (m * Nat.pow 10 places) 1 e
    let body := positionalChars false ⟨roundDiv n d, -(places : Int)⟩
    String.ofList (if negative then '-' :: body else body)

end BrailleScript.Decimal
