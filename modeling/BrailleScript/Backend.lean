import BrailleScript.Decimal.Binary

/-!
# Backends

A backend answers text generation and embedding requests.  It need not give the same answer twice:
every request carries a number, and a backend whose answers ignore that number is a function of
the request.
-/

namespace BrailleScript

/-- The bits of something that is no number.  They have a sign and a fraction, which a `Float`
does not keep, while the order of scores depends on them. -/
structure NaNBits where
  bits : UInt64
  isNaN : Decimal.Binary.ofBits bits.toNat = .nan

/-- What arithmetic gives that has no number to give, if no operand was such a thing already. -/
def NaNBits.standard : NaNBits :=
  ⟨0xFFF8000000000000, by decide⟩

/-- What answers the requests of programs, under the name and with the defaults of its settings. -/
structure Backend where
  name : String
  /-- The model of calls that name none. -/
  model : String
  /-- The bound on the answer of calls that give none. -/
  maxTokens : Nat
  infer : (request : Nat) → (prompt model : String) → (maxTokens : Nat) → Except String String
  embed : (request : Nat) → (text : String) → Except String (List Float)
  /-- The bits of the score of a document, if it is no number.  They come from the vectors and from
  the arithmetic of the machine; `request` is the request for the vector of the document. -/
  nanBits : (request : Nat) → (query document : String) → NaNBits := fun _ _ _ => .standard

end BrailleScript
