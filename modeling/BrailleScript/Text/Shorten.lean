/-!
# Shortened texts

A text cut to a number of characters, with an ellipsis where something was cut off.
-/

namespace BrailleScript.Text

/-- At most `max` characters of a text, and an ellipsis if there were more. -/
def shorten (max : Nat) (s : String) : String :=
  let cs := s.toList
  if cs.length ≤ max then s else String.ofList (cs.take max ++ ['…'])

end BrailleScript.Text
