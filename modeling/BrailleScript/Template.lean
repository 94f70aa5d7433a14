/-!
# Templates

Texts with placeholders in braces.  A placeholder is a brace, a name and the next closing brace;
one whose name is unknown stays as it is, and so does everything behind a brace that is never
closed.
-/

namespace BrailleScript.Template

/-- Replaces the placeholders that `value?` knows. -/
def fillChars (value? : String → Option String) (cs : List Char) : List Char :=
  match cs with
  | [] => []
  | c :: rest =>
    if c = '\x7b' then
      -- the first closing brace ends the name, whatever stands in between
      match _h : rest.dropWhile (· != '\x7d') with
      | [] => c :: rest
      | close :: behind =>
        let name := rest.takeWhile (· != '\x7d')
        let filled :=
          match value? (String.ofList name) with
          | some s => s.toList
          -- what is unknown is copied whole, with all that stands in it
          | none => c :: name ++ [close]
        filled ++ fillChars value? behind
    else c :: fillChars value? rest
termination_by cs.length
decreasing_by
  · have := (List.dropWhile_suffix (l := rest) (· != '\x7d')).length_le
    rw [_h] at this
    simp only [List.length_cons] at this ⊢
    omega
  · simp

/-- Replaces the placeholders of a template that `value?` knows. -/
def fill (value? : String → Option String) (template : String) : String :=
  String.ofList (fillChars value? template.toList)

end BrailleScript.Template
