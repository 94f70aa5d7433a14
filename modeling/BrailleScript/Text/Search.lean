/-!
# Parts of a text

Where a text occurs in another one, and the pieces between its occurrences.
-/

namespace BrailleScript.Text

/-- What is behind `part` at the start of a list of characters. -/
def after? : (part cs : List Char) → Option (List Char)
  | [], cs => some cs
  | _ :: _, [] => none
  | p :: part, c :: cs => if p = c then after? part cs else none

/-- Whether `part` occurs. -/
def occursIn (part : List Char) : List Char → Bool
  | [] => part.isEmpty
  | c :: cs => (after? part (c :: cs)).isSome || occursIn part cs

/-- Whether a text has another one in it. -/
def contains (s part : String) : Bool :=
  occursIn part.toList s.toList

/-- What is behind a part, and the part, are as long as the whole. -/
theorem length_le_of_after? {part cs rest : List Char} (h : after? part cs = some rest) :
    rest.length + part.length = cs.length := by
  induction part generalizing cs with
  | nil => simp_all [after?]
  | cons p part ih =>
    cases cs with
    | nil => simp [after?] at h
    | cons c cs =>
      simp only [after?] at h
      split at h
      · have := ih h
        simp only [List.length_cons]
        omega
      · simp at h

/-- The pieces between the occurrences of a separator, which is `first :: more`; `piece` is the
part of the current piece that is already read, last character first. -/
def pieces (first : Char) (more piece : List Char) (cs : List Char) : List (List Char) :=
  match cs with
  | [] => [piece.reverse]
  | c :: rest =>
    match _h : after? (first :: more) (c :: rest) with
    | some behind => piece.reverse :: pieces first more [] behind
    | none => pieces first more (c :: piece) rest
termination_by cs.length
decreasing_by
  · have := length_le_of_after? _h
    simp only [List.length_cons] at this ⊢
    omega
  · simp

/-- The pieces of a text between the occurrences of a separator; its characters, if the separator
is empty. -/
def splitAt (s separator : String) : List String :=
  match separator.toList with
  | [] => s.toList.map String.singleton
  | first :: more => (pieces first more [] s.toList).map String.ofList

end BrailleScript.Text
