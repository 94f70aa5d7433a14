import BrailleScript.Proofs.JavaScript.Placeholder

/-!
# Expanding literal sources ends

A literal source is compiled where it stands, and so are the literals in it, as far down as they go.
`reflectText` bounds the depth by the length of the source.  Without a bound the compiler goes from a
source to those it quotes, which are shorter: it comes to an end, and what it gives is determined by
its own equation.

## Key results

- `quotes_wellFounded`: there is no endless way from a source to a source it quotes
- `reflectText_unique`: the equation of the unbounded compiler has one solution
- `expansion_ends`: all sources
-/

namespace BrailleScript.JavaScript

variable {p : String → String}

/-- Literals quote each other down to one that quotes none. -/
theorem quotes_wellFounded : WellFounded Quotes :=
  Subrelation.wf Quotes.length_lt (measure String.length).wf

/-- The bound on the depth is not seen. -/
theorem reflectText_eq (p : String → String) (ctx : Context) (source : String) :
    reflectText p ctx source = expand p (reflectText p) ctx source := by
  rw [reflectText, reflectLiteral_succ]
  exact expand_congr
    (fun _ hs => reflectLiteral_eq p p hs.length_lt (Nat.lt_succ_self _)) ctx

/-- Whatever satisfies the equation of the compiler is what it gives. -/
theorem reflectText_unique {r : Context → String → Emit String}
    (h : ∀ ctx source, r ctx source = expand p r ctx source) : r = reflectText p := by
  funext ctx source
  induction source using quotes_wellFounded.induction generalizing ctx with
  | _ source ih => rw [h, reflectText_eq, expand_congr ih]

/-- The literal in a program that only runs the literal. -/
private def literal? : Node → Option String
  | .program [.primitive .reflectExec [.text s] _] => some s
  | _ => none

/-- The program of a literal is the call that reflects it, and nothing else. -/
private theorem eq_of_literal? {program : Node} {s : String} (h : literal? program = some s) :
    ∃ pos, program = .program [.primitive .reflectExec [.text s] pos] := by
  unfold literal? at h
  split at h
  · cases h
    exact ⟨_, rfl⟩
  · cases h

/-- A literal in the program of a source, readable or in cells, is shorter than the source.  So there
is no endless way down from a source to the literals in it, and one function alone gives every source
the code that follows from the code of the literals in it: `reflectText`, with which programs are
compiled. -/
theorem expansion_ends (p : String → String) :
    (∀ source program inner rest pos,
        parseSource false (Readable.toCells source) = .ok program →
        (Node.primitive .reflectExec (.text inner :: rest) pos).OccursIn program →
        inner.length < source.length) ∧
      WellFounded Quotes ∧
      ∀ r, (∀ ctx source, r ctx source = expand p r ctx source) ↔ r = reflectText p := by
  refine ⟨fun source program inner rest pos hparse hocc => ?_, quotes_wellFounded,
    fun r => ⟨reflectText_unique, ?_⟩⟩
  · exact Quotes.length_lt ⟨program, rest, pos, hparse, hocc⟩
  · rintro rfl
    exact reflectText_eq p

/-- A readable source with a literal in it that is one too. -/
theorem expansion_ends_nested :
    ∃ program rest pos,
      parseSource false (Readable.toCells "reflect(\"reflect(x)\")") = .ok program ∧
      (Node.primitive .reflectExec (.text "reflect(x)" :: rest) pos).OccursIn program ∧
      "reflect(x)".length < "reflect(\"reflect(x)\")".length := by
  have hquoted : (parseSource false (Readable.toCells "reflect(\"reflect(x)\")")).toOption.bind
      literal? = some "reflect(x)" := by decide +kernel
  -- the source is readable, and its program is one literal
  cases hparse : parseSource false (Readable.toCells "reflect(\"reflect(x)\")") with
  | error e =>
    rw [hparse] at hquoted
    cases hquoted
  | ok program =>
    rw [hparse] at hquoted
    obtain ⟨pos, rfl⟩ := eq_of_literal? hquoted
    have hocc : (Node.primitive .reflectExec [.text "reflect(x)"] pos).OccursIn
        (.program [.primitive .reflectExec [.text "reflect(x)"] pos]) := .child (.head _)
    exact ⟨_, [], pos, rfl, hocc, (expansion_ends unsupported).1 _ _ _ _ _ hparse hocc⟩

end BrailleScript.JavaScript
