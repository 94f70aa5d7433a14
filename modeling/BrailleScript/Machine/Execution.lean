import BrailleScript.Machine.Eval

/-!
# Whole programs

A run of a program in a machine, which keeps its variables and output for the next run.
-/

namespace BrailleScript

/-- What a finished run leaves. -/
structure Execution where
  /-- The lines printed by this run. -/
  output : List String
  /-- The value of the last statement, or of a `return`. -/
  result : Value
  /-- The counts of this run; the deepest call is that of all runs. -/
  stats : RunStats
  /-- Whether the program stopped at a `halt`. -/
  halted : Bool

/-- How a run ends. -/
inductive Outcome where
  | finished (e : Execution)
  | failed (e : Error)
  | conflict
  | exhausted

namespace Execution

/-- The counts between two states. -/
def statsBetween (before after : RunStats) : RunStats where
  statements := after.statements - before.statements
  calls := after.calls - before.calls
  primitiveCalls := after.primitiveCalls - before.primitiveCalls
  loopIterations := after.loopIterations - before.loopIterations
  deepestCall := after.deepestCall

/-- What a run from one state to another leaves. -/
def between (before after : Machine) (result : Value) (halted : Bool) : Execution where
  output := after.output.toList.drop before.output.size
  result := result
  stats := statsBetween before.stats after.stats
  halted := halted

end Execution

namespace Machine

/-- Runs a program tree. -/
def execute (bound : Nat) (program : Node) (m : Machine) : Outcome × Machine :=
  match Run.sequence (exec bound) .null program.statements m with
  | .ok flow m' => (.finished (.between m m' flow.value false), m')
  | .error (.failed f) m' =>
    -- a `halt` is no failure; the run ends with no value
    if f.cause.kind = .halt then (.finished (.between m m' .null true), m')
    else (.failed (.running f), m')
  | .error .conflict m' => (.conflict, m')
  | .error .exhausted m' => (.exhausted, m')

/-- Runs source text. -/
def runSource (bound : Nat) (source : String) (m : Machine) : Outcome × Machine :=
  match parseSource m.options.lenientLiterals source with
  | .ok program => m.execute bound program
  | .error e => (.failed e, m)

end Machine

end BrailleScript
