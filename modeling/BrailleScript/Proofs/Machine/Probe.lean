import BrailleScript.Proofs.Machine.Congruence

/-!
# Probed runs

A probe is put into a run of a program at two kinds of places: before each step, where it may look
at the machine and stop the run, and wherever a call or a reflection is refused because too many are
open, where it says what becomes of it.  Apart from that a probed run is the run of the program.

Such runs go together with the run itself in a way that may depend on how many calls and reflections
are open (`Probe.Follows`).

## Key results

- `Probe.run`: a run of a program with a probe
- `Probe.Follows.steps`: statements, expressions and calls go together at every bound and depth
- `Probe.Follows.run`: so do whole programs
-/

namespace BrailleScript

/-- What is put into a run. -/
structure Probe where
  /-- What is done before each step. -/
  visit : Run Unit
  /-- What becomes of a call or a reflection that is refused for a cause. -/
  refuse : Cause → Run Value

namespace Probe

open Run

section Runs

variable (P : Probe)

/-- Calls a function of the program. -/
def callFunction (r : Steps) (f : Closure) (args : List Value) : Run Value := do
  let m ← get
  if m.options.maxCallDepth ≤ m.frames.length then P.refuse (.callDepth m.options.maxCallDepth)
  else calling m.options.traceDeterministic r f args

/-- Runs source text one level deeper in reflection. -/
def reflect (run : List Node → Run Flow) (source : String) : Run Value := do
  let m ← get
  if m.options.maxReflectDepth ≤ m.reflectDepth then
    P.refuse (.reflectDepth m.options.maxReflectDepth)
  else reflecting m.options.lenientLiterals run source

/-- Calls a primitive; the beginning of a reflection counts as a step. -/
def callPrimitive (r : Steps) (p : Primitive) (args : List Value) (pos : Pos) : Run Value :=
  match p with
  | .reflectExec => do
    count fun s => { s with primitiveCalls := s.primitiveCalls + 1 }
    callReflect (P.reflect fun stmts => do P.visit; sequence r.exec .null stmts) args pos
  | p => Run.callPrimitive r.call (sequence r.exec .null) p args pos

/-- One step of an evaluation. -/
def evalStep (r : Steps) (node : Node) : Run Value :=
  match node with
  | .call callee args pos => do
    let f ← r.eval callee
    let argv ← args.mapM r.eval
    located pos (callThrough (P.callFunction r) f argv)
  | .primitive p args pos => do
    let argv ← args.mapM r.eval
    located pos (P.callPrimitive r p argv pos)
  | n => Run.evalStep r n

mutual

/-- Executes a statement. -/
def exec : (bound : Nat) → Node → Run Flow
  | 0, _ => throw Stop.exhausted
  | n + 1, node => do
    P.visit
    Run.execStep ⟨n, exec n, eval n, call n⟩ node

/-- Evaluates an expression. -/
def eval : (bound : Nat) → Node → Run Value
  | 0, _ => throw Stop.exhausted
  | n + 1, node => do
    P.visit
    P.evalStep ⟨n, exec n, eval n, call n⟩ node

/-- Calls a value. -/
def call : (bound : Nat) → Value → List Value → Run Value
  | 0, _, _ => throw Stop.exhausted
  | n + 1, callee, args => do
    P.visit
    callThrough (P.callFunction ⟨n, exec n, eval n, call n⟩) callee args

end

/-- The steps at a bound. -/
def steps (bound : Nat) : Steps :=
  ⟨bound, P.exec bound, P.eval bound, P.call bound⟩

/-- Runs the statements of a program. -/
def run (bound : Nat) (program : Node) : Run Flow :=
  sequence (P.exec bound) .null program.statements

end Runs

/-- A primitive that does not reflect is called as it is. -/
theorem callPrimitive_of_ne {P : Probe} {p : Primitive} (hp : p ≠ .reflectExec) (r : Steps)
    (args : List Value) (pos : Pos) :
    P.callPrimitive r p args pos = Run.callPrimitive r.call (sequence r.exec .null) p args pos := by
  cases p with
  | reflectExec => exact absurd rfl hp
  | _ => rfl

/-- So is an expression that calls nothing evaluated. -/
theorem evalStep_of_ne {P : Probe} {r : Steps} {node : Node}
    (hcall : ∀ callee args pos, node ≠ .call callee args pos)
    (hprimitive : ∀ p args pos, node ≠ .primitive p args pos) :
    P.evalStep r node = Run.evalStep r node := by
  cases node with
  | call => exact absurd rfl (hcall _ _ _)
  | primitive => exact absurd rfl (hprimitive _ _ _)
  | _ => rfl

/-! ## How a probed run goes together with the run -/

/-- The probe is related to what it stands for: nothing where it visits, and the refusal where it
refuses.  There is a relation for each number of open calls and reflections, and the body of a
function is run with one call more, reflected source with one reflection more. -/
structure Follows (P : Probe) (C : (calls reflections : Nat) → FullCongruence) : Prop where
  visit : ∀ d k, (C d k).rel P.visit (pure ())
  halted : ∀ d k, (C d k).rel (fail .halted : Run Flow) (fail .halted)
  call : ∀ d k {r r' : Steps} {f : Closure},
    (∀ scope, (C (d + 1) k).rel (inScope scope (functionBody r f.definition.body))
      (inScope scope (functionBody r' f.definition.body))) →
        ∀ args, (C d k).rel (P.callFunction r f args) (Run.callFunction r' f args)
  reflect : ∀ d k {run run' : List Node → Run Flow},
    (∀ stmts, (C d (k + 1)).rel (run stmts) (run' stmts)) →
      ∀ source, (C d k).rel (P.reflect run source) (Run.reflect run' source)

namespace Follows

variable {P : Probe} {C : Nat → Nat → FullCongruence} {r r' : Steps}

/-- The parts of a probed run at a smaller bound go together with those of the run at every
depth. -/
def StepsFollow (C : Nat → Nat → FullCongruence) (r r' : Steps) : Prop :=
  ∀ d k, (C d k).toCongruence.StepsRelated r r'

/-- A visit before a step changes nothing. -/
theorem visited (hP : P.Follows C) {α : Type} {d k : Nat} {x y : Run α} (h : (C d k).rel x y) :
    (C d k).rel (do P.visit; x) y := by
  have hv : (C d k).rel (do P.visit; x) (pure () >>= fun _ => y) :=
    (C d k).bind (hP.visit d k) fun _ => h
  rwa [pure_bind] at hv

/-- A probed call is related to the call of the run. -/
theorem callFunction (hP : P.Follows C) (h : StepsFollow C r r') (d k : Nat) (f : Closure)
    (args : List Value) : (C d k).rel (P.callFunction r f args) (Run.callFunction r' f args) :=
  hP.call d k (fun scope => (C (d + 1) k).inScope scope ((h (d + 1) k).functionBody _)) args

/-- So is the call of any value. -/
theorem callValue (hP : P.Follows C) (h : StepsFollow C r r') (d k : Nat) (callee : Value)
    (args : List Value) :
    (C d k).rel (callThrough (P.callFunction r) callee args) (Run.callValue r' callee args) := by
  rw [callValue_eq]
  exact (C d k).toCongruence.callThrough (fun f args => hP.callFunction h d k f args) callee args

/-- So is that of a primitive. -/
theorem callPrimitive (hP : P.Follows C) (h : StepsFollow C r r') (d k : Nat) (p : Primitive)
    (args : List Value) (pos : Pos) :
    (C d k).rel (P.callPrimitive r p args pos)
      (Run.callPrimitive r'.call (sequence r'.exec .null) p args pos) := by
  have hrun (stmts : List Node) : (C d (k + 1)).rel (sequence r.exec .null stmts)
      (sequence r'.exec .null stmts) :=
    (C d (k + 1)).toCongruence.sequence (h d (k + 1)).exec .null stmts
  -- only a reflection opens one more
  by_cases hp : p = .reflectExec
  · subst hp
    refine (C d k).bind (FullCongruence.of_plain (.count fun _ => rfl)) fun _ => ?_
    exact (C d k).toCongruence.callReflect
      (hP.reflect d k fun stmts => hP.visited (hrun stmts)) args pos
  · rw [callPrimitive_of_ne hp]
    exact (C d k).callPrimitive (h d k).call (absurd · hp) args pos

/-- So is the evaluation of a node. -/
theorem evalStep (hP : P.Follows C) (h : StepsFollow C r r') (d k : Nat) (node : Node) :
    (C d k).rel (P.evalStep r node) (Run.evalStep r' node) := by
  have hargs (args : List Node) : (C d k).rel (args.mapM r.eval) (args.mapM r'.eval) :=
    (C d k).toCongruence.mapM (h d k).eval args
  -- only calls and primitives count what they meet
  cases node with
  | call callee args pos =>
    exact (C d k).bind ((h d k).eval callee) fun _ => (C d k).bind (hargs args) fun _ =>
      (C d k).located pos (hP.callValue h d k _ _)
  | primitive p args pos =>
    exact (C d k).bind (hargs args) fun _ => (C d k).located pos (hP.callPrimitive h d k p _ pos)
  | _ =>
    rw [evalStep_of_ne]
    · exact (h d k).evalStep nofun nofun
    · nofun
    · nofun

/-- So is its execution. -/
theorem execStep (hP : P.Follows C) (h : StepsFollow C r r') (d k : Nat) (node : Node) :
    (C d k).rel (Run.execStep r node) (Run.execStep r' node) := by
  cases node with
  | halt =>
    exact (C d k).bind (FullCongruence.of_plain (.count fun _ => rfl)) fun _ => hP.halted d k
  | _ => exact (h d k).execStep nofun

/-- Statements, expressions and calls go together at every bound. -/
theorem steps (hP : P.Follows C) (bound : Nat) :
    StepsFollow C (P.steps bound)
      ⟨bound, BrailleScript.exec bound, BrailleScript.eval bound, BrailleScript.call bound⟩ := by
  -- one bound serves all depths: a call goes deeper and steps down at once
  induction bound with
  | zero =>
    intro d k
    have h {α : Type} : (C d k).rel (throw .exhausted : Run α) (throw .exhausted) :=
      FullCongruence.of_plain .exhausted
    exact ⟨rfl, fun _ => h, fun _ => h, fun _ _ => h⟩
  | succ n ih =>
    exact fun d k =>
      ⟨rfl, fun node => hP.visited (hP.execStep ih d k node),
        fun node => hP.visited (hP.evalStep ih d k node),
        fun callee args => hP.visited (hP.callValue ih d k callee args)⟩

/-- So do whole programs. -/
theorem run (hP : P.Follows C) (bound : Nat) (program : Node) (d k : Nat) :
    (C d k).rel (P.run bound program)
      (sequence (BrailleScript.exec bound) .null program.statements) :=
  (C d k).toCongruence.sequence (hP.steps bound d k).exec .null program.statements

end Follows

end Probe

end BrailleScript
