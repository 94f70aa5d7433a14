import BrailleScript.Machine.Execution
import BrailleScript.Proofs.Machine.Request

/-!
# Watched runs

A watch is a condition on the calls of a run: on the arguments and results of the program's
functions and on the requests of its primitives.  A watched run goes like the run itself until a
call breaks the condition, and then stops in a given way.  The run *keeps* the watch if no call
breaks the condition: then the watched run is the run itself, in whatever way it would stop.

## Key results

- `Watch.steps_any`: a watch that admits every call changes nothing
- `Watch.keeps_any`: every run keeps it
-/

namespace BrailleScript

/-- A condition on the calls of a run. -/
structure Watch where
  /-- Whether a function of the program may be called with these arguments. -/
  args : Heap → List Value → Prop
  /-- Whether it may give this result. -/
  result : Heap → Value → Prop
  /-- Whether this request may be made. -/
  request : Request → Prop

namespace Watch

open Run

/-- The watch that admits every call. -/
def any : Watch where
  args _ _ := True
  result _ _ := True
  request _ := True

noncomputable section

open Classical in
/-- Stops unless the condition holds. -/
def require (stop : Stop) (condition : Prop) : Run Unit :=
  if condition then pure () else throw stop

variable (w : Watch) (stop : Stop)

/-- Runs a function on admitted arguments to an admitted result. -/
def enterFunction (r : Steps) (f : Closure) (args : List Value) : Run Value := do
  require stop (w.args (← get).heap args)
  let v ← Run.enterFunction r f args
  require stop (w.result (← get).heap v)
  return v

/-- Calls a function of the program. -/
def callFunction (r : Steps) (f : Closure) (args : List Value) : Run Value := do
  let m ← get
  if m.options.maxCallDepth ≤ m.frames.length then fail (.callDepth m.options.maxCallDepth)
  else
    count fun s => { s with calls := s.calls + 1 }
    if m.options.traceDeterministic then
      let input ← args.mapM json
      let v ← w.enterFunction stop r f args
      recordCall f.definition input (← json v)
      return v
    else w.enterFunction stop r f args

/-- Makes an object of a class and runs its `init` method. -/
def instantiate (r : Steps) (c : Class) (args : List Value) : Run Value := do
  let ref ← make (·.newInstance)
  if let some (method, owner) := c.findMethod "init" then
    let _ ← w.callFunction stop r (bindMethod ref c method owner) args
  return .object ref c

/-- Calls a value. -/
def callValue (r : Steps) (callee : Value) (args : List Value) : Run Value :=
  match callee with
  | .function _ f => w.callFunction stop r f args
  | .classValue c => w.instantiate stop r c args
  | v => Run.callValue r v args

/-- Calls a primitive with an admitted request. -/
def callPrimitive (r : Steps) (p : Primitive) (args : List Value) (pos : Pos) : Run Value := do
  let m ← get
  require stop (∀ q, m.request? p args = some q → w.request q)
  Run.callPrimitive r.call (sequence r.exec .null) p args pos

/-- One step of an evaluation. -/
def evalStep (r : Steps) (node : Node) : Run Value :=
  match node with
  | .call callee args pos => do
    let f ← r.eval callee
    let argv ← args.mapM r.eval
    located pos (w.callValue stop r f argv)
  | .primitive p args pos => do
    let argv ← args.mapM r.eval
    located pos (w.callPrimitive stop r p argv pos)
  | n => Run.evalStep r n

mutual

/-- Executes a statement. -/
def exec : (bound : Nat) → Node → Run Flow
  | 0, _ => throw Stop.exhausted
  | n + 1, node => Run.execStep ⟨n, exec n, eval n, call n⟩ node

/-- Evaluates an expression. -/
def eval : (bound : Nat) → Node → Run Value
  | 0, _ => throw Stop.exhausted
  | n + 1, node => w.evalStep stop ⟨n, exec n, eval n, call n⟩ node

/-- Calls a value. -/
def call : (bound : Nat) → Value → List Value → Run Value
  | 0, _, _ => throw Stop.exhausted
  | n + 1, callee, args => w.callValue stop ⟨n, exec n, eval n, call n⟩ callee args

end

/-- Runs the statements of a program. -/
def run (bound : Nat) (program : Node) : Run Flow :=
  sequence (w.exec stop bound) .null program.statements

end

/-- No call of the run breaks the condition, so it does not matter how the watch would stop it. -/
def Keeps (w : Watch) (bound : Nat) (program : Node) (m : Machine) : Prop :=
  ∀ stop, w.run stop bound program m = sequence (BrailleScript.exec bound) .null program.statements m

/-! ## The watch that admits every call -/

/-- A requirement that is met does nothing. -/
theorem require_of {stop : Stop} {condition : Prop} (h : condition) :
    require stop condition = pure () := if_pos h

/-- One that is not met stops. -/
theorem require_of_not {stop : Stop} {condition : Prop} (h : ¬condition) :
    require stop condition = throw stop := if_neg h

/-- What matters about the watch of a call is how it enters the function. -/
theorem callFunction_congr {w : Watch} {stop : Stop} {r r' : Steps} {f : Closure} {args : List Value}
    (h : w.enterFunction stop r f args = Run.enterFunction r' f args) :
    w.callFunction stop r f args = Run.callFunction r' f args := by
  unfold callFunction Run.callFunction
  rw [h]

/-- A watch that admits all arguments and results does not change calls of functions. -/
theorem callFunction_of_admits {w : Watch} (hargs : ∀ h args, w.args h args)
    (hresult : ∀ h v, w.result h v) (stop : Stop) (r : Steps) (f : Closure) (args : List Value) :
    w.callFunction stop r f args = Run.callFunction r f args := by
  apply callFunction_congr
  funext m
  simp only [enterFunction, require_of, hargs, hresult]
  show (Run.enterFunction r f args >>= fun v => pure v) m = _
  rw [bind_pure]

/-- A primitive whose request the watch admits is called. -/
theorem callPrimitive_of_admits {w : Watch} {p : Primitive} {args : List Value} {m : Machine}
    (h : ∀ q, m.request? p args = some q → w.request q) (stop : Stop) (r : Steps) (pos : Pos) :
    w.callPrimitive stop r p args pos m =
      Run.callPrimitive r.call (sequence r.exec .null) p args pos m := by
  show (require stop (∀ q, m.request? p args = some q → w.request q) >>= fun _ => _) m = _
  rw [require_of h]
  rfl

/-- A primitive whose request it does not admit is not. -/
theorem callPrimitive_of_rejects {w : Watch} {p : Primitive} {args : List Value} {m : Machine}
    (h : ¬∀ q, m.request? p args = some q → w.request q) (stop : Stop) (r : Steps) (pos : Pos) :
    w.callPrimitive stop r p args pos m = .error stop m := by
  show (require stop (∀ q, m.request? p args = some q → w.request q) >>= fun _ => _) m = _
  rw [require_of_not h]
  rfl

/-- The watch changes nothing about an expression that calls nothing. -/
theorem evalStep_of_ne {w : Watch} {stop : Stop} {r : Steps} {node : Node}
    (hcall : ∀ callee args pos, node ≠ .call callee args pos)
    (hprimitive : ∀ p args pos, node ≠ .primitive p args pos) :
    w.evalStep stop r node = Run.evalStep r node := by
  cases node with
  | call => exact absurd rfl (hcall _ _ _)
  | primitive => exact absurd rfl (hprimitive _ _ _)
  | _ => rfl

/-- The watch that admits everything calls functions as the run does. -/
theorem callFunction_any (stop : Stop) (r : Steps) (f : Closure) (args : List Value) :
    any.callFunction stop r f args = Run.callFunction r f args :=
  callFunction_of_admits (fun _ _ => trivial) (fun _ _ => trivial) stop r f args

/-- It calls all values so. -/
theorem callValue_any (stop : Stop) (r : Steps) (callee : Value) (args : List Value) :
    any.callValue stop r callee args = Run.callValue r callee args := by
  cases callee with
  | function id f => exact callFunction_any stop r f args
  | classValue c =>
    have hcall : any.callFunction stop r = Run.callFunction r :=
      funext fun f => funext fun args => callFunction_any stop r f args
    show any.instantiate stop r c args = Run.instantiate r c args
    unfold instantiate Run.instantiate
    -- what the rewriting leaves are two copies of one match
    rewrite [hcall]
    rfl
  | _ => rfl

/-- It evaluates nodes so. -/
theorem evalStep_any (stop : Stop) (r : Steps) (node : Node) :
    any.evalStep stop r node = Run.evalStep r node := by
  cases node with
  | call callee args pos => simp only [evalStep, Run.evalStep, callValue_any]
  | primitive p args pos =>
    -- a watch that admits all requests sees no difference
    have hcall (argv : List Value) : any.callPrimitive stop r p argv pos =
        Run.callPrimitive r.call (sequence r.exec .null) p argv pos :=
      funext fun m => callPrimitive_of_admits (fun _ _ => trivial) stop r pos
    simp only [evalStep, Run.evalStep, hcall]
  | _ => rfl

/-- Watching every call admits leaves statements, expressions and calls as they are. -/
theorem steps_any (stop : Stop) (bound : Nat) :
    any.exec stop bound = BrailleScript.exec bound ∧
      any.eval stop bound = BrailleScript.eval bound ∧
      any.call stop bound = BrailleScript.call bound := by
  -- the three go together: each of them steps into the other two
  induction bound with
  | zero => exact ⟨rfl, rfl, rfl⟩
  | succ n ih =>
    obtain ⟨hexec, heval, hcall⟩ := ih
    refine ⟨?_, ?_, ?_⟩
    · funext node
      rw [exec, BrailleScript.exec, hexec, heval, hcall]
    · funext node
      rw [eval, BrailleScript.eval, hexec, heval, hcall, evalStep_any]
    · funext callee args
      rw [call, BrailleScript.call, hexec, heval, hcall, callValue_any]

/-- Every run keeps the watch that admits every call. -/
theorem keeps_any (bound : Nat) (program : Node) (m : Machine) : any.Keeps bound program m := by
  intro stop
  rw [run, (steps_any stop bound).1]

end Watch

end BrailleScript
