import BrailleScript.Proofs.Machine.Congruence
import BrailleScript.Proofs.Machine.Wrapper

/-!
# Runs that know where their code stands

Code stands in the body of a method or outside all of them.  A placed run carries the place of the
code along: the method call in which the code lexically stands, which for a function that is no
method is the one in which the function was made.  It does what the program does, but checks
something before each node, and the check may look at the place of the node.

Two placed runs go together if their checks do (`Follows`), unless the first one is stopped by a
check.

## Key results

- `Placed.run`: a run of a program with places
- `Placed.run_follows`: runs with checks that go together go together
- `Placed.run_unchecked`: a run without checks is the run of the program
-/

namespace BrailleScript

/-- The method call that is innermost among open calls. -/
def innermost (bindings : List (Option MethodBinding)) : Option MethodBinding :=
  bindings.findSome? id

/-- The current object is the innermost one that is bound. -/
theorem Run.currentBinding_apply (m : Machine) :
    currentBinding m = .ok (innermost m.bindings) m := by
  show EStateM.Result.ok (m.frames.findSome? (·.binding)) m = _
  unfold innermost Machine.bindings
  rw [List.findSome?_map]
  rfl

/-- Where code stands. -/
structure Place where
  /-- The call of the innermost method around the code. -/
  method : Option MethodBinding
  /-- Whether that call was the innermost open one when the function around the code was called. -/
  home : Bool

/-- Outside of all functions. -/
def Place.top : Place := ⟨none, true⟩

namespace Placed

open Run

noncomputable section

open Classical in
/-- Whether two method calls are the same, or both are none. -/
def isSame : Option MethodBinding → Option MethodBinding → Bool
  | none, none => true
  | some a, some b => a = b
  | _, _ => false

/-- Bindings are the same when they are equal. -/
theorem isSame_iff {a b : Option MethodBinding} : isSame a b = true ↔ a = b := by
  cases a <;> cases b <;> simp [isSame]

/-- Stops unless a condition holds. -/
def require (stop : Stop) (condition : Bool) : Run Unit :=
  if condition then pure () else throw stop

/-- The method call in which each function was made, by the number of the function, and what is
checked before a node of a place is evaluated or executed. -/
structure Rules where
  captured : Nat → Option MethodBinding
  check : Place → Node → Run Unit

variable (R : Rules)

/-- The place of the body of a function that is called while `current` is the innermost open method
call. -/
def bodyPlace (id : Nat) (f : Closure) (current : Option MethodBinding) : Place :=
  match f.binding with
  | some b => ⟨some b, true⟩
  | none => ⟨R.captured id, isSame current (R.captured id)⟩

/-- Calls a function of the program. -/
def callFunction (steps : Place → Steps) (id : Nat) (f : Closure) (args : List Value) :
    Run Value := do
  let current ← currentBinding
  Run.callFunction (steps (bodyPlace R id f current)) f args

/-- Makes an object of a class and runs its `init` method. -/
def instantiate (steps : Place → Steps) (c : Class) (args : List Value) : Run Value := do
  let ref ← make (·.newInstance)
  if let some (method, owner) := c.findMethod "init" then
    let f := bindMethod ref c method owner
    let _ ← Run.callFunction (steps ⟨f.binding, true⟩) f args
  return .object ref c

/-- Calls a value. -/
def callValue (steps : Place → Steps) (callee : Value) (args : List Value) : Run Value :=
  match callee with
  | .builtin b => callBuiltin b args
  | .function id f => callFunction R steps id f args
  | .classValue c => instantiate steps c args
  | v => fail (.notCallable v.type)

/-- One step of an evaluation. -/
def evalStep (steps : Place → Steps) (p : Place) (node : Node) : Run Value :=
  match node with
  | .call callee args pos => do
    let f ← (steps p).eval callee
    let argv ← args.mapM (steps p).eval
    located pos (callValue R steps f argv)
  | n => do
    R.check p n
    Run.evalStep (steps p) n

/-- One step of an execution. -/
def execStep (steps : Place → Steps) (p : Place) (node : Node) : Run Flow := do
  R.check p node
  Run.execStep (steps p) node

mutual

/-- Executes a statement. -/
def exec : (bound : Nat) → Place → Node → Run Flow
  | 0, _, _ => throw Stop.exhausted
  | n + 1, p, node => execStep R (fun q => ⟨n, exec n q, eval n q, call n⟩) p node

/-- Evaluates an expression. -/
def eval : (bound : Nat) → Place → Node → Run Value
  | 0, _, _ => throw Stop.exhausted
  | n + 1, p, node => evalStep R (fun q => ⟨n, exec n q, eval n q, call n⟩) p node

/-- Calls a value. -/
def call : (bound : Nat) → Value → List Value → Run Value
  | 0, _, _ => throw Stop.exhausted
  | n + 1, callee, args => callValue R (fun q => ⟨n, exec n q, eval n q, call n⟩) callee args

end

/-- The steps at a bound, for code at each place. -/
def steps (bound : Nat) (p : Place) : Steps :=
  ⟨bound, exec R bound p, eval R bound p, call R bound⟩

/-- Runs the statements of a program. -/
def run (bound : Nat) (program : Node) : Run Flow :=
  sequence (exec R bound .top) .null program.statements

/-- The rules that check nothing. -/
def unchecked (captured : Nat → Option MethodBinding) : Rules where
  captured := captured
  check _ _ := pure ()

end

variable {α β : Type} {stop : Stop} {B : List (Option MethodBinding)} {R R' : Rules}

/-! ## How the two runs go together -/

/-- From a machine with these open calls, the second step does what the first one does and leaves the
calls open, unless the first one is stopped. -/
def Follows (stop : Stop) (B : List (Option MethodBinding)) (x y : Run α) : Prop :=
  ∀ m : Machine, m.bindings = B →
    (∃ m', x m = .error stop m') ∨ y m = x m ∧ (Ending.machine (x m)).bindings = B

/-- A failure follows itself. -/
theorem Follows.fail (c : Cause) : Follows stop B (Run.fail c : Run α) (Run.fail c) :=
  fun _ hm => .inr ⟨rfl, hm⟩

/-- What follows step by step follows in sequence. -/
theorem Follows.bind {x y : Run α} {f g : α → Run β} (hx : Follows stop B x y)
    (hf : ∀ a, Follows stop B (f a) (g a)) : Follows stop B (x >>= f) (y >>= g) := by
  intro m hm
  -- either the first step stops at a broken rule, or both go on together
  rcases hx m hm with ⟨m', hstop⟩ | ⟨hy, hB⟩
  · exact .inl ⟨m', bind_of_error hstop⟩
  · cases hxm : x m with
    | ok a m' =>
      rw [hxm] at hy hB
      rw [bind_of_ok hxm, bind_of_ok hy]
      exact hf a m' hB
    | error e m' =>
      rw [hxm] at hy hB
      rw [bind_of_error hxm, bind_of_error hy]
      exact .inr ⟨rfl, hB⟩

/-- A step with something done around it, which may open a call before it. -/
theorem Follows.wrap (hs : ∀ f, stop ≠ .failed f) {B' : List (Option MethodBinding)}
    (w : Wrapper α β) {x y : Run α} (hbefore : ∀ m, m.bindings = B → (w.before m).bindings = B')
    (hafter : ∀ m e, (Ending.machine e).bindings = B' → (Ending.machine (w.after m e)).bindings = B)
    (h : Follows stop B' x y) : Follows stop B (w.around x) (w.around y) := by
  intro m hm
  unfold Wrapper.around
  -- a run that stops inside stops outside as well
  rcases h (w.before m) (hbefore m hm) with ⟨m', hx⟩ | ⟨hy, hB⟩
  · rw [hx]
    exact .inl (w.stopped m stop m' hs)
  · rw [hy]
    exact .inr ⟨rfl, hafter m _ hB⟩

/-- What follows does so in every wrapper that keeps the frames. -/
theorem Follows.level (hs : ∀ f, stop ≠ .failed f) {w : Wrapper α β} (hw : w.Level) {x y : Run α}
    (h : Follows stop B x y) : Follows stop B (w.around x) (w.around y) :=
  h.wrap hs w (fun m hm => (congrArg Standing.bindings (hw.before m)).trans hm)
    fun m e he => (congrArg Standing.bindings (hw.after m e)).trans he

/-- It does so inside of a reflected program. -/
theorem Follows.inReflection (hs : ∀ f, stop ≠ .failed f) {x y : Run α} (h : Follows stop B x y) :
    Follows stop B (Run.inReflection x) (Run.inReflection y) := by
  refine h.wrap hs .inReflection (fun _ hm => hm) ?_
  intro m e he
  cases e <;> exact he

/-- Inside a call one more is open, and it is closed again at the end. -/
theorem Follows.inFrame (hs : ∀ f, stop ≠ .failed f) {x y : Run α} (frame : Frame)
    (h : Follows stop (frame.binding :: B) x y) :
    Follows stop B (Run.inFrame frame x) (Run.inFrame frame y) := by
  refine h.wrap hs (.inFrame frame) (fun m hm => congrArg (frame.binding :: ·) hm) ?_
  intro m e he
  -- the bindings further out are those from before
  have htail {m' : Machine} (hm' : m'.bindings = frame.binding :: B) :
      m'.frames.tail.map (·.binding) = B := by
    rw [List.map_tail]
    exact congrArg List.tail hm'
  cases e <;> exact htail he

/-- It does so with handlers that follow. -/
theorem Follows.catching (hs : ∀ f, stop ≠ .failed f) {x y : Run Flow} {h h' : Failure → Run Flow}
    (hx : Follows stop B x y) (hh : ∀ f, Follows stop B (h f) (h' f)) :
    Follows stop B (Run.catching x h) (Run.catching y h') := by
  intro m hm
  unfold Run.catching
  -- a broken rule is no failure, so no handler takes it
  rcases hx m hm with ⟨m', hstop⟩ | ⟨hy, hB⟩
  · left
    rw [hstop]
    cases stop with
    | failed f => exact absurd rfl (hs f)
    | conflict | exhausted => exact ⟨m', rfl⟩
  · rw [hy]
    generalize x m = e at hB
    match e with
    | .ok flow m' | .error .conflict m' | .error .exhausted m' => exact .inr ⟨rfl, hB⟩
    | .error (.failed f) m' =>
      dsimp only
      split
      · exact hh f m' hB
      · exact .inr ⟨rfl, hB⟩

/-- Every construct of the language keeps the two runs together. -/
def fullCongruence (hs : ∀ f, stop ≠ .failed f) (B : List (Option MethodBinding)) :
    FullCongruence where
  rel := Follows stop B
  bind := .bind
  located pos := .level hs (Wrapper.level_located pos)
  inScope id := .level hs (Wrapper.level_inScope id)
  catching := .catching hs
  throw _ _ hm := .inr ⟨rfl, hm⟩
  change h m hm := .inr ⟨rfl, (congrArg Standing.bindings (h m)).trans hm⟩
  get_bind h m hm := h m m hm
  closing started id c := .level hs (Wrapper.level_closing started id c)

/-- What the forms of a run are built from follows with the same bindings. -/
abbrev congruence (hs : ∀ f, stop ≠ .failed f) (B : List (Option MethodBinding)) : Congruence :=
  (fullCongruence hs B).toCongruence

/-- A weaker requirement follows a stronger one. -/
theorem Follows.require {stop' : Stop} {c c' : Bool} (h : c = true → c' = true) :
    Follows stop B (require stop c) (require stop' c') := by
  intro m hm
  cases c with
  | false => exact .inl ⟨m, rfl⟩
  | true =>
    rw [h rfl]
    exact .inr ⟨rfl, hm⟩

/-- A check that passes does nothing. -/
theorem Follows.require_pure (c : Bool) : Follows stop B (Placed.require stop c) (Pure.pure ()) := by
  intro m hm
  cases c with
  | false => exact .inl ⟨m, rfl⟩
  | true => exact .inr ⟨rfl, hm⟩

/-- Asking for the current object gives the innermost binding. -/
theorem Follows.currentBinding_bind {f g : Option MethodBinding → Run α}
    (h : Follows stop B (f (innermost B)) (g (innermost B))) :
    Follows stop B (currentBinding >>= f) (currentBinding >>= g) := by
  intro m hm
  have hcurrent := currentBinding_apply m
  rw [hm] at hcurrent
  rw [bind_of_ok hcurrent, bind_of_ok hcurrent]
  exact h m hm

/-! ## Whole programs -/

/-- The checks of two runs go together in code that is at home. -/
structure Rules.Follow (stop : Stop) (R R' : Rules) : Prop where
  captured : R'.captured = R.captured
  check : ∀ B p, (p.home = true → innermost B = p.method) → ∀ node,
    Follows stop B (R.check p node) (R'.check p node)

/-- The parts of two placed runs at a smaller bound go together in code that is at home. -/
def StepsFollow (hs : ∀ f, stop ≠ .failed f) (S S' : Place → Steps) : Prop :=
  ∀ B p, (p.home = true → innermost B = p.method) → (congruence hs B).StepsRelated (S p) (S' p)

variable {hs : ∀ f, stop ≠ .failed f} {S S' : Place → Steps}

/-- Calls a function whose body has the given place. -/
theorem StepsFollow.enter (h : StepsFollow hs S S') {f : Closure} {p : Place}
    (hp : p.home = true → innermost (f.binding :: B) = p.method) (args : List Value) :
    Follows stop B (Run.callFunction (S p) f args) (Run.callFunction (S' p) f args) := by
  refine (fullCongruence hs B).callFunction (fun _ => .fail _) ?_
  refine (congruence hs B).enterFunction args fun frame scope hf => ?_
  rw [← hf] at hp
  exact .inFrame hs frame ((congruence hs _).inScope scope ((h _ p hp).functionBody _))

/-- Calls of a function follow when their steps do. -/
theorem StepsFollow.callFunction (h : StepsFollow hs S S') (hc : R'.captured = R.captured) (id : Nat)
    (f : Closure) (args : List Value) :
    Follows stop B (callFunction R S id f args) (callFunction R' S' id f args) := by
  have hplace (current : Option MethodBinding) :
      bodyPlace R' id f current = bodyPlace R id f current := by
    unfold bodyPlace
    rw [hc]
  refine .currentBinding_bind ?_
  rw [hplace]
  refine h.enter ?_ args
  -- a method is at home in its own call, any other function where it was made
  unfold bodyPlace
  cases f.binding with
  | some b => exact fun _ => rfl
  | none => exact isSame_iff.1

/-- Calls of any value do too. -/
theorem StepsFollow.callValue (h : StepsFollow hs S S') (hc : R'.captured = R.captured)
    (callee : Value) (args : List Value) :
    Follows stop B (callValue R S callee args) (callValue R' S' callee args) := by
  -- functions of the program are checked at their own place, and the rest runs as it is
  cases callee with
  | builtin b => exact (congruence hs B).callBuiltin b args
  | function id f => exact h.callFunction hc id f args
  | classValue c =>
    refine .bind ((congruence hs B).of_plain (.make _)) fun ref => ?_
    dsimp only
    cases c.findMethod "init" with
    | none => exact (congruence hs B).pure _
    | some found =>
      exact .bind (h.enter (fun _ => rfl) args) fun _ => (congruence hs B).pure _
  | _ => exact (congruence hs B).fail rfl

/-- Evaluating a node follows, where the place of the node is at home only with its own method. -/
theorem StepsFollow.evalStep (h : StepsFollow hs S S') (hR : R.Follow stop R') {p : Place}
    (hp : p.home = true → innermost B = p.method) (node : Node) :
    Follows stop B (evalStep R S p node) (evalStep R' S' p node) := by
  have hr := h B p hp
  -- only calls are checked, the other nodes put their parts together
  cases node with
  | call callee args pos =>
    exact .bind (hr.eval callee) fun _ => .bind ((congruence hs B).mapM hr.eval args) fun _ =>
      (congruence hs B).located pos (h.callValue hR.captured _ _)
  | _ =>
    refine .bind (hR.check B p hp _) fun _ =>
      (fullCongruence hs B).evalStep hr (fun source => ?_) nofun
    exact (congruence hs B).reflect (fun _ => .fail _)
      (fun stmts => .inReflection hs ((congruence hs B).sequence hr.exec .null stmts)) source

/-- So does executing one. -/
theorem StepsFollow.execStep (h : StepsFollow hs S S') (hR : R.Follow stop R') {p : Place}
    (hp : p.home = true → innermost B = p.method) (node : Node) :
    Follows stop B (execStep R S p node) (execStep R' S' p node) := by
  refine .bind (hR.check B p hp node) fun _ => ?_
  cases node with
  | halt =>
    refine .bind ((congruence hs B).of_plain (.count fun _ => rfl)) fun _ m hm => ?_
    exact .inr ⟨rfl, hm⟩
  | _ => exact (h B p hp).execStep nofun

/-- Statements, expressions and calls go together at every bound. -/
theorem steps_follow (hs : ∀ f, stop ≠ .failed f) (hR : R.Follow stop R') (bound : Nat) :
    StepsFollow hs (steps R bound) (steps R' bound) := by
  -- with no bound left both give up
  induction bound with
  | zero =>
    intro B p hp
    have h {α : Type} : Follows stop B (throw .exhausted : Run α) (throw .exhausted) :=
      (congruence hs B).of_plain .exhausted
    exact ⟨rfl, fun _ => h, fun _ => h, fun _ _ => h⟩
  | succ n ih =>
    exact fun B p hp =>
      ⟨rfl, ih.execStep hR hp, ih.evalStep hR hp, fun v args => ih.callValue hR.captured v args⟩

/-- So do whole programs. -/
theorem run_follows (hs : ∀ f, stop ≠ .failed f) (hR : R.Follow stop R') (bound : Nat)
    (program : Node) : Follows stop [] (run R bound program) (run R' bound program) := by
  have htop := steps_follow hs hR bound [] .top fun _ => rfl
  exact (congruence hs []).sequence htop.exec .null program.statements

/-! ## Runs without checks -/

section Unchecked

variable (captured : Nat → Option MethodBinding)

/-- Without checks a call is the call of the run. -/
theorem callFunction_unchecked (r : Steps) (id : Nat) (f : Closure) (args : List Value) :
    callFunction (unchecked captured) (fun _ => r) id f args = Run.callFunction r f args :=
  funext fun m => bind_of_ok (currentBinding_apply m)

/-- So is the call of any value. -/
theorem callValue_unchecked (r : Steps) (callee : Value) (args : List Value) :
    callValue (unchecked captured) (fun _ => r) callee args = Run.callValue r callee args := by
  cases callee with
  | function id f => exact callFunction_unchecked captured r id f args
  | _ => rfl

/-- So is the evaluation of a node. -/
theorem evalStep_unchecked (r : Steps) (p : Place) (node : Node) :
    evalStep (unchecked captured) (fun _ => r) p node = Run.evalStep r node := by
  cases node with
  | call callee args pos => simp only [evalStep, Run.evalStep, callValue_unchecked]
  | _ => rfl

/-- Without checks statements, expressions and calls are those of the program at every place. -/
theorem steps_unchecked (bound : Nat) :
    steps (unchecked captured) bound =
      fun _ => ⟨bound, BrailleScript.exec bound, BrailleScript.eval bound, BrailleScript.call bound⟩ := by
  -- without rules to check, the place plays no part
  induction bound with
  | zero => rfl
  | succ n ih =>
    have hexec (p : Place) : exec (unchecked captured) (n + 1) p = BrailleScript.exec (n + 1) := by
      funext node
      show execStep (unchecked captured) (steps (unchecked captured) n) p node = _
      rw [ih]
      rfl
    have heval (p : Place) : eval (unchecked captured) (n + 1) p = BrailleScript.eval (n + 1) := by
      funext node
      show evalStep (unchecked captured) (steps (unchecked captured) n) p node = _
      rw [ih, evalStep_unchecked]
      rfl
    have hcall : call (unchecked captured) (n + 1) = BrailleScript.call (n + 1) := by
      funext callee args
      show callValue (unchecked captured) (steps (unchecked captured) n) callee args = _
      rw [ih, callValue_unchecked]
      rfl
    funext p
    unfold steps
    rw [hexec, heval, hcall]

/-- A run without checks is the run of the program. -/
theorem run_unchecked (bound : Nat) (program : Node) :
    run (unchecked captured) bound program =
      sequence (BrailleScript.exec bound) .null program.statements :=
  congrArg (fun S : Place → Steps => sequence (S .top).exec .null program.statements)
    (steps_unchecked captured bound)

end Unchecked

end Placed

end BrailleScript
