import BrailleScript.Backend.DryRun
import BrailleScript.Proofs.Machine.Congruence
import BrailleScript.Proofs.Machine.Wrapper

/-!
# A halt is final

A failure of kind `Halt` arises where a `halt` statement runs and nowhere else, and from there it
passes every construct untouched: no statement, handler, call or print runs after it.

To say when a `halt` statement runs, the run is repeated with another step in the place of `halt`
(`Halting.run`).  With a step that stops at once in machines of a given kind and halts in all
others, the repeated run differs from the run itself just if a `halt` statement runs in a machine of
that kind (`Machine.HaltsIn`).

## Key results

- `Halting.Alike`: how the two runs go together after any step
- `Halting.steps`: statements, expressions and calls keep the two runs together
- `halt_is_final`: what a program leaves that halts is what was there when its `halt` ran
-/

namespace BrailleScript

namespace Halting

open Run

section Runs

variable (halting : Run Flow)

/-- One step of an execution in which another step stands for `halt`. -/
def execStep (r : Steps) (node : Node) : Run Flow :=
  match node with
  | .halt => do
    count fun s => { s with statements := s.statements + 1 }
    halting
  | node => Run.execStep r node

mutual

/-- Executes a statement. -/
def exec : (bound : Nat) → Node → Run Flow
  | 0, _ => throw Stop.exhausted
  | n + 1, node => execStep halting ⟨n, exec n, eval n, call n⟩ node

/-- Evaluates an expression. -/
def eval : (bound : Nat) → Node → Run Value
  | 0, _ => throw Stop.exhausted
  | n + 1, node => Run.evalStep ⟨n, exec n, eval n, call n⟩ node

/-- Calls a value. -/
def call : (bound : Nat) → Value → List Value → Run Value
  | 0, _, _ => throw Stop.exhausted
  | n + 1, callee, args => Run.callValue ⟨n, exec n, eval n, call n⟩ callee args

end

/-- Runs the statements of a program. -/
def run (bound : Nat) (program : Node) : Run Flow :=
  sequence (exec halting bound) .null program.statements

end Runs

open Classical in
/-- Stops the run at once in the machines with `H`, and halts in all others. -/
noncomputable def stopIn (H : Machine → Prop) : Run Flow := fun m =>
  if H m then (throw Stop.exhausted : Run Flow) m else (fail .halted : Run Flow) m

end Halting

/-- A `halt` statement of the program runs in a machine with `H`: to stop there is not the same. -/
def Machine.HaltsIn (m : Machine) (H : Machine → Prop) (bound : Nat) (program : Node) : Prop :=
  Halting.run (Halting.stopIn H) bound program m ≠
    Run.sequence (exec bound) .null program.statements m

namespace Halting

open Run

variable {α β : Type} {H : Machine → Prop}

/-! ## How the two runs go together -/

/-- How a step ends in the run itself and in the run that stops in `H`. -/
inductive Alike (H : Machine → Prop) : Ending α → Ending α → Prop where
  | ok (a : α) (m : Machine) : Alike H (.ok a m) (.ok a m)
  | stop {stop : Stop} (m : Machine) (h : ∀ f, stop = .failed f → f.cause ≠ .halted) :
    Alike H (.error stop m) (.error stop m)
  /-- Both runs halt, in a machine without `H`. -/
  | halted {f : Failure} {mh m : Machine} (hf : f.cause = .halted) (hm : mh.Agrees m)
    (h : ¬H mh) : Alike H (.error (.failed f) m) (.error (.failed f) m)
  /-- The run itself halts in a machine with `H`, where the other run stops. -/
  | stopped {f : Failure} {mh m m' : Machine} (hf : f.cause = .halted) (hm : mh.Agrees m)
    (h : H mh) : Alike H (.error (.failed f) m) (.error .exhausted m')

/-- A step that keeps the two runs together. -/
def Together (H : Machine → Prop) (x y : Run α) : Prop :=
  ∀ m, Alike H (x m) (y m)

/-- Two runs that stay together stay so in sequence. -/
theorem Together.bind {x y : Run α} {f g : α → Run β} (hx : Together H x y)
    (hf : ∀ a, Together H (f a) (g a)) : Together H (x >>= f) (y >>= g) := by
  intro m
  show Alike H (EStateM.bind x f m) (EStateM.bind y g m)
  have hm := hx m
  unfold EStateM.bind
  generalize x m = e, y m = e' at hm
  -- a run that has halted does not go on, and the other one stops with it
  cases hm with
  | ok a m' => exact hf a m'
  | stop m' h => exact .stop m' h
  | halted hc hm' h => exact .halted hc hm' h
  | stopped hc hm' h => exact .stopped hc hm' h

/-- A failure other than a halt is the same for both. -/
theorem Together.fail {c : Cause} (h : c ≠ .halted) :
    Together H (Run.fail c : Run α) (Run.fail c) := by
  refine fun m => .stop m fun f hf => ?_
  cases hf
  exact h

/-- A step with something done around it.  What is done after a halt leaves it a halt and touches no
variable, heap, output or counter. -/
theorem Together.wrap {x y : Run α} (w : Wrapper α β) (h : Together H x y) :
    Together H (w.around x) (w.around y) := by
  intro m
  have hm := h (w.before m)
  unfold Wrapper.around
  generalize x (w.before m) = e, y (w.before m) = e' at hm
  cases hm with
  | ok a m' =>
    obtain ⟨b, m'', hb⟩ := w.ok m a m'
    rw [hb]
    exact .ok b m''
  | @stop stop m' hs =>
    -- a failure may be changed on its way out, but keeps its cause; other stops pass as they are
    cases stop with
    | failed f =>
      obtain ⟨f', m'', hf', hc, -⟩ := w.failed m f m'
      rw [hf']
      refine .stop m'' fun g hg => ?_
      cases hg
      rw [hc]
      exact hs f rfl
    | conflict =>
      obtain ⟨m'', hm''⟩ := w.stopped m .conflict m' fun _ h => nomatch h
      rw [hm'']
      exact .stop m'' fun _ h => nomatch h
    | exhausted =>
      obtain ⟨m'', hm''⟩ := w.stopped m .exhausted m' fun _ h => nomatch h
      rw [hm'']
      exact .stop m'' fun _ h => nomatch h
  | @halted f mh m' hc hm' hh =>
    obtain ⟨f', m'', hf', hc', hm''⟩ := w.failed m f m'
    rw [hf']
    exact .halted (hc'.trans hc) (hm'.trans hm'') hh
  | @stopped f mh m' n hc hm' hh =>
    obtain ⟨f', m'', hf', hc', hm''⟩ := w.failed m f m'
    obtain ⟨n', hn'⟩ := w.stopped m .exhausted n fun _ h => nomatch h
    rw [hf', hn']
    exact .stopped (hc'.trans hc) (hm'.trans hm'') hh

/-- A halt is not caught, so the handler runs in both runs or in neither. -/
theorem Together.catching {x y : Run Flow} {h h' : Failure → Run Flow} (hx : Together H x y)
    (hh : ∀ f, Together H (h f) (h' f)) : Together H (Run.catching x h) (Run.catching y h') := by
  intro m
  have hm := hx m
  -- the handler is only asked about failures that are no halt
  have huncaught {f : Failure} (hf : f.cause = .halted) : f.cause.kind.isCatchable = false := by
    rw [hf]
    rfl
  unfold Run.catching
  generalize x m = e, y m = e' at hm
  cases hm with
  | ok a m' => exact .ok a m'
  | @stop stop m' hs =>
    cases stop with
    | failed f =>
      dsimp only
      split
      · -- the body failed alike in both runs, and both go to the handler
        exact hh f m'
      · exact .stop m' hs
    | conflict | exhausted => exact .stop m' hs
  | halted hc hm' hH =>
    simp only [huncaught hc]
    exact .halted hc hm' hH
  | stopped hc hm' hH =>
    simp only [huncaught hc]
    exact .stopped hc hm' hH

/-- Every construct of the language keeps the two runs together. -/
def fullCongruence (H : Machine → Prop) : FullCongruence where
  rel := Together H
  bind := .bind
  located pos h := h.wrap (.located pos)
  inScope id h := h.wrap (.inScope id)
  catching := .catching
  throw h _ := .stop _ fun f hf => Cause.ne_halted (h f hf)
  change _ _ := .ok _ _
  get_bind h m := h m m
  closing started id c h := h.wrap (.closing started id c)

/-- What the forms of a run are built from keeps two runs together. -/
abbrev congruence (H : Machine → Prop) : Congruence := (fullCongruence H).toCongruence

/-! ## Whole programs -/

/-- Calls of a function stay together when their steps do. -/
theorem Together.callFunction {r r' : Steps} (h : (congruence H).StepsRelated r r') (f : Closure)
    (args : List Value) :
    Together H (Run.callFunction r f args) (Run.callFunction r' f args) :=
  (fullCongruence H).callFunction (fun _ => .fail nofun)
    ((congruence H).enterFunction args fun frame scope _ =>
      ((congruence H).inScope scope (h.functionBody _)).wrap (.inFrame frame))

/-- Calls of any value do too. -/
theorem Together.callValue {r r' : Steps} (h : (congruence H).StepsRelated r r') (callee : Value)
    (args : List Value) : Together H (Run.callValue r callee args) (Run.callValue r' callee args) := by
  rw [callValue_eq, callValue_eq]
  exact (congruence H).callThrough (fun f args => .callFunction h f args) callee args

/-- Evaluating a node stays together. -/
theorem Together.evalStep {r r' : Steps} (h : (congruence H).StepsRelated r r') (node : Node) :
    Together H (Run.evalStep r node) (Run.evalStep r' node) := by
  cases node with
  | call callee args pos =>
    exact .bind (h.eval callee) fun _ => .bind ((congruence H).mapM h.eval args) fun _ =>
      (congruence H).located pos (Together.callValue h _ _)
  | _ =>
    refine (fullCongruence H).evalStep h (fun source => ?_) nofun
    exact (congruence H).reflect (fun _ => .fail nofun)
      (fun stmts => ((congruence H).sequence h.exec .null stmts).wrap .inReflection) source

/-- Executing one stays together with executing it where a halt stops everything. -/
theorem Together.execStep {r r' : Steps} (h : (congruence H).StepsRelated r r') (node : Node) :
    Together H (Run.execStep r node) (Halting.execStep (stopIn H) r' node) := by
  cases node with
  | halt =>
    refine .bind ((congruence H).of_plain (.count fun _ => rfl)) fun _ => ?_
    intro m
    -- here the two runs part, if they do
    unfold stopIn
    split
    · exact .stopped rfl (.refl m) ‹_›
    · exact .halted rfl (.refl m) ‹_›
  | _ => exact h.execStep nofun

/-- Statements, expressions and calls keep the two runs together at every bound. -/
theorem steps (H : Machine → Prop) (bound : Nat) :
    (congruence H).StepsRelated
      ⟨bound, BrailleScript.exec bound, BrailleScript.eval bound, BrailleScript.call bound⟩
      ⟨bound, exec (stopIn H) bound, eval (stopIn H) bound, call (stopIn H) bound⟩ := by
  induction bound with
  | zero =>
    have h {α : Type} : Together H (throw .exhausted : Run α) (throw .exhausted) :=
      (congruence H).of_plain .exhausted
    exact ⟨rfl, fun _ => h, fun _ => h, fun _ _ => h⟩
  | succ n ih => exact ⟨rfl, .execStep ih, .evalStep ih, .callValue ih⟩

/-- So do whole programs. -/
theorem run_alike (H : Machine → Prop) (bound : Nat) (program : Node) (m : Machine) :
    Alike H (sequence (BrailleScript.exec bound) .null program.statements m)
      (run (stopIn H) bound program m) :=
  (congruence H).sequence (steps H bound).exec .null program.statements m

end Halting

/-! ## A halt is final -/

/-- The one failure of the kind of a halt is the halt. -/
theorem Cause.kind_eq_halt {c : Cause} : c.kind = .halt ↔ c = .halted := by
  cases c <;> simp [kind]

/-- A program ends halted only if a `halt` statement of it ran, with the variables, heap, output and
counters that the program leaves; and if a `halt` statement runs, the program ends halted, with the
result `null` and with the variables, heap, output and counters that it had there.  The counters say
that no statement, call, primitive or round of a loop ran in between. -/
theorem halt_is_final (bound : Nat) (program : Node) (m : Machine) :
    (∀ e m', m.execute bound program = (.finished e, m') → e.halted = true →
      m.HaltsIn (·.Agrees m') bound program) ∧
    ∀ H, m.HaltsIn H bound program → ∃ mh m', H mh ∧ mh.Agrees m' ∧
      m.execute bound program = (.finished (.between m m' .null true), m') := by
  constructor
  · intro e m' hrun he
    have hm := Halting.run_alike (·.Agrees m') bound program m
    unfold Machine.HaltsIn
    unfold Machine.execute at hrun
    generalize Run.sequence (exec bound) .null program.statements m = x,
      Halting.run _ bound program m = y at hm hrun
    cases hm with
    | ok flow n =>
      cases hrun
      exact nomatch he
    | @stop stop n hs =>
      cases stop with
      | failed f =>
        dsimp only at hrun
        split at hrun
        · exact absurd (Cause.kind_eq_halt.1 ‹_›) (hs f rfl)
        · exact nomatch hrun
      | conflict | exhausted => exact nomatch hrun
    | @halted f mh n hf hm hh =>
      -- the machine in which it halted is the one with which the program ended
      dsimp only at hrun
      rw [if_pos (Cause.kind_eq_halt.2 hf)] at hrun
      cases hrun
      exact absurd hm hh
    | stopped => exact nofun
  · intro H hH
    have hm := Halting.run_alike H bound program m
    unfold Machine.HaltsIn at hH
    unfold Machine.execute
    generalize Run.sequence (exec bound) .null program.statements m = x,
      Halting.run _ bound program m = y at hm hH
    cases hm with
    | ok | stop | halted => exact absurd rfl hH
    | @stopped f mh n n' hf hm hh =>
      refine ⟨mh, n, hh, hm, ?_⟩
      dsimp only
      rw [if_pos (Cause.kind_eq_halt.2 hf)]

/-- A `halt` in a function that is called in a `try`, inside a loop. -/
def haltInTry : Node :=
  .program
    [.function ⟨some "f", [], .block [.print [.text "one"], .halt, .print [.text "two"]], false, .start⟩,
     .loop (.tryCatch (.block [.call (.identifier "f" .start) [] .start]) (some "e")
       (.block [.print [.identifier "e" .start]])),
     .print [.text "three"]]

/-- A machine in which nothing has run. -/
def haltMachine : Machine :=
  .fresh {} (Ledger.start "sample" {}) (Backend.dryRun "small" 64) fun n => ⟨n⟩

/-- A halt inside of a try statement ends the program before its handler. -/
theorem halt_is_final_haltInTry :
    ∃ m', haltMachine.execute 9 haltInTry = (.finished (.between haltMachine m' .null true), m') ∧
      m'.output = #["one"] ∧ haltMachine.HaltsIn (·.Agrees m') 9 haltInTry := by
  have hended : (match haltMachine.execute 9 haltInTry with
      | (.finished e, m') => some (e.halted, m'.output)
      | _ => none) = some (true, #["one"]) := by
    decide +kernel
  match hrun : haltMachine.execute 9 haltInTry with
  | (.finished e, m') =>
    rw [hrun] at hended
    obtain ⟨he, houtput⟩ := Prod.mk.inj (Option.some.inj hended)
    have hin := (halt_is_final 9 haltInTry haltMachine).1 e m' hrun he
    -- the run was the same until the `halt`, so what is left is what the theorem says
    obtain ⟨mh, n, -, -, hfinished⟩ := (halt_is_final 9 haltInTry haltMachine).2 _ hin
    rw [hrun] at hfinished
    cases hfinished
    exact ⟨m', rfl, houtput, hin⟩
  | (.failed _, _) | (.conflict, _) | (.exhausted, _) =>
    rw [hrun] at hended
    exact nomatch hended

end BrailleScript
