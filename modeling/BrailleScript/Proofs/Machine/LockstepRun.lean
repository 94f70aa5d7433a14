import BrailleScript.Proofs.Machine.Congruence
import BrailleScript.Proofs.Machine.Lockstep

/-!
# Programs in lockstep

Staying together is a congruence, so every construct of the language keeps two runs together if its
parts do.  A request stays together by soundness of the lockstep, and by induction on the bound whole
programs run in lockstep in surroundings that answer alike.

## Key results

- `Sim.observe`: a call that is never answered from the cache stays together if its executor does
- `Lockstep.congruence`: staying together is a congruence
- `Sim.answer`: a request stays together by soundness of the lockstep
- `Sound.run`, `Sound.execute`: whole programs run in lockstep, to the same outcome
- `Machine.execute_invariant`: the invariants of a single run
-/

namespace BrailleScript

namespace Lockstep

variable {α β γ : Type} {L : Lockstep}

namespace Sim

/-! ## Records -/

/-- Something recorded, the result of which the program does not use. -/
theorem record_bind (hL : L.Steady) {f : Ledger → Instant → γ × Ledger}
    (hf : ∀ (l : Ledger) t, l.Quiet (f l t).2) {x y : Run α} (h : L.Sim x y) :
    L.Sim (Run.record f >>= fun _ => x) (Run.record f >>= fun _ => y) := by
  -- recording reads the clock once, and neither run looks at what it gives
  let recorded (m : Machine) : Machine :=
    { m with
      ledger := (f m.ledger (m.clock m.readings)).2
      readings := m.readings + 1 }
  have hq (m : Machine) : m.surroundings.Quiet (recorded m).surroundings :=
    ⟨_, _, hf _ _, Nat.le_add_right _ _, rfl⟩
  exact wrap hL recorded recorded (fun _ e => e) (fun _ e => e) hq
    (fun m s => ⟨_, rfl, hq (m.within s)⟩) (fun _ e => .refl _) (fun _ _ _ t => ⟨t, rfl, .refl t⟩)
    (fun _ _ m' _ => ⟨m', rfl⟩) h

/-- Closes an open call after its executor has run in a machine. -/
def closed (c : Call) (m : Machine) (e : Ending (α × Json)) : Ending α :=
  let id := m.ledger.nextId
  let started := m.clock (m.readings + 1)
  match e with
  | .ok (a, output) m' => (Run.closeCall started id c output *> Pure.pure a) m'
  | .error (.failed f) m' => (Run.closeFailed started id f *> throw (Stop.failed f)) m'
  | .error stop m' => .error stop m'

/-- A call of a primitive without a cache is opened, run and closed. -/
theorem observe_eq {c : Call} (hc : c.primitive.isCacheable = false) (replay : Json → α)
    (executor : Run (α × Json)) (m : Machine) :
    Run.observe c replay executor m =
      closed c m (executor { m with
        ledger := (m.ledger.openCall Run.mainThread (m.clock m.readings) c).2
        readings := m.readings + 2 }) := by
  rw [Run.observe_apply, Ledger.openCall_eq_openPending _ _ _ hc]
  rfl

/-- Closing such a call is quiet. -/
theorem closed_quiet {c : Call} (hc : c.primitive.isCacheable = false) (m : Machine)
    (e : Ending (α × Json)) : e.surroundings.Quiet (closed c m e).surroundings := by
  match e with
  | .ok (a, output) m' =>
    exact ⟨_, m'.readings + 1, .succeeded _ _ _ _ c output hc, Nat.le_add_right _ _, rfl⟩
  | .error (.failed f) m' => exact ⟨_, m'.readings + 1, .failed _ _ _ _, Nat.le_add_right _ _, rfl⟩
  | .error .conflict m' => exact .refl _
  | .error .exhausted m' => exact .refl _

/-- A call whose results are never kept, if its executor stays together. -/
theorem observe (hL : L.Steady) {c : Call} (hc : c.primitive.isCacheable = false)
    (replay : Json → α) {x y : Run (α × Json)} (h : L.Sim x y) :
    L.Sim (Run.observe c replay x) (Run.observe c replay y) := by
  rw [funext (observe_eq hc replay x), funext (observe_eq hc replay y)]
  refine wrap hL _ _ (closed c) (closed c) ?_ ?_ (closed_quiet hc) ?_ ?_ h
  · -- opening the call is quiet in both runs
    exact fun m => ⟨_, m.readings + 2, .opened _ _ c hc, Nat.le_add_right _ _, rfl⟩
  · exact fun m s => ⟨_, rfl, ⟨_, s.readings + 2, .opened _ _ c hc, Nat.le_add_right _ _, rfl⟩⟩
  · -- so is closing it, however the executor ended
    intro m s e t
    match e with
    | .ok (a, output) m' =>
      exact ⟨_, rfl, ⟨_, t.readings + 1, .succeeded _ _ _ _ c output hc, Nat.le_add_right _ _, rfl⟩⟩
    | .error (.failed f) m' =>
      exact ⟨_, rfl, ⟨_, t.readings + 1, .failed _ _ _ _, Nat.le_add_right _ _, rfl⟩⟩
    | .error .conflict m' => exact ⟨t, rfl, .refl t⟩
    | .error .exhausted m' => exact ⟨t, rfl, .refl t⟩
  · intro m stop m' hstop
    cases stop with
    | failed f => exact absurd rfl (hstop f)
    | conflict | exhausted => exact ⟨m', rfl⟩

/-! ## Handlers -/

/-- A step with a handler runs in lockstep when both parts do. -/
theorem catching (hL : L.Steady) {x y : Run Flow} {h h' : Failure → Run Flow} (hx : L.Sim x y)
    (hh : ∀ f, L.Sim (h f) (h' f)) : L.Sim (Run.catching x h) (Run.catching y h') := by
  -- a lost body stays lost: the handler only runs after a failure, and no failure breaks the run
  have hl (m : Machine) (hlost : L.Lost (x m)) : L.Lost (Run.catching x h m) := by
    unfold Run.catching
    cases hxm : x m with
    | ok flow m' =>
      rw [hxm] at hlost
      exact hlost
    | error stop m' =>
      rw [hxm] at hlost
      cases stop with
      | conflict | exhausted => exact hlost
      | failed f =>
        have hm' : L.lost m'.surroundings := by
          rcases hlost with hm' | ⟨stop, m'', he, hb⟩
          · exact hm'
          · cases he
            exact absurd hb (hL.broken_failed f)
        dsimp only
        split
        · exact (hh f).lost m' hm'
        · exact .inl hm'
  constructor
  case lost => exact fun m hm => hl m (hx.lost m hm)
  case together =>
    intro m s hms
    rcases hx.together m s hms with hlost | ⟨t, hy, ht⟩
    · exact .inl (hl m hlost)
    · unfold Run.catching
      rw [hy]
      cases hxm : x m with
      | ok flow m' =>
        rw [hxm] at ht
        exact .inr ⟨t, rfl, ht⟩
      | error stop m' =>
        rw [hxm] at ht
        cases stop with
        | conflict | exhausted => exact .inr ⟨t, rfl, ht⟩
        | failed f =>
          dsimp only [Ending.within_error]
          split
          · exact (hh f).together m' t ht
          · exact .inr ⟨t, rfl, ht⟩

end Sim

/-- Staying together is a congruence. -/
def congruence (hL : L.Steady) : Congruence where
  rel := L.Sim
  bind := .bind
  located := .located hL
  inScope := .inScope hL
  catching := .catching hL
  of_plain := .of_plain
  get_bind hg := .get_bind fun m s _ => hg m s
  record a hf := .record_bind hL hf (.pure a)
  observe replay hc := .observe hL hc replay

namespace Sim

/-! ## Calls of functions -/

/-- Calls of functions, if both runs record them or neither does. -/
theorem callFunction (hL : L.Steady) (hargs : ∀ h args, L.watch.args h args)
    (hresult : ∀ h v, L.watch.result h v) (htraced : ∀ {a b}, L.related a b → b.traced = a.traced)
    (r r' : Steps) (f : Closure) (args : List Value)
    (h : L.Sim (Run.enterFunction r f args) (Run.enterFunction r' f args)) :
    L.Sim (L.watch.callFunction L.stop r f args) (Run.callFunction r' f args) := by
  rw [Watch.callFunction_of_admits hargs hresult]
  exact (congruence hL).callFunction
    (fun hg => .get_bind fun m s hms => hg m s (htraced hms)) (fun _ => .fail _) h

/-! ## Requests -/

/-- A request that the watch admits is answered alike. -/
theorem answer (hL : L.Sound) {q : Request} {pos : Pos} {m : Machine} {s : Surroundings}
    (hms : L.related m.surroundings s) (hq : L.watch.request q) :
    L.Lost (m.answer q pos) ∨ L.Together (m.answer q pos) ((m.within s).answer q pos) := by
  unfold Machine.answer
  rw [Machine.surroundings_within]
  rcases hL.serve q pos hms hq with hlost | ⟨hsame, hrel⟩
  · left
    left
    cases ha : m.surroundings.serve q pos with
    | mk result t =>
      rw [ha] at hlost
      cases result <;> exact hlost
  · right
    -- the answers are the same, so both runs fail or both go on
    cases ha : m.surroundings.serve q pos with
    | mk result t =>
      cases hb : s.serve q pos with
      | mk result' t' =>
        rw [ha, hb] at hsame hrel
        obtain rfl : result' = result := hsame
        cases result' <;> exact ⟨t', rfl, hrel⟩

/-- An answer to a lost machine is lost. -/
theorem answer_lost (hL : L.Sound) {q : Request} {pos : Pos} {m : Machine}
    (hm : L.lost m.surroundings) : L.Lost (m.answer q pos) := by
  have hlost := hL.serve_lost q pos hm
  unfold Machine.answer
  left
  cases ha : m.surroundings.serve q pos with
  | mk result t =>
    rw [ha] at hlost
    cases result <;> exact hlost

/-- The other run asks for the same: its backend has the same defaults. -/
theorem request?_within (hL : L.Sound) {m : Machine} {s : Surroundings}
    (hms : L.related m.surroundings s) (p : Primitive) (args : List Value) :
    (m.within s).request? p args = m.request? p args := by
  obtain ⟨hmodel, htokens⟩ := hL.defaults hms
  have h1 (v : Option Value) : Run.modelArg s.backend v = Run.modelArg m.backend v := by
    unfold Run.modelArg
    rw [hmodel]
    rfl
  have h2 (v : Option Value) : Run.maxTokensArg s.backend v = Run.maxTokensArg m.backend v := by
    unfold Run.maxTokensArg
    rw [htokens]
    rfl
  -- only a request for text has defaults
  cases p with
  | infer =>
    show some (Request.infer _ (Run.modelArg s.backend _) (Run.maxTokensArg s.backend _)) = _
    rw [h1, h2]
    rfl
  | _ => rfl

end Sim

/-- The machine after a call of a primitive is counted. -/
def counted (m : Machine) : Machine :=
  { m with stats := { m.stats with primitiveCalls := m.stats.primitiveCalls + 1 } }

/-- A primitive with a request puts it to the surroundings. -/
theorem callPrimitive_some {p : Primitive} {args : List Value} {m : Machine} {q : Request}
    (hq : m.request? p args = some q) (call : Value → List Value → Run Value)
    (run : List Node → Run Flow) (pos : Pos) :
    Run.callPrimitive call run p args pos m = (counted m).answer q pos := by
  cases p with
  | infer =>
    cases hq
    exact Run.infer_eq args pos (counted m)
  | embed =>
    cases hq
    exact Run.embed_eq args pos (counted m)
  -- a search without documents or count has no request, and was excluded
  | semanticSearch => exact Run.semanticSearch_eq args pos (counted m) q hq
  | promptTemplate | pipeCompose | reflectExec => exact nomatch hq

/-- A primitive whose results are kept fails without a request, whatever the surroundings. -/
theorem callPrimitive_none {p : Primitive} (hp : p.isCacheable = true) {args : List Value}
    {m : Machine} (hq : m.request? p args = none) (pos : Pos) :
    ∃ stop, ∀ call run s,
      Run.callPrimitive call run p args pos (m.within s) = .error stop ((counted m).within s) := by
  cases p with
  | infer | embed => exact nomatch hq
  | semanticSearch =>
    obtain ⟨stop, hstop⟩ := Run.semanticSearch_none args pos (counted m) hq
    exact ⟨stop, fun _ _ s => hstop s⟩
  | promptTemplate | pipeCompose | reflectExec => exact nomatch hp

namespace Sim

/-- A primitive whose results are kept. -/
theorem callPrimitive_kept (hL : L.Sound) (r r' : Steps) {p : Primitive}
    (hp : p.isCacheable = true) (args : List Value) (pos : Pos) :
    L.Sim (L.watch.callPrimitive L.stop r p args pos)
      (Run.callPrimitive r'.call (Run.sequence r'.exec .null) p args pos) := by
  -- a call without a request fails before the watch or the ledger sees it
  have hnone {m : Machine} (hq : m.request? p args = none) : ∃ stop,
      L.watch.callPrimitive L.stop r p args pos m = .error stop (counted m) ∧
      ∀ s, Run.callPrimitive r'.call (Run.sequence r'.exec .null) p args pos (m.within s) =
        .error stop ((counted m).within s) := by
    obtain ⟨stop, hstop⟩ := callPrimitive_none hp hq pos
    refine ⟨stop, ?_, hstop _ _⟩
    rw [Watch.callPrimitive_of_admits (by simp [hq])]
    exact hstop _ _ m.surroundings
  have hsome {m : Machine} {q : Request} (hq : m.request? p args = some q) :
      (L.watch.request q ∧
        L.watch.callPrimitive L.stop r p args pos m = (counted m).answer q pos) ∨
      (¬L.watch.request q ∧ L.watch.callPrimitive L.stop r p args pos m = .error L.stop m) := by
    by_cases h : L.watch.request q
    · rw [Watch.callPrimitive_of_admits (by simpa [hq] using h)]
      exact .inl ⟨h, callPrimitive_some hq _ _ pos⟩
    · exact .inr ⟨h, Watch.callPrimitive_of_rejects (by simpa [hq] using h) _ _ _⟩
  constructor
  case lost =>
    intro m hm
    cases hq : m.request? p args with
    | none =>
      obtain ⟨stop, hleft, -⟩ := hnone hq
      rw [hleft]
      exact .inl hm
    | some q =>
      rcases hsome hq with ⟨-, hleft⟩ | ⟨-, hleft⟩
      · rw [hleft]
        exact answer_lost hL hm
      · rw [hleft]
        exact .inl hm
  case together =>
    intro m s hms
    cases hq : m.request? p args with
    | none =>
      obtain ⟨stop, hleft, hright⟩ := hnone hq
      rw [hleft, hright s]
      exact .inr ⟨s, rfl, hms⟩
    | some q =>
      rcases hsome hq with ⟨hadm, hleft⟩ | ⟨hreject, hleft⟩
      · have hq' := request?_within hL hms p args
        rw [hq] at hq'
        rw [hleft, callPrimitive_some hq']
        exact answer hL (m := counted m) hms hadm
      · rw [hleft]
        rcases hL.admitted with hb | hall
        · exact .inl (.inr ⟨L.stop, m, rfl, hb⟩)
        · exact absurd (hall q) hreject

/-! ## One step, and whole runs -/

section Steps

variable {r r' : Steps} (hL : L.Sound) (h : (congruence hL.toSteady).StepsRelated r r')
include h

/-- Every primitive runs in lockstep. -/
theorem callPrimitive (p : Primitive) (args : List Value) (pos : Pos) :
    L.Sim (L.watch.callPrimitive L.stop r p args pos)
      (Run.callPrimitive r'.call (Run.sequence r'.exec .null) p args pos) := by
  cases hp : p.isCacheable with
  | true => exact .callPrimitive_kept hL r r' hp args pos
  | false =>
    -- a primitive without requests is never stopped by the watch
    have hfree (m : Machine) : m.request? p args = none := by
      cases p with
      | infer | embed | semanticSearch => exact nomatch hp
      | promptTemplate | pipeCompose | reflectExec => rfl
    have heq : L.watch.callPrimitive L.stop r p args pos =
        Run.callPrimitive r.call (Run.sequence r.exec .null) p args pos :=
      funext fun m => Watch.callPrimitive_of_admits (by simp [hfree m]) _ _ _
    rw [heq]
    refine (congruence hL.toSteady).callPrimitive h.call (fun _ source => ?_) hp args pos
    exact (congruence hL.toSteady).reflect (fun _ => .fail _)
      (fun stmts => .inReflection hL.toSteady
        ((congruence hL.toSteady).sequence h.exec .null stmts)) source

/-- So does entering a function. -/
theorem enterFunction (f : Closure) (args : List Value) :
    L.Sim (Run.enterFunction r f args) (Run.enterFunction r' f args) :=
  (congruence hL.toSteady).enterFunction args fun frame scope _ =>
    .inFrame hL.toSteady frame (.inScope hL.toSteady scope (h.functionBody _))

/-- So does calling a value. -/
theorem callValue (callee : Value) (args : List Value) :
    L.Sim (L.watch.callValue L.stop r callee args) (Run.callValue r' callee args) := by
  -- only functions of the program are called in a way of their own
  have hthrough : L.watch.callValue L.stop r =
      Run.callThrough (L.watch.callFunction L.stop r) := by
    funext callee args
    cases callee <;> rfl
  rw [hthrough, Run.callValue_eq]
  exact (congruence hL.toSteady).callThrough
    (fun f args => hL.calls r r' f args (enterFunction hL h f args)) callee args

/-- An expression whose parts stay together does. -/
theorem evalStep (node : Node) : L.Sim (L.watch.evalStep L.stop r node) (Run.evalStep r' node) := by
  have hargs (args : List Node) : L.Sim (args.mapM r.eval) (args.mapM r'.eval) :=
    (congruence hL.toSteady).mapM h.eval args
  -- calls and primitives ask the rules, and the other nodes only put their parts together
  cases node with
  | call callee args pos =>
    exact .bind (h.eval callee) fun _ => .bind (hargs args) fun _ =>
      .located hL.toSteady pos (callValue hL h _ _)
  | primitive p args pos =>
    exact .bind (hargs args) fun _ => .located hL.toSteady pos (callPrimitive hL h p _ pos)
  | _ =>
    rw [Watch.evalStep_of_ne]
    · exact h.evalStep nofun nofun
    all_goals nofun

/-- A statement whose parts stay together does. -/
theorem execStep (node : Node) : L.Sim (Run.execStep r node) (Run.execStep r' node) := by
  cases node with
  | halt => exact .bind (.of_plain (.count fun _ => rfl)) fun _ => .fail _
  | _ => exact h.execStep nofun

end Steps

end Sim

/-- Statements, expressions and calls stay together at every bound. -/
theorem Sound.steps (hL : L.Sound) (bound : Nat) :
    (congruence hL.toSteady).StepsRelated
      ⟨bound, L.watch.exec L.stop bound, L.watch.eval L.stop bound, L.watch.call L.stop bound⟩
      ⟨bound, BrailleScript.exec bound, BrailleScript.eval bound, BrailleScript.call bound⟩ := by
  induction bound with
  | zero =>
    -- with nothing left of the bound both runs are exhausted
    have h {α : Type} : L.Sim (throw .exhausted : Run α) (throw .exhausted) := .of_plain .exhausted
    exact ⟨rfl, fun _ => h, fun _ => h, fun _ _ => h⟩
  | succ n ih => exact ⟨rfl, .execStep hL ih, .evalStep hL ih, .callValue hL ih⟩

/-- Whole programs run in lockstep. -/
theorem Sound.run (hL : L.Sound) (bound : Nat) (program : Node) :
    L.Sim (L.watch.run L.stop bound program)
      (Run.sequence (BrailleScript.exec bound) .null program.statements) :=
  (congruence hL.toSteady).sequence (hL.steps bound).exec .null program.statements

end Lockstep

/-! ## Outcomes -/

/-- What a run leaves that ends so. -/
def Machine.ended (m : Machine) : Ending Flow → Outcome × Machine
  | .ok flow m' => (.finished (.between m m' flow.value false), m')
  | .error (.failed f) m' =>
    if f.cause.kind = .halt then (.finished (.between m m' .null true), m')
    else (.failed (.running f), m')
  | .error .conflict m' => (.conflict, m')
  | .error .exhausted m' => (.exhausted, m')

/-- A program is executed by its statements. -/
theorem Machine.execute_eq (bound : Nat) (program : Node) (m : Machine) :
    m.execute bound program =
      m.ended (Run.sequence (exec bound) .null program.statements m) := rfl

/-- The surroundings after it are those of the ending. -/
theorem Machine.surroundings_ended (m : Machine) (e : Ending Flow) :
    (m.ended e).2.surroundings = e.surroundings := by
  match e with
  | .ok flow m' => rfl
  | .error (.failed f) m' =>
    simp only [ended]
    split <;> rfl
  | .error .conflict m' | .error .exhausted m' => rfl

/-- The outcome does not depend on the surroundings. -/
theorem Machine.ended_within (m : Machine) (e : Ending Flow) (s t : Surroundings) :
    (m.within s).ended (e.within t) = ((m.ended e).1, (m.ended e).2.within t) := by
  match e with
  | .ok flow m' => rfl
  | .error (.failed f) m' =>
    simp only [ended, Ending.within_error]
    split <;> rfl
  | .error .conflict m' | .error .exhausted m' => rfl

/-- A run that goes like its watched run and is not lost has the outcome of the other run. -/
theorem Lockstep.Sound.execute {L : Lockstep} (hL : L.Sound) {bound : Nat} {program : Node}
    {m : Machine} {s : Surroundings} (hms : L.related m.surroundings s)
    (hrun : L.watch.run L.stop bound program m =
      Run.sequence (exec bound) .null program.statements m)
    (hlost : ¬L.Lost (Run.sequence (exec bound) .null program.statements m)) :
    ∃ t, (m.within s).execute bound program =
        ((m.execute bound program).1, (m.execute bound program).2.within t) ∧
      L.related (m.execute bound program).2.surroundings t := by
  have hsim := (hL.run bound program).together m s hms
  rw [hrun] at hsim
  -- ⟨t, ht, hrel⟩ := hsim | the run is lost or the other one keeps up with it
  obtain hl | ⟨t, ht, hrel⟩ := hsim
  · exact absurd hl hlost
  · refine ⟨t, ?_, ?_⟩
    · rw [Machine.execute_eq, ht, Machine.ended_within, Machine.execute_eq]
    · rw [Machine.execute_eq, Machine.surroundings_ended]
      exact hrel

/-! ## Invariants of one run -/

/-- What quiet changes and requests preserve, whole programs preserve. -/
theorem Machine.execute_invariant {holds : Surroundings → Prop}
    (hquiet : ∀ {a a'}, holds a → a.Quiet a' → holds a')
    (hserve : ∀ {a} (q pos), holds a → holds (a.serve q pos).2)
    (bound : Nat) (program : Node) {m : Machine} (hm : holds m.surroundings) :
    holds (m.execute bound program).2.surroundings := by
  -- a run that is lost from the start stays lost, so being lost can stand for any invariant
  let L : Lockstep :=
    { watch := .any, stop := .exhausted, related := fun _ _ => False, lost := holds
      broken := fun _ => False }
  have hsteady : L.Steady :=
    { broken_failed := fun _ h => h, quiet_left := fun h _ => h, quiet_right := fun h _ => h
      quiet_lost := hquiet }
  have hL : L.Sound :=
    { toSteady := hsteady
      defaults := fun h => h.elim
      admitted := .inr fun _ => trivial
      serve_lost := hserve
      serve := fun _ _ h => h.elim
      calls := .callFunction hsteady (fun _ _ => trivial) (fun _ _ => trivial) fun h => h.elim }
  have hlost := (hL.run bound program).lost m hm
  rw [Watch.keeps_any bound program m] at hlost
  rw [execute_eq, surroundings_ended]
  rcases hlost with h | ⟨_, _, _, hb⟩
  · exact h
  · exact hb.elim

end BrailleScript
