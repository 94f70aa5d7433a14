import BrailleScript.Backend.DryRun
import BrailleScript.Proofs.Machine.Breaks
import BrailleScript.Proofs.Machine.Probe
import BrailleScript.Proofs.Machine.Restored
import BrailleScript.Proofs.Machine.Watch
import BrailleScript.Proofs.Machine.Wrapper

/-!
# Limits of recursion

The options of a run limit how many calls and how many reflections are open at a time.  Wherever a
run is, it is within the limits, and a call or a reflection is refused only where as many are open
as the limit says.  No other step fails because of a limit, and a program that catches such a
failure goes on where its `try` stands, with the calls and reflections open that were open there.

Two probes say this about the points of a run.  The first one (`Probe.limits`) stops a run where it
leaves the limits or refuses something short of its limit: such a run is the run of the program, so
it is never stopped.  The second one (`Probe.instead`) lets a run stop in a way of its own where it
would refuse something: such a run never fails because of a limit.

## Key results

- `Limited.follows`: every construct stays within the limits, and refuses only at a limit
- `Unrefused.follows`: no construct but the refusals fails because of a limit
- `exec_tryCatch_of_limit`: how a run goes on after such a failure
- `recursion_is_limited`: whole programs, in sessions
-/

namespace BrailleScript

namespace Machine

/-- The machine runs with these options, and the calls and reflections that are open, and the most
calls that ever were, are within their limits. -/
structure WithinLimits (o : RunOptions) (m : Machine) : Prop where
  options : m.options = o
  calls : m.frames.length ≤ o.maxCallDepth
  reflections : m.reflectDepth ≤ o.maxReflectDepth
  deepestCall : m.stats.deepestCall ≤ o.maxCallDepth

/-- As many calls, or reflections, are open as the options allow, and the cause says so. -/
def IsAtLimit (m : Machine) : Cause → Prop
  | .callDepth n => n = m.options.maxCallDepth ∧ m.frames.length = n
  | .reflectDepth n => n = m.options.maxReflectDepth ∧ m.reflectDepth = n
  | _ => False

/-- The machine is within the limits with so many open calls and reflections. -/
structure Stands (o : RunOptions) (d k : Nat) (m : Machine) : Prop extends m.WithinLimits o where
  openCalls : m.frames.length = d
  openReflections : m.reflectDepth = k

end Machine

/-- Stops a run where it leaves the limits, and where it refuses something short of its limit. -/
noncomputable def Probe.limits (o : RunOptions) (stop : Stop) : Probe where
  visit := do Watch.require stop ((← get).WithinLimits o)
  refuse c := do
    Watch.require stop ((← get).IsAtLimit c)
    Run.fail c

/-- Stops a run in another way where it would refuse something. -/
def Probe.instead (stop : Stop) : Probe where
  visit := pure ()
  refuse _ := throw stop

variable {α β : Type} {o : RunOptions} {d k : Nat} {m m' : Machine}

/-! ## Steps within the limits -/

namespace Machine.Stands

/-- Only how deep the machine is matters. -/
theorem of_standing (h : m.Stands o d k) (hs : m'.standing = m.standing) : m'.Stands o d k := by
  -- there are as many frames as bindings
  have hframes : m'.frames.length = m.frames.length := by
    have hb := congrArg (fun s : Standing => s.bindings.length) hs
    simpa only [standing, bindings, List.length_map] using hb
  have hdepth : m'.reflectDepth = m.reflectDepth := congrArg Standing.reflectDepth hs
  have hdeepest : m'.stats.deepestCall = m.stats.deepestCall := congrArg Standing.deepestCall hs
  have hoptions : m'.options = m.options := congrArg Standing.options hs
  obtain ⟨⟨ho, hcalls, hreflections, hm⟩, hd, hk⟩ := h
  exact ⟨⟨hoptions.trans ho, hframes ▸ hcalls, hdepth ▸ hreflections, hdeepest ▸ hm⟩,
    hframes.trans hd, hdepth.trans hk⟩

/-- One more call is open. -/
theorem push (h : m.Stands o d k) (hd : d < o.maxCallDepth) (frame : Frame) :
    Machine.Stands o (d + 1) k
      { m with
        frames := frame :: m.frames
        stats :=
          { m.stats with
            deepestCall := Nat.max m.stats.deepestCall (frame :: m.frames).length } } := by
  have hlength : (frame :: m.frames).length = d + 1 := congrArg (· + 1) h.openCalls
  refine ⟨⟨h.options, hlength ▸ hd, h.reflections, ?_⟩, hlength, h.openReflections⟩
  exact Nat.max_le.2 ⟨h.deepestCall, hlength ▸ hd⟩

/-- The innermost call is closed. -/
theorem pop (h : m.Stands o (d + 1) k) :
    Machine.Stands o d k { m with frames := m.frames.tail } := by
  have hlength : m.frames.tail.length = d := by
    rw [List.length_tail, h.openCalls, Nat.add_sub_cancel]
  have hd : d + 1 ≤ o.maxCallDepth := h.openCalls ▸ h.calls
  exact ⟨⟨h.options, hlength ▸ Nat.le_of_succ_le hd, h.reflections, h.deepestCall⟩, hlength,
    h.openReflections⟩

/-- One more reflection is open. -/
theorem descend (h : m.Stands o d k) (hk : k < o.maxReflectDepth) :
    Machine.Stands o d (k + 1) { m with reflectDepth := m.reflectDepth + 1 } := by
  have hdepth : m.reflectDepth + 1 = k + 1 := congrArg (· + 1) h.openReflections
  exact ⟨⟨h.options, h.calls, hdepth ▸ hk, h.deepestCall⟩, h.openCalls, hdepth⟩

/-- The innermost reflection is closed. -/
theorem ascend (h : m.Stands o d (k + 1)) :
    Machine.Stands o d k { m with reflectDepth := m.reflectDepth - 1 } := by
  have hdepth : m.reflectDepth - 1 = k := by rw [h.openReflections, Nat.add_sub_cancel]
  have hk : k + 1 ≤ o.maxReflectDepth := h.openReflections ▸ h.reflections
  exact ⟨⟨h.options, h.calls, hdepth ▸ Nat.le_of_succ_le hk, h.deepestCall⟩, h.openCalls, hdepth⟩

end Machine.Stands

/-- From a machine within the limits with so many open calls and reflections, the two steps do the
same, and as many are open at the end. -/
def Limited (o : RunOptions) (d k : Nat) (x y : Run α) : Prop :=
  ∀ m : Machine, m.Stands o d k → x m = y m ∧ (Ending.machine (x m)).Stands o d k

namespace Limited

open Run

variable {d' k' : Nat} {x y : Run α}

/-- Runs within the limits are so in sequence. -/
theorem bind {f g : α → Run β} (hx : Limited o d k x y) (hf : ∀ a, Limited o d k (f a) (g a)) :
    Limited o d k (x >>= f) (y >>= g) := by
  intro m hm
  obtain ⟨hxy, hend⟩ := hx m hm
  -- the second step starts where the first one has left off within the limits
  cases h : x m with
  | ok a m' =>
    rw [h] at hxy hend
    rw [bind_of_ok h, bind_of_ok hxy.symm]
    exact hf a m' hend
  | error stop m' =>
    rw [h] at hxy hend
    rw [bind_of_error h, bind_of_error hxy.symm]
    exact ⟨rfl, hend⟩

/-- A step with something done around it, which may go deeper before it. -/
theorem wrap (w : Wrapper α β) (hbefore : ∀ m, m.Stands o d k → (w.before m).Stands o d' k')
    (hafter : ∀ m e, (Ending.machine e).Stands o d' k' →
      (Ending.machine (w.after m e)).Stands o d k)
    (h : Limited o d' k' x y) : Limited o d k (w.around x) (w.around y) := by
  intro m hm
  obtain ⟨hxy, hend⟩ := h (w.before m) (hbefore m hm)
  exact ⟨congrArg (w.after m) hxy, hafter m _ hend⟩

/-- They are in every wrapper that keeps the depths. -/
theorem level {w : Wrapper α β} (hw : w.Level) (h : Limited o d k x y) :
    Limited o d k (w.around x) (w.around y) :=
  h.wrap w (fun m hm => hm.of_standing (hw.before m)) fun m e he => he.of_standing (hw.after m e)

/-- One call deeper, there is a call less to spend. -/
theorem inFrame (hd : d < o.maxCallDepth) (frame : Frame) (h : Limited o (d + 1) k x y) :
    Limited o d k (Run.inFrame frame x) (Run.inFrame frame y) := by
  refine h.wrap (.inFrame frame) (fun _ hm => hm.push hd frame) ?_
  intro m e he
  cases e <;> exact he.pop

/-- One reflection deeper, there is one of those less. -/
theorem inReflection (hk : k < o.maxReflectDepth) (h : Limited o d (k + 1) x y) :
    Limited o d k (Run.inReflection x) (Run.inReflection y) := by
  refine h.wrap .inReflection (fun _ hm => hm.descend hk) ?_
  intro m e he
  cases e <;> exact he.ascend

/-- They are within the limits when their handlers are. -/
theorem catching {x y : Run Flow} {h h' : Failure → Run Flow} (hx : Limited o d k x y)
    (hh : ∀ f, Limited o d k (h f) (h' f)) :
    Limited o d k (Run.catching x h) (Run.catching y h') := by
  intro m hm
  obtain ⟨hxy, hend⟩ := hx m hm
  unfold Run.catching
  rw [← hxy]
  generalize x m = e at hend
  -- only a failure has a handler, which starts within the limits too
  match e with
  | .ok flow m' | .error .conflict m' | .error .exhausted m' => exact ⟨rfl, hend⟩
  | .error (.failed f) m' =>
    dsimp only
    split
    · exact hh f m' hend
    · exact ⟨rfl, hend⟩

end Limited

/-- Every construct of the language stays within the limits. -/
def Limited.congruence (o : RunOptions) (d k : Nat) : FullCongruence where
  rel := Limited o d k
  bind := .bind
  located pos := .level (Wrapper.level_located pos)
  inScope id := .level (Wrapper.level_inScope id)
  catching := .catching
  throw _ _ hm := ⟨rfl, hm⟩
  change hf m hm := ⟨rfl, hm.of_standing (hf m)⟩
  get_bind h m hm := h m m hm
  closing started id c := .level (Wrapper.level_closing started id c)

namespace Limited

open Run

variable {stop : Stop}

/-- What is refused is refused at a limit, and what is not has a limit above it. -/
theorem refusing {limit opened : Machine → Nat} {cause : Machine → Cause}
    {x y : Machine → Run Value}
    (hat : ∀ m, m.Stands o d k → limit m ≤ opened m → m.IsAtLimit (cause m))
    (h : ∀ m, m.Stands o d k → opened m < limit m → Limited o d k (x m) (y m)) :
    Limited o d k
      (get >>= fun m =>
        if limit m ≤ opened m then (Probe.limits o stop).refuse (cause m) else x m)
      (get >>= fun m => if limit m ≤ opened m then fail (cause m) else y m) := by
  intro m hm
  show (if limit m ≤ opened m then (Probe.limits o stop).refuse (cause m) else x m) m =
      (if limit m ≤ opened m then fail (cause m) else y m) m ∧
    (Ending.machine
      ((if limit m ≤ opened m then (Probe.limits o stop).refuse (cause m) else x m) m)).Stands o d k
  -- at the limit both refuse, and below it both go on
  by_cases hlimit : limit m ≤ opened m
  · have hrefuse : (Probe.limits o stop).refuse (cause m) m = (fail (cause m) : Run Value) m := by
      show (Watch.require stop (m.IsAtLimit (cause m)) >>= fun _ => fail (cause m)) m = _
      rw [Watch.require_of (hat m hm hlimit)]
      rfl
    rw [if_pos hlimit, if_pos hlimit, hrefuse]
    exact ⟨rfl, hm⟩
  · rw [if_neg hlimit, if_neg hlimit]
    exact h m hm (Nat.lt_of_not_le hlimit) m hm

/-- A run that is stopped outside of the limits stays within them like the run itself. -/
theorem follows (o : RunOptions) (stop : Stop) :
    (Probe.limits o stop).Follows (congruence o) where
  visit d k m hm := by
    show (Watch.require stop (m.WithinLimits o)) m = _ ∧
      (Ending.machine (Watch.require stop (m.WithinLimits o) m)).Stands o d k
    rw [Watch.require_of hm.toWithinLimits]
    exact ⟨rfl, hm⟩
  halted _ _ _ hm := ⟨rfl, hm⟩
  call d k r r' f h args := by
    rw [callFunction_eq]
    refine refusing (fun m hm hlimit => ?_) fun m hm hlimit => ?_
    · -- within the limits no more calls are open than allowed, so just so many are
      exact ⟨rfl, Nat.le_antisymm (hm.options ▸ hm.calls) hlimit⟩
    · rw [hm.openCalls, hm.options] at hlimit
      refine (congruence o d k).toCongruence.calling _ ?_
      exact (congruence o d k).toCongruence.enterFunction args fun frame scope _ =>
        inFrame hlimit frame (h scope)
  reflect d k run run' h source := by
    rw [reflect_eq]
    refine refusing (fun m hm hlimit => ?_) fun m hm hlimit => ?_
    · exact ⟨rfl, Nat.le_antisymm (hm.options ▸ hm.reflections) hlimit⟩
    · rw [hm.openReflections, hm.options] at hlimit
      exact (congruence o d k).toCongruence.reflecting
        (fun stmts => inReflection hlimit (h stmts)) _ source

end Limited

/-! ## Failures that are no refusals -/

/-- The step never fails because of a limit. -/
def Unrefused (x : Run α) : Prop :=
  ∀ m c, Ending.cause? (x m) = some c → c.kind ≠ .recursionLimit

namespace Unrefused

open Run

variable {x : Run α}

/-- A stop other than a refusal is not refused. -/
theorem throw {stop : Stop} (h : ∀ f, stop = .failed f → f.cause.kind ≠ .recursionLimit) :
    Unrefused (MonadExcept.throw stop : Run α) := by
  intro m c hc
  cases stop with
  | failed f =>
    obtain rfl : f.cause = c := Option.some.inj hc
    exact h f rfl
  | conflict | exhausted => cases hc

/-- Nor is a change of the machine. -/
theorem change (f : Machine → α × Machine) : Unrefused (modifyGet f : Run α) := by
  intro m c hc
  change Ending.cause? (EStateM.Result.ok (f m).1 (f m).2) = some c at hc
  cases hc

/-- Nor is a sequence of such steps. -/
theorem bind {f : α → Run β} (hx : Unrefused x) (hf : ∀ a, Unrefused (f a)) :
    Unrefused (x >>= f) := by
  intro m c hc
  cases h : x m with
  | ok a m' =>
    rw [bind_of_ok h] at hc
    exact hf a m' c hc
  | error stop m' =>
    rw [bind_of_error h] at hc
    refine hx m c ?_
    rw [h]
    cases stop <;> exact hc

/-- Nor is one in a wrapper. -/
theorem wrap (w : Wrapper α β) (h : Unrefused x) : Unrefused (w.around x) := by
  intro m c hc
  rw [Wrapper.around, w.cause?_after] at hc
  exact h (w.before m) c hc

/-- Nor is one with a handler. -/
theorem catching {x : Run Flow} {h : Failure → Run Flow} (hx : Unrefused x)
    (hh : ∀ f, Unrefused (h f)) : Unrefused (Run.catching x h) := by
  intro m c hc
  unfold Run.catching at hc
  split at hc
  · rename_i f m' hxm
    -- the handler has failed, or there was none for the failure
    split at hc
    · exact hh f m' c hc
    · refine hx m c ?_
      rwa [hxm]
  · exact hx m c hc

end Unrefused

/-- No construct of the language fails because of a limit if its parts do not. -/
def Unrefused.congruence (_d _k : Nat) : FullCongruence where
  rel x _ := Unrefused x
  bind := .bind
  located pos h := h.wrap (.located pos)
  inScope id h := h.wrap (.inScope id)
  catching := .catching
  throw h := .throw (fun f hf => (Cause.isOrdinary_iff.1 (h f hf)).2)
  change _ := .change _
  get_bind h m := h m m
  closing started id c h := h.wrap (.closing started id c)

/-- A run that stops in another way where it would refuse something never fails because of a
limit. -/
theorem Unrefused.follows {stop : Stop}
    (hstop : ∀ f, stop = .failed f → f.cause.kind ≠ .recursionLimit) :
    (Probe.instead stop).Follows Unrefused.congruence where
  visit _ _ := .change fun m => ((), m)
  halted _ _ := .throw (fun f hf => by cases hf; exact fun h => nomatch h)
  call d k r r' f h args := by
    rw [Run.callFunction_eq]
    refine (congruence d k).get_bind fun m => ?_
    split
    · -- where the machine would refuse, the run stops in the other way
      exact .throw hstop
    · refine (congruence d k).toCongruence.calling _ ?_
      exact (congruence d k).toCongruence.enterFunction args fun frame scope _ =>
        (h scope).wrap (.inFrame frame)
  reflect d k run run' h source := by
    rw [Run.reflect_eq]
    refine (congruence d k).get_bind fun m => ?_
    split
    · exact .throw hstop
    · exact (congruence d k).toCongruence.reflecting (fun stmts => (h stmts).wrap .inReflection) _
        source

/-! ## Whole programs -/

namespace Machine.Stands

/-- A program leaves a machine within the limits, however its run ends. -/
theorem execute (h : m.Stands o d k) (bound : Nat) (program : Node) :
    (m.execute bound program).2.Stands o d k := by
  obtain ⟨hrun, hend⟩ := (Limited.follows o .exhausted).run bound program d k m h
  rw [hrun] at hend
  unfold Machine.execute
  generalize Run.sequence (exec bound) .null program.statements m = e at hend
  -- however the program ends, its machine is within the limits
  match e with
  | .ok flow m' | .error .conflict m' | .error .exhausted m' => exact hend
  | .error (.failed f) m' =>
    dsimp only
    split <;> exact hend

/-- A session ends at the depths that it started from. -/
theorem session (h : m.Stands o d k) (runs : List (Nat × Node)) :
    (m.session runs).Stands o d k := by
  induction runs generalizing m with
  | nil => exact h
  | cons run rest ih => exact ih (h.execute run.1 run.2)

/-- A fresh machine stands outside of all calls. -/
theorem fresh (options : RunOptions) (ledger : Ledger) (backend : Backend)
    (clock : Nat → Instant) : (Machine.fresh options ledger backend clock).Stands options 0 0 :=
  ⟨⟨rfl, Nat.zero_le _, Nat.zero_le _, Nat.zero_le _⟩, rfl, rfl⟩

end Machine.Stands

/-! ## Catching a failure -/

/-- A name can be bound in a new scope. -/
theorem Scopes.definable_child (s : Scopes) (id : ScopeId) (name : String) :
    (s.child id).definable s.all.size name = .ok () := by
  have hnone : (s.child id).localBinding? s.all.size name = none := by
    simp [localBinding?, child, Fields.get?]
  unfold definable
  rw [hnone]

/-- Making the scope of a handler changes nothing but the scopes. -/
theorem Run.handlerScope_eq_ok (name : Option String) (f : Failure) (m : Machine) :
    ∃ scopes, handlerScope name f m = .ok m.scopes.all.size { m with scopes } := by
  -- a name is defined in the new scope, where nothing stands yet
  cases name with
  | none => exact ⟨m.scopes.child m.scope, rfl⟩
  | some name =>
    have hdefine : ∃ scopes, define m.scopes.all.size name (.text f.text) false
        { m with scopes := m.scopes.child m.scope } = .ok () { m with scopes } := by
      refine ⟨(m.scopes.child m.scope).bind m.scopes.all.size name ⟨.text f.text, false⟩, ?_⟩
      show (ofExcept ((m.scopes.child m.scope).definable m.scopes.all.size name) >>= _) _ = _
      rw [Scopes.definable_child]
      rfl
    obtain ⟨scopes, hscopes⟩ := hdefine
    refine ⟨scopes, ?_⟩
    show (define m.scopes.all.size name (.text f.text) false >>= fun _ =>
      pure m.scopes.all.size) _ = _
    rw [bind_of_ok hscopes]
    rfl

/-- A `try` whose body fails because of a limit goes on with its handler where the `try` stands. -/
theorem exec_tryCatch_of_limit {bound : Nat} {body : Node} {failed : Machine} {f : Failure}
    (hbody : exec bound body m.tallied = .error (.failed f) failed)
    (hf : f.cause.kind = .recursionLimit) (name : Option String) (handler : Node) :
    m.Restored failed ∧ ∃ scopes, exec (bound + 1) (.tryCatch body name handler) m =
      Run.inScope failed.scopes.all.size (exec bound handler) { failed with scopes } := by
  constructor
  · -- the body has given back all that it took, also in failure
    have hrestored := Machine.Restored.of_safe
      (fun o depth => (Machine.Restored.steps bound o).1 depth body) m.tallied
    rw [hbody] at hrestored
    exact ⟨hrestored.scope, hrestored.frames, hrestored.reflectDepth, hrestored.options⟩
  · -- a refusal is a failure that handlers take
    have hcatch : exec (bound + 1) (.tryCatch body name handler) m =
        Run.handle name (exec bound handler) f failed := by
      show Run.tryCatch (exec bound body) name (exec bound handler) m.tallied = _
      rw [Run.tryCatch_eq, Run.catching, hbody]
      dsimp only
      rw [hf]
      rfl
    obtain ⟨scopes, hscopes⟩ := Run.handlerScope_eq_ok name f failed
    refine ⟨scopes, ?_⟩
    rw [hcatch, Run.handle_eq, Run.bind_of_ok hscopes]

/-- Whatever a fresh machine has run so far, the next program runs within the limits of the options:
a run that is stopped wherever more calls or reflections are open than allowed, or are refused
although fewer are open, is the run itself; and at its end no more calls have ever been open.  No
statement, expression or call fails because of a limit if the refusals are left out.  After such a
failure a handler runs with the calls and reflections of its `try`. -/
theorem recursion_is_limited (options : RunOptions) (ledger : Ledger) (backend : Backend)
    (clock : Nat → Instant) (runs : List (Nat × Node)) (bound : Nat) (program : Node) :
    let m := (Machine.fresh options ledger backend clock).session runs
    (∀ stop, (Probe.limits options stop).run bound program m =
        Run.sequence (exec bound) .null program.statements m) ∧
      (m.execute bound program).2.WithinLimits options ∧
      (∀ stop, (∀ f, stop = .failed f → f.cause.kind ≠ .recursionLimit) → ∀ n,
        (∀ node, Unrefused ((Probe.instead stop).exec n node)) ∧
          (∀ node, Unrefused ((Probe.instead stop).eval n node)) ∧
            ∀ callee args, Unrefused ((Probe.instead stop).call n callee args)) ∧
      ∀ (n : Nat) (body handler : Node) (name : Option String) (before failed : Machine)
        (f : Failure), exec n body before.tallied = .error (.failed f) failed →
          f.cause.kind = .recursionLimit →
            before.Restored failed ∧ ∃ scopes, exec (n + 1) (.tryCatch body name handler) before =
              Run.inScope failed.scopes.all.size (exec n handler) { failed with scopes } := by
  intro m
  have hm : m.Stands options 0 0 := (Machine.Stands.fresh options ledger backend clock).session runs
  refine ⟨fun stop => ?_, (hm.execute bound program).toWithinLimits, fun stop hstop n => ?_, ?_⟩
  · exact ((Limited.follows options stop).run bound program 0 0 m hm).1
  · -- the probe that stops instead of refusing never sees a refusal
    obtain ⟨-, hexec, heval, hcall⟩ := (Unrefused.follows hstop).steps n 0 0
    exact ⟨hexec, heval, hcall⟩
  · intro n body handler name before failed f hbody hf
    exact exec_tryCatch_of_limit hbody hf name handler

/-- A function that calls itself without end, and a call of it. -/
def endlessCall : Node :=
  let call := Node.call (.identifier "f" .start) [] .start
  .block [.function ⟨some "f", [], .block [.returnValue (some call)], false, .start⟩, call]

/-- The call fails when two calls are open and a third one is made, and is caught where none is. -/
theorem recursion_is_limited_endless :
    let m := Machine.fresh { maxCallDepth := 2 } (Ledger.start "sample" {}) (.dryRun "small" 64)
      fun n => ⟨n⟩
    ∃ f failed, exec 9 endlessCall m.tallied = .error (.failed f) failed ∧
      f.cause.kind = .recursionLimit ∧ failed.stats.deepestCall = 2 ∧ failed.frames = [] ∧
        ∃ scopes, exec 10 (.tryCatch endlessCall (some "e") .null) m =
          Run.inScope failed.scopes.all.size (exec 9 .null) { failed with scopes } := by
  intro m
  -- the failure and its depth are found by running the call
  have hkind : (Ending.cause? (exec 9 endlessCall m.tallied)).map Cause.kind =
      some .recursionLimit := by decide +kernel
  have hdeepest : (Ending.machine (exec 9 endlessCall m.tallied)).stats.deepestCall = 2 := by
    decide +kernel
  obtain ⟨c, hc, hkind⟩ := Option.map_eq_some_iff.1 hkind
  obtain ⟨f, failed, hbody, rfl⟩ := Ending.cause?_eq_some.1 hc
  rw [hbody] at hdeepest
  have hlimited := recursion_is_limited { maxCallDepth := 2 } (Ledger.start "sample" {})
    (.dryRun "small" 64) (fun n => ⟨n⟩) [] 10 (.tryCatch endlessCall (some "e") .null)
  obtain ⟨hrestored, hcatch⟩ :=
    hlimited.2.2.2 9 endlessCall .null (some "e") m failed f hbody hkind
  exact ⟨f, failed, hbody, hkind, hdeepest, List.forall₂_nil_left_iff.1 hrestored.frames, hcatch⟩

end BrailleScript
