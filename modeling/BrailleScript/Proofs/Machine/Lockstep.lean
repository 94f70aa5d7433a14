import BrailleScript.Proofs.Ledger.Quiet
import BrailleScript.Proofs.Machine.Watch
import BrailleScript.Proofs.Machine.Wrapper

/-!
# Runs in lockstep

Two runs of a program in different surroundings stay together as long as the surroundings answer
alike.  A `Lockstep` says how the surroundings of the two runs are related, when the first run is
lost (so that nothing is claimed of the second one any more), and under which watch the first run
goes.  `Sim x y` says that the steps `x` and `y` keep the two runs together.

Most changes of the surroundings are *quiet*: they add to the trace and leave the cache alone.

## Key results

- `Sim.bind`, `Sim.wrap`: steps that stay together compose
- `Sim.of_plain`: a plain step stays together with itself
-/

namespace BrailleScript

/-! ## Quiet changes -/

/-- A change of the surroundings that makes no request. -/
def Surroundings.Quiet (s t : Surroundings) : Prop :=
  ∃ ledger readings,
    s.ledger.Quiet ledger ∧ s.readings ≤ readings ∧ t = { s with ledger, readings }

/-- Nothing is quieter than no change. -/
theorem Surroundings.Quiet.refl (s : Surroundings) : s.Quiet s :=
  ⟨s.ledger, s.readings, .same, Nat.le_refl _, rfl⟩

/-! ## Lockstep -/

/-- How two runs are compared. -/
structure Lockstep where
  /-- The watch under which the first run goes, and how it stops that run. -/
  watch : Watch
  stop : Stop
  /-- The relation between the surroundings of the two runs. -/
  related : Surroundings → Surroundings → Prop
  /-- The surroundings in which the first run is lost. -/
  lost : Surroundings → Prop
  /-- The stops by which the first run is lost. -/
  broken : Stop → Prop

namespace Lockstep

variable {α β : Type}

/-- The first run is lost at its end. -/
def Lost (L : Lockstep) (e : Ending α) : Prop :=
  L.lost e.surroundings ∨ ∃ stop m, e = .error stop m ∧ L.broken stop

/-- The second run ends like the first one, in related surroundings. -/
def Together (L : Lockstep) (e e' : Ending α) : Prop :=
  ∃ s, e' = e.within s ∧ L.related e.surroundings s

/-- The steps of the two runs keep them together, unless the first run is lost. -/
structure Sim (L : Lockstep) (x y : Run α) : Prop where
  lost : ∀ m : Machine, L.lost m.surroundings → L.Lost (x m)
  together : ∀ (m : Machine) (s : Surroundings), L.related m.surroundings s →
    L.Lost (x m) ∨ L.Together (x m) (y (m.within s))

/-- Quiet changes matter to neither run, and no failure of the program breaks the first one. -/
structure Steady (L : Lockstep) : Prop where
  broken_failed : ∀ f, ¬L.broken (.failed f)
  quiet_left : ∀ {a b a'}, L.related a b → a.Quiet a' → L.related a' b
  quiet_right : ∀ {a b b'}, L.related a b → b.Quiet b' → L.related a b'
  quiet_lost : ∀ {a a'}, L.lost a → a.Quiet a' → L.lost a'

/-- What must hold of the surroundings for whole programs to run in lockstep. -/
structure Sound (L : Lockstep) : Prop extends Steady L where
  defaults : ∀ {a b}, L.related a b →
    b.backend.model = a.backend.model ∧ b.backend.maxTokens = a.backend.maxTokens
  admitted : L.broken L.stop ∨ ∀ q, L.watch.request q
  serve_lost : ∀ {a} (q pos), L.lost a → L.lost (a.serve q pos).2
  serve : ∀ {a b} (q pos), L.related a b → L.watch.request q →
    L.lost (a.serve q pos).2 ∨
      (b.serve q pos).1 = (a.serve q pos).1 ∧ L.related (a.serve q pos).2 (b.serve q pos).2
  calls : ∀ (r r' : Steps) (f : Closure) (args : List Value),
    L.Sim (Run.enterFunction r f args) (Run.enterFunction r' f args) →
    L.Sim (L.watch.callFunction L.stop r f args) (Run.callFunction r' f args)

variable {L : Lockstep}

/-- A lost ending with a result is one of a lost machine. -/
theorem Lost.of_ok {a : α} {m : Machine} (h : L.Lost (.ok a m)) : L.lost m.surroundings := by
  rcases h with h | ⟨stop, m', he, -⟩
  · exact h
  · exact nomatch he

/-- Lost endings by a stop are lost whatever result was expected. -/
theorem Lost.error {stop : Stop} {m : Machine} (h : L.Lost (.error stop m : Ending α)) :
    L.Lost (.error stop m : Ending β) := by
  rcases h with h | ⟨stop', m', he, hs⟩
  · exact .inl h
  · cases he
    exact .inr ⟨stop, m, rfl, hs⟩

namespace Sim

/-- A blind step runs in lockstep with itself. -/
private theorem of_blind {x : Run α} (h : Run.Blind x) : L.Sim x x where
  lost m hm := by
    left
    rw [h.surroundings_eq]
    exact hm
  together m s hms := by
    refine .inr ⟨s, h m s, ?_⟩
    rw [h.surroundings_eq]
    exact hms

/-- So does a plain one. -/
theorem of_plain {x : Run α} (h : Run.Plain x) : L.Sim x x := of_blind h.blind

/-- So does a result. -/
theorem pure (a : α) : L.Sim (Pure.pure a) (Pure.pure a) := of_blind (.pure a)

/-- So does a failure. -/
theorem fail (c : Cause) : L.Sim (Run.fail c : Run α) (Run.fail c) := of_blind (.throw _)

/-- Steps in lockstep are so in sequence. -/
theorem bind {x y : Run α} {f g : α → Run β} (hx : L.Sim x y) (hf : ∀ a, L.Sim (f a) (g a)) :
    L.Sim (x >>= f) (y >>= g) where
  lost m hm := by
    have hxm := hx.lost m hm
    cases h : x m with
    | ok a m' =>
      rw [h] at hxm
      rw [Run.bind_of_ok h]
      exact (hf a).lost m' hxm.of_ok
    | error stop m' =>
      rw [h] at hxm
      rw [Run.bind_of_error h]
      exact hxm.error
  together m s hms := by
    have hxm := hx.together m s hms
    -- if the first run is lost in `x` it stays lost in what follows
    cases h : x m with
    | ok a m' =>
      rw [h] at hxm
      rw [Run.bind_of_ok h]
      rcases hxm with hlost | ⟨t, hy, hmt⟩
      · exact .inl ((hf a).lost m' hlost.of_ok)
      · rw [Run.bind_of_ok hy]
        exact (hf a).together m' t hmt
    | error stop m' =>
      rw [h] at hxm
      rw [Run.bind_of_error h]
      rcases hxm with hlost | ⟨t, hy, hmt⟩
      · exact .inl hlost.error
      · rw [Run.bind_of_error hy]
        exact .inr ⟨t, rfl, hmt⟩

/-- A step that looks at what the two runs have in common before it goes on. -/
theorem get_bind {f g : Machine → Run α}
    (hg : ∀ (m : Machine) s, L.related m.surroundings s → g (m.within s) = g m)
    (h : ∀ m, L.Sim (f m) (g m)) : L.Sim (get >>= f) (get >>= g) where
  lost m hm := (h m).lost m hm
  together m s hms := by
    show L.Lost (f m m) ∨ L.Together (f m m) (g (m.within s) (m.within s))
    rw [hg m s hms]
    exact (h m).together m s hms

/-- A step with something done before it and after it, however it ends: to the program's own state
the same in both runs, and to the surroundings of each run quietly. -/
theorem wrap (hL : L.Steady) {x y : Run α} (pre pre' : Machine → Machine)
    (post post' : Machine → Ending α → Ending β)
    (hpre : ∀ m : Machine, m.surroundings.Quiet (pre m).surroundings)
    (hpre' : ∀ m s, ∃ t, pre' (m.within s) = (pre m).within t ∧ s.Quiet t)
    (hpost : ∀ m (e : Ending α), e.surroundings.Quiet (post m e).surroundings)
    (hpost' : ∀ m s (e : Ending α) t,
      ∃ t', post' (m.within s) (e.within t) = (post m e).within t' ∧ t.Quiet t')
    (hstop : ∀ m stop m', (∀ f, stop ≠ .failed f) →
      ∃ m'', post m (.error stop m') = .error stop m'')
    (h : L.Sim x y) :
    L.Sim (fun m => post m (x (pre m))) (fun m => post' m (y (pre' m))) := by
  have hl (m : Machine) (e : Ending α) (he : L.Lost e) : L.Lost (post m e) := by
    rcases he with he | ⟨stop, m', rfl, hb⟩
    · exact .inl (hL.quiet_lost he (hpost m e))
    · -- a stop by which a run is lost is no failure, so `post` lets it through
      obtain ⟨m'', hm''⟩ := hstop m stop m' fun f hf => hL.broken_failed f (hf ▸ hb)
      exact .inr ⟨stop, m'', hm'', hb⟩
  constructor
  case lost =>
    intro m hm
    exact hl m _ (h.lost (pre m) (hL.quiet_lost hm (hpre m)))
  case together =>
    intro m s hms
    obtain ⟨t, ht, hst⟩ := hpre' m s
    -- what is done before the step is quiet on both sides
    have hrel : L.related (pre m).surroundings t :=
      hL.quiet_right (hL.quiet_left hms (hpre m)) hst
    rcases h.together (pre m) t hrel with hlost | ⟨u, hy, hu⟩
    · exact .inl (hl m _ hlost)
    · obtain ⟨u', hu', hq⟩ := hpost' m s (x (pre m)) u
      refine .inr ⟨u', ?_, hL.quiet_right (hL.quiet_left hu (hpost m _)) hq⟩
      show post' (m.within s) (y (pre' (m.within s))) = _
      rw [ht, hy, hu']

/-- A step with something done around it to the program's own state only. -/
theorem wrap_blind (hL : L.Steady) {w : Wrapper α β} (hw : w.Blind) {x y : Run α} (h : L.Sim x y) :
    L.Sim (w.around x) (w.around y) := by
  -- what is done to the program's own state leaves the surroundings
  have hbefore (m : Machine) : (w.before m).surroundings = m.surroundings := by
    have hm := hw.before m m.surroundings
    rw [Machine.within_surroundings] at hm
    rw [hm, Machine.surroundings_within]
  have hafter (m : Machine) (e : Ending α) : (w.after m e).surroundings = e.surroundings := by
    have hm := hw.after m m.surroundings e e.surroundings
    rw [Machine.within_surroundings, Ending.within_surroundings] at hm
    rw [hm, Ending.surroundings_within]
  refine wrap hL w.before w.before w.after w.after ?_ ?_ ?_ ?_ w.stopped h
  · intro m
    rw [hbefore]
    exact .refl _
  · exact fun m s => ⟨s, hw.before m s, .refl s⟩
  · intro m e
    rw [hafter]
    exact .refl _
  · exact fun m s e t => ⟨t, hw.after m s e t, .refl t⟩

/-- They are at a position. -/
theorem located (hL : L.Steady) {x y : Run α} (pos : Pos) (h : L.Sim x y) :
    L.Sim (Run.located pos x) (Run.located pos y) :=
  wrap_blind hL (Wrapper.blind_located pos) h

/-- They are in a scope. -/
theorem inScope (hL : L.Steady) {x y : Run α} (id : ScopeId) (h : L.Sim x y) :
    L.Sim (Run.inScope id x) (Run.inScope id y) :=
  wrap_blind hL (Wrapper.blind_inScope id) h

/-- They are in a frame. -/
theorem inFrame (hL : L.Steady) {x y : Run α} (frame : Frame) (h : L.Sim x y) :
    L.Sim (Run.inFrame frame x) (Run.inFrame frame y) :=
  wrap_blind hL (Wrapper.blind_inFrame frame) h

/-- They are inside of a reflected program. -/
theorem inReflection (hL : L.Steady) {x y : Run α} (h : L.Sim x y) :
    L.Sim (Run.inReflection x) (Run.inReflection y) :=
  wrap_blind hL Wrapper.blind_inReflection h

end Sim

end Lockstep

end BrailleScript
