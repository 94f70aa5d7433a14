import BrailleScript.Proofs.Machine.Plain

/-!
# Steps around steps

To run a step in a scope, inside a call, one level deeper in reflection, under a position or for a
call of the ledger is to do something before it and something after it, however it ends.  A
`Wrapper` is what is done.  It passes on in which way the step ends: with a value, with a failure of
a cause, or by another stop.

What else holds of a wrapper is said where it is needed: that it does not touch the surroundings
(`Wrapper.Blind`), or that it opens and closes no call and no reflection (`Wrapper.Level`).

## Key results

- `Wrapper.located`, `Wrapper.inScope`, `Wrapper.inFrame`, `Wrapper.inReflection`,
  `Wrapper.closing`: the wrappers of the language
-/

namespace BrailleScript

/-- The machines have the same variables, heap, output, counters and requests.  They may differ in
the current scope, the open calls and the depth of reflection, which are left on the way out of a
program, and in what the ledger has noted meanwhile. -/
def Machine.Agrees (m m' : Machine) : Prop :=
  ∃ scope frames reflectDepth ledger readings,
    m' = { m with scope, frames, reflectDepth, ledger, readings }

/-- A machine agrees with itself. -/
theorem Machine.Agrees.refl (m : Machine) : m.Agrees m :=
  ⟨m.scope, m.frames, m.reflectDepth, m.ledger, m.readings, rfl⟩

/-- Agreement goes from one machine to the next. -/
theorem Machine.Agrees.trans {m m' m'' : Machine} (h : m.Agrees m') (h' : m'.Agrees m'') :
    m.Agrees m'' := by
  obtain ⟨_, _, _, _, _, rfl⟩ := h
  obtain ⟨scope, frames, reflectDepth, ledger, readings, rfl⟩ := h'
  exact ⟨scope, frames, reflectDepth, ledger, readings, rfl⟩

/-- The cause of the failure that a step ends with, if it does. -/
def Ending.cause? {α : Type} : Ending α → Option Cause
  | .error (.failed f) _ => some f.cause
  | _ => none

/-- An ending with a cause is one that failed for it. -/
theorem Ending.cause?_eq_some {α : Type} {e : Ending α} {c : Cause} :
    e.cause? = some c ↔ ∃ f m, e = .error (.failed f) m ∧ f.cause = c := by
  match e with
  | .error (.failed f) m => simp [cause?]
  | .ok a m | .error .conflict m | .error .exhausted m => simp [cause?]

/-- What is done before a step and after it.  After a failure no variable, heap, output or counter is
touched. -/
structure Wrapper (α β : Type) where
  before : Machine → Machine
  /-- What becomes of the ending of the step, given the machine before it. -/
  after : Machine → Ending α → Ending β
  ok : ∀ m a m', ∃ b m'', after m (.ok a m') = .ok b m''
  failed : ∀ m f m', ∃ f' m'', after m (.error (.failed f) m') = .error (.failed f') m'' ∧
    f'.cause = f.cause ∧ m'.Agrees m''
  stopped : ∀ m stop m', (∀ f, stop ≠ .failed f) →
    ∃ m'', after m (.error stop m') = .error stop m''

namespace Wrapper

variable {α β : Type}

/-- Does it around a step. -/
def around (w : Wrapper α β) (x : Run α) : Run β := fun m => w.after m (x (w.before m))

/-- A wrapper passes on the cause of a failure. -/
theorem cause?_after (w : Wrapper α β) (m : Machine) (e : Ending α) :
    Ending.cause? (w.after m e) = Ending.cause? e := by
  match e with
  | .ok a m' =>
    obtain ⟨b, m'', hb⟩ := w.ok m a m'
    rw [hb]
    rfl
  | .error (.failed f) m' =>
    obtain ⟨f', m'', hf', hc, -⟩ := w.failed m f m'
    rw [hf']
    exact congrArg some hc
  | .error .conflict m' =>
    obtain ⟨m'', hm''⟩ := w.stopped m .conflict m' fun _ h => nomatch h
    rw [hm'']
    rfl
  | .error .exhausted m' =>
    obtain ⟨m'', hm''⟩ := w.stopped m .exhausted m' fun _ h => nomatch h
    rw [hm'']
    rfl

/-! ## The wrappers of the language

What one of them does with an ending is what it does around a step that ends so. -/

/-- A step at a position, which its failures take. -/
def located (pos : Pos) : Wrapper α α where
  before m := m
  after m e := Run.located pos (fun _ => e) m
  ok _ a m' := ⟨a, m', rfl⟩
  failed _ f m' := ⟨f.locate pos, m', rfl, rfl, .refl m'⟩
  stopped m stop m' h := by
    cases stop with
    | failed f => exact absurd rfl (h f)
    | conflict | exhausted => exact ⟨m', rfl⟩

/-- A step in another scope, which is set back behind it. -/
def inScope (id : ScopeId) : Wrapper α α where
  before m := { m with scope := id }
  after m e := Run.inScope id (fun _ => e) m
  ok _ _ _ := ⟨_, _, rfl⟩
  failed _ f m' :=
    ⟨f, _, rfl, rfl, _, m'.frames, m'.reflectDepth, m'.ledger, m'.readings, rfl⟩
  stopped _ _ _ _ := ⟨_, rfl⟩

/-- A step in a frame of its own, with what the frame collects. -/
def inFrame (frame : Frame) : Wrapper α (α × Array Value) where
  before m :=
    let frames := frame :: m.frames
    { m with
      frames
      stats := { m.stats with deepestCall := Nat.max m.stats.deepestCall frames.length } }
  after m e := Run.inFrame frame (fun _ => e) m
  ok _ _ _ := ⟨_, _, rfl⟩
  failed _ f m' :=
    ⟨f, _, rfl, rfl, m'.scope, _, m'.reflectDepth, m'.ledger, m'.readings, rfl⟩
  stopped _ _ _ _ := ⟨_, rfl⟩

/-- A step one level deeper in reflected programs. -/
def inReflection : Wrapper α α where
  before m := { m with reflectDepth := m.reflectDepth + 1 }
  after m e := Run.inReflection (fun _ => e) m
  ok _ _ _ := ⟨_, _, rfl⟩
  failed _ f m' := ⟨f, _, rfl, rfl, m'.scope, m'.frames, _, m'.ledger, m'.readings, rfl⟩
  stopped _ _ _ _ := ⟨_, rfl⟩

/-- The ledger notes how the call ended, and that is all. -/
def closing (started : Instant) (id : Nat) (c : Call) : Wrapper (α × Json) α where
  before m := m
  after m e := Run.closing started id c (fun _ => e) m
  ok _ _ _ := ⟨_, _, rfl⟩
  failed _ f m' := ⟨f, _, rfl, rfl, m'.scope, m'.frames, m'.reflectDepth, _, _, rfl⟩
  stopped m stop m' h := by
    cases stop with
    | failed f => exact absurd rfl (h f)
    | conflict | exhausted => exact ⟨m', rfl⟩

/-! ## Wrappers of the program's own state -/

/-- The wrapper neither looks at the surroundings nor changes them. -/
structure Blind (w : Wrapper α β) : Prop where
  before : ∀ m s, w.before (m.within s) = (w.before m).within s
  after : ∀ m s e t, w.after (m.within s) (Ending.within e t) = (w.after m e).within t

/-- Positions do not touch the surroundings. -/
theorem blind_located (pos : Pos) : (located pos : Wrapper α α).Blind where
  before _ _ := rfl
  after m s e t := by
    match e with
    | .ok a m' | .error (.failed f) m' | .error .conflict m' | .error .exhausted m' => rfl

/-- Nor do scopes. -/
theorem blind_inScope (id : ScopeId) : (inScope id : Wrapper α α).Blind where
  before _ _ := rfl
  after m s e t := by cases e <;> rfl

/-- Nor do frames. -/
theorem blind_inFrame (frame : Frame) : (inFrame frame : Wrapper α _).Blind where
  before _ _ := rfl
  after m s e t := by cases e <;> rfl

/-- Nor do levels of reflection. -/
theorem blind_inReflection : (inReflection : Wrapper α α).Blind where
  before _ _ := rfl
  after m s e t := by cases e <;> rfl

/-! ## Wrappers that stay at one depth -/

/-- The wrapper opens no call and no reflection, and closes none. -/
structure Level (w : Wrapper α β) : Prop where
  before : ∀ m, (w.before m).standing = m.standing
  after : ∀ m e, (Ending.machine (w.after m e)).standing = (Ending.machine e).standing

/-- Positions leave the frames and the depth. -/
theorem level_located (pos : Pos) : (located pos : Wrapper α α).Level where
  before _ := rfl
  after m e := by
    match e with
    | .ok a m' | .error (.failed f) m' | .error .conflict m' | .error .exhausted m' => rfl

/-- So do scopes. -/
theorem level_inScope (id : ScopeId) : (inScope id : Wrapper α α).Level where
  before _ := rfl
  after m e := by cases e <;> rfl

/-- So does closing a call. -/
theorem level_closing (started : Instant) (id : Nat) (c : Call) :
    (closing started id c : Wrapper (α × Json) α).Level where
  before _ := rfl
  after m e := by
    match e with
    | .ok a m' | .error (.failed f) m' | .error .conflict m' | .error .exhausted m' => rfl

end Wrapper

end BrailleScript
