import BrailleScript.Machine

/-!
# Surroundings

A machine is a program's own state (variables, heap, frames, output, counters) in surroundings:
the ledger, the backend, the clock, and whether calls of functions are recorded.  `within` puts a
machine into other surroundings.

A step is *blind* if it neither looks at the surroundings nor changes them: it does the same
within any of them.

## Key results

- `Blind.bind`, `Blind.get_bind`, `Blind.modifyGet`: blind steps compose
- `Blind.surroundings_eq`: a blind step leaves the surroundings as they are
-/

namespace BrailleScript

/-- The part of a machine that programs cannot look at. -/
structure Surroundings where
  ledger : Ledger
  backend : Backend
  requests : Nat
  clock : Nat → Instant
  readings : Nat
  /-- Whether calls of functions are recorded. -/
  traced : Bool

namespace Machine

/-- What surrounds the program in a machine. -/
def surroundings (m : Machine) : Surroundings :=
  ⟨m.ledger, m.backend, m.requests, m.clock, m.readings, m.options.traceDeterministic⟩

/-- The machine in other surroundings. -/
def within (m : Machine) (s : Surroundings) : Machine :=
  { m with
    ledger := s.ledger
    backend := s.backend
    requests := s.requests
    clock := s.clock
    readings := s.readings
    options := { m.options with traceDeterministic := s.traced } }

/-- A machine within its own surroundings is itself. -/
@[simp] theorem within_surroundings (m : Machine) : m.within m.surroundings = m := rfl

/-- Within others it has those. -/
@[simp] theorem surroundings_within (m : Machine) (s : Surroundings) :
    (m.within s).surroundings = s := rfl

end Machine

/-- How a step ends: with a value or a stop, and a machine in either case. -/
abbrev Ending (α : Type) := EStateM.Result Stop Machine α

namespace Ending

variable {α : Type}

/-- The machine at the end. -/
def machine : Ending α → Machine
  | .ok _ m => m
  | .error _ m => m

/-- The same ending in other surroundings. -/
def within (e : Ending α) (s : Surroundings) : Ending α :=
  match e with
  | .ok a m => .ok a (m.within s)
  | .error stop m => .error stop (m.within s)

/-- The surroundings at the end. -/
def surroundings (e : Ending α) : Surroundings :=
  e.machine.surroundings

/-- A result is put within surroundings by its machine. -/
@[simp] theorem within_ok (a : α) (m : Machine) (s : Surroundings) :
    within (.ok a m) s = .ok a (m.within s) := rfl

/-- So is a stop. -/
@[simp] theorem within_error (stop : Stop) (m : Machine) (s : Surroundings) :
    within (.error stop m : Ending α) s = .error stop (m.within s) := rfl

/-- The surroundings of a result are those of its machine. -/
@[simp] theorem surroundings_ok (a : α) (m : Machine) :
    surroundings (.ok a m) = m.surroundings := rfl

/-- So are those of a stop. -/
@[simp] theorem surroundings_error (stop : Stop) (m : Machine) :
    surroundings (.error stop m : Ending α) = m.surroundings := rfl

/-- An ending within surroundings has those. -/
@[simp] theorem surroundings_within (e : Ending α) (s : Surroundings) :
    (e.within s).surroundings = s := by
  cases e <;> rfl

/-- Within its own it is itself. -/
@[simp] theorem within_surroundings (e : Ending α) : e.within e.surroundings = e := by
  cases e <;> rfl

end Ending

namespace Run

variable {α β : Type}

/-! ## What composed steps do -/

/-- A sequence goes on with a result. -/
theorem bind_of_ok {x : Run α} {f : α → Run β} {m m' : Machine} {a : α} (h : x m = .ok a m') :
    (x >>= f) m = f a m' := by
  show EStateM.bind x f m = _
  simp only [EStateM.bind, h]

/-- It ends with a stop. -/
theorem bind_of_error {x : Run α} {f : α → Run β} {m m' : Machine} {stop : Stop}
    (h : x m = .error stop m') : (x >>= f) m = .error stop m' := by
  show EStateM.bind x f m = _
  simp only [EStateM.bind, h]

/-! ## Blind steps -/

/-- A step that neither looks at the surroundings nor changes them. -/
def Blind (x : Run α) : Prop :=
  ∀ m s, x (m.within s) = Ending.within (x m) s

namespace Blind

/-- A blind step leaves the surroundings as they are. -/
theorem surroundings_eq {x : Run α} (h : Blind x) (m : Machine) :
    Ending.surroundings (x m) = m.surroundings := by
  -- put into its own surroundings the machine is the same, and there the step ends
  have hm := h m m.surroundings
  rw [Machine.within_surroundings] at hm
  rw [hm, Ending.surroundings_within]

/-- A result is blind. -/
theorem pure (a : α) : Blind (pure a : Run α) := fun _ _ => rfl

/-- So is a stop. -/
theorem throw (stop : Stop) : Blind (throw stop : Run α) := fun _ _ => rfl

/-- So is a sequence of blind steps. -/
theorem bind {x : Run α} {f : α → Run β} (hx : Blind x) (hf : ∀ a, Blind (f a)) :
    Blind (x >>= f) := by
  intro m s
  have hm := hx m s
  cases h : x m with
  | ok a m' =>
    rw [h] at hm
    rw [bind_of_ok h, bind_of_ok hm]
    exact hf a m' s
  | error stop m' =>
    rw [h] at hm
    rw [bind_of_error h, bind_of_error hm]
    rfl

/-- A step that looks at the program's own state only. -/
theorem get_bind {f : Machine → Run α} (hf : ∀ m s, f (m.within s) = f m)
    (h : ∀ m, Blind (f m)) : Blind (get >>= f) := by
  intro m s
  show f (m.within s) (m.within s) = _
  rw [hf]
  exact h m m s

/-- A step that changes the program's own state only. -/
theorem modifyGet {f : Machine → α × Machine}
    (hf : ∀ m s, f (m.within s) = ((f m).1, (f m).2.within s)) : Blind (modifyGet f : Run α) := by
  intro m s
  show EStateM.Result.ok (f (m.within s)).1 (f (m.within s)).2 = _
  rw [hf]
  rfl

end Blind

end Run

end BrailleScript
