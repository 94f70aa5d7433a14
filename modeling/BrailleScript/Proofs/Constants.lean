import BrailleScript.Backend.DryRun
import BrailleScript.Proofs.Machine.Restored

/-!
# Constants stay what they are

A name is bound in two ways: a declaration binds it in its own scope, an assignment gives a new
value to the nearest variable of that name.  Both are refused where they would meet a constant, and
nothing else writes to a scope that exists.  So the constants of all scopes survive every run of
every program, however it ends.

## Key results

- `Scopes.ConstantsKept.define`, `Scopes.ConstantsKept.assign`: the two ways to bind a name
- `Machine.Guarded.universal`: every step of every program keeps the constants
- `constants_immutable`: statements, expressions, calls, programs and sessions
-/

namespace BrailleScript

namespace Scopes

variable {s t u : Scopes} {id owner : ScopeId} {name : String}

/-! ## Finding a binding -/

/-- What is found for a name is bound in the scope where it is found. -/
theorem localBinding?_of_findFrom {steps : Nat} {b : Binding}
    (h : s.findFrom name steps id = some (owner, b)) : s.localBinding? owner name = some b := by
  -- the search goes from scope to scope, so the induction is on the scopes it may still visit
  induction steps generalizing id with
  | zero => cases h
  | succ steps ih =>
    rw [findFrom] at h
    split at h
    case h_1 b' hb =>
      cases h
      exact hb
    case h_2 =>
      split at h
      · exact ih h
      · cases h

/-- A name that is bound in a scope itself has that value there. -/
theorem get_of_localBinding? {b : Binding} (h : s.localBinding? id name = some b) :
    s.get id name = .ok b.value := by
  have hfind : s.find? id name = some (id, b) := by
    rw [find?, findFrom, h]
  rw [get, lookup?, hfind]
  rfl

/-- A declaration that is allowed does not meet a constant. -/
theorem not_constant_of_definable (h : s.definable id name = .ok ()) (v : Value) :
    s.localBinding? id name ≠ some ⟨v, true⟩ := by
  intro hb
  rw [definable, hb] at h
  cases h

/-- An assignment that is allowed does not meet a constant. -/
theorem not_constant_of_assignable (h : s.assignable id name = .ok owner) (v : Value) :
    s.localBinding? owner name ≠ some ⟨v, true⟩ := by
  intro hb
  unfold assignable at h
  split at h
  case h_1 => cases h
  case h_2 found b hconstant hfind =>
    cases h
    -- the variable that is assigned is the one that was found, and it is no constant
    have hlocal := localBinding?_of_findFrom hfind
    rw [hb] at hlocal
    obtain rfl := Option.some.inj hlocal
    exact hconstant v rfl
  case h_3 => cases h

/-! ## What scopes keep -/

/-- The constants of the first scopes are constants of the second ones, with the same values. -/
def ConstantsKept (s t : Scopes) : Prop :=
  ∀ id name v, s.localBinding? id name = some ⟨v, true⟩ → t.localBinding? id name = some ⟨v, true⟩

namespace ConstantsKept

/-- Without a change all constants are kept. -/
theorem refl (s : Scopes) : s.ConstantsKept s := fun _ _ _ h => h

/-- Two changes that keep constants keep them one after the other. -/
theorem trans (hst : s.ConstantsKept t) (htu : t.ConstantsKept u) : s.ConstantsKept u :=
  fun id name v h => htu id name v (hst id name v h)

/-- A new scope has no constants to change. -/
theorem child (s : Scopes) (id : ScopeId) : s.ConstantsKept (s.child id) := by
  intro i name v h
  rw [localBinding?_child]
  exact h

/-- Binding a name that is no constant of the scope leaves all constants. -/
theorem bind (hfree : ∀ v, s.localBinding? id name ≠ some ⟨v, true⟩) (b : Binding) :
    s.ConstantsKept (s.bind id name b) := by
  intro i other v h
  rw [localBinding?_bind]
  split
  -- a constant of that name in that scope was excluded
  case isTrue hplace =>
    obtain ⟨rfl, rfl, -⟩ := hplace
    exact absurd h (hfree v)
  case isFalse => exact h

/-- A definition replaces no constant. -/
theorem define (h : s.definable id name = .ok ()) (b : Binding) :
    s.ConstantsKept (s.bind id name b) :=
  .bind (not_constant_of_definable h) b

/-- An assignment changes no constant. -/
theorem assign (h : s.assignable id name = .ok owner) (b : Binding) :
    s.ConstantsKept (s.bind owner name b) :=
  .bind (not_constant_of_assignable h) b

end ConstantsKept

end Scopes

/-! ## What machines keep -/

/-- The second machine has put back the control state of the first one and has its constants. -/
structure Machine.Guarded (m m' : Machine) : Prop extends m.Restored m' where
  constants : m.scopes.ConstantsKept m'.scopes

namespace Machine.Guarded

/-- Keeping constants, whatever functions there are and however runs end. -/
def discipline : Discipline where
  admits _ := True
  stops _ := True
  failed _ := trivial
  keeps := Guarded
  refl m := ⟨.refl m, .refl _⟩
  trans hab hbc := ⟨hab.toRestored.trans hbc.toRestored, hab.constants.trans hbc.constants⟩
  options h := h.options
  calls h := h.toRestored.collecting_eq
  beside hb := ⟨Restored.discipline.beside hb, by
    obtain ⟨_, _, _, _, _, _, rfl⟩ := hb
    exact .refl _⟩
  child m id := ⟨Restored.discipline.child m id, .child _ id⟩
  define m id name v constant h := ⟨Restored.discipline.define m id name v constant h, .define h _⟩
  assign m owner name v h := ⟨Restored.discipline.assign m owner name v h, .assign h _⟩
  yields _ := True
  yielded m v _ := ⟨.yielded m v, .refl _⟩
  inScope id h := ⟨Restored.discipline.inScope id h.toRestored, h.constants⟩
  inFrame frame stats h := ⟨.inFrame frame stats h.toRestored, h.constants⟩
  inReflection h := ⟨Restored.discipline.inReflection h.toRestored, h.constants⟩

/-- Every step of every program keeps the constants. -/
theorem universal : discipline.Universal := ⟨fun _ => trivial, fun _ => trivial, fun _ => trivial⟩

/-- A session keeps the constants that were there before. -/
theorem session (m : Machine) (runs : List (Nat × Node)) : m.Guarded (m.session runs) := by
  induction runs generalizing m with
  | nil => exact discipline.refl m
  | cons run rest ih => exact discipline.trans (universal.execute run.1 run.2 m) (ih _)

end Machine.Guarded

/-- The scope binds the name as a constant to this value. -/
def Machine.HoldsConstant (m : Machine) (id : ScopeId) (name : String) (v : Value) : Prop :=
  m.scopes.localBinding? id name = some ⟨v, true⟩

/-- A constant that was there is still there, with its value. -/
theorem Machine.Guarded.holdsConstant {m m' : Machine} (h : m.Guarded m') {id : ScopeId}
    {name : String} {v : Value} (hm : m.HoldsConstant id name v) : m'.HoldsConstant id name v :=
  h.constants id name v hm

/-- A constant of any scope of any machine is the same constant, with the same value, after every
program, statement, expression, call and session, however it ends; and it is what the name stands
for in that scope. -/
theorem constants_immutable {m : Machine} {id : ScopeId} {name : String} {v : Value}
    (h : m.HoldsConstant id name v) :
    (∀ bound program, (m.execute bound program).2.HoldsConstant id name v ∧
      (m.execute bound program).2.scopes.get id name = .ok v) ∧
    (∀ bound node, (Ending.machine (exec bound node m)).HoldsConstant id name v) ∧
    (∀ bound node, (Ending.machine (eval bound node m)).HoldsConstant id name v) ∧
    (∀ bound callee args, (Ending.machine (call bound callee args m)).HoldsConstant id name v) ∧
    ∀ runs, (m.session runs).HoldsConstant id name v := by
  -- every step of the machine keeps the constants
  have hkept := Machine.Guarded.universal
  refine ⟨fun bound program => ?_, fun bound node => ?_, fun bound node => ?_,
    fun bound callee args => ?_, fun runs => ?_⟩
  · have hafter := (hkept.execute bound program m).holdsConstant h
    exact ⟨hafter, Scopes.get_of_localBinding? hafter⟩
  · exact (hkept.exec bound node m).holdsConstant h
  · exact (hkept.eval bound node m).holdsConstant h
  · exact (hkept.call bound callee args m).holdsConstant h
  · exact (Machine.Guarded.session m runs).holdsConstant h

/-- A machine in whose outermost scope `k` is a constant, an array. -/
def vault : Machine :=
  let fresh := Machine.fresh {} (.start "vault" {}) (.dryRun "small" 64) fun n => ⟨n⟩
  { fresh with
    scopes := fresh.scopes.bind 0 "k" ⟨.array 0, true⟩
    heap := { arrays := #[#[]] } }

/-- Puts a number into the array, assigns to `k` from inside a function, shadows `k` in a block, and
at last declares a class of that name. -/
def burglary : Node :=
  .program
    [.call (.identifier "push" ⟨1, 1⟩) [.identifier "k" ⟨1, 6⟩, .number 1] ⟨1, 5⟩,
     .function ⟨some "f", [], .block [.assign (.identifier "k" ⟨2, 10⟩) (.number 2) ⟨2, 12⟩], false,
       ⟨2, 1⟩⟩,
     .tryCatch (.block [.call (.identifier "f" ⟨3, 7⟩) [] ⟨3, 8⟩]) (some "e")
       (.block [.print [.identifier "e" ⟨3, 28⟩]]),
     .block [.declare "k" (some (.number 3)) false ⟨4, 3⟩, .print [.identifier "k" ⟨4, 20⟩]],
     .classDecl "k" none [] ⟨5, 1⟩]

/-- Assignments to a constant fail, whether they are caught or not, while its array can be
changed. -/
theorem constants_immutable_burglary :
    vault.HoldsConstant 0 "k" (.array 0) ∧
      (vault.execute 20 burglary).2.HoldsConstant 0 "k" (.array 0) ∧
      (vault.execute 20 burglary).2.output =
        #["ConstReassignment: cannot assign to constant 'k'", "3"] := by
  have hbefore : vault.HoldsConstant 0 "k" (.array 0) := rfl
  refine ⟨hbefore, ((constants_immutable hbefore).1 20 burglary).1, ?_⟩
  decide +kernel

end BrailleScript
