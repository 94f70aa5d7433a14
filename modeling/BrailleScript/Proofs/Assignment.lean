import BrailleScript.Proofs.Constants
import BrailleScript.Proofs.Heap.Walks

/-!
# An assignment changes one variable

Reading a name and writing one walk outward through the same scopes and stop at the same binding.
So after an assignment the name has the new value wherever it denoted that variable, it has its old
value wherever it denoted another one, and every other name is as it was.  An assignment or a
declaration that is refused changes nothing at all.

## Key results

- `Scopes.nearest_iff`, `Scopes.writes_iff`: the two walks without a bound end, and with what `find?`
  and `assign` give
- `Scopes.find?_bind`: who sees a binding that is replaced
- `assignName_changes_one_variable`: all machines, scopes and names
-/

namespace BrailleScript

namespace Scopes

variable {s : Scopes} {id owner : ScopeId} {name other : String} {b : Binding} {v : Value}

/-! ## The two walks -/

/-- The nearest binding of a name on the way outward, with its scope. -/
inductive Nearest (s : Scopes) (name : String) : ScopeId → Option (ScopeId × Binding) → Prop
  | here {id : ScopeId} {b : Binding} (hb : s.localBinding? id name = some b) :
    Nearest s name id (some (id, b))
  | outward {id p : ScopeId} {r : Option (ScopeId × Binding)}
    (hb : s.localBinding? id name = none) (hp : s.parent? id = some p) (hr : Nearest s name p r) :
    Nearest s name id r
  | nowhere {id : ScopeId} (hb : s.localBinding? id name = none) (hp : s.parent? id = none) :
    Nearest s name id none

/-- What comes of giving a name a value: on the way outward the first scope that binds the name takes
the value, or refuses it. -/
inductive Writes (s : Scopes) (name : String) (v : Value) : ScopeId → Except Cause Scopes → Prop
  | here {id : ScopeId} {old : Value} (hb : s.localBinding? id name = some ⟨old, false⟩) :
    Writes s name v id (.ok (s.bind id name ⟨v, false⟩))
  | constant {id : ScopeId} {old : Value} (hb : s.localBinding? id name = some ⟨old, true⟩) :
    Writes s name v id (.error (.constant name))
  | outward {id p : ScopeId} {r : Except Cause Scopes} (hb : s.localBinding? id name = none)
    (hp : s.parent? id = some p) (hr : Writes s name v p r) : Writes s name v id r
  | nowhere {id : ScopeId} (hb : s.localBinding? id name = none) (hp : s.parent? id = none) :
    Writes s name v id (.error (.unbound name))

/-- A scope that declares the name is the one that is found. -/
theorem find?_of_some (hb : s.localBinding? id name = some b) : s.find? id name = some (id, b) := by
  rw [find?, findFrom, hb]

/-- Otherwise the search goes on in the scope around it. -/
theorem find?_of_parent {p : ScopeId} (hb : s.localBinding? id name = none)
    (hp : s.parent? id = some p) : s.find? id name = s.find? p name := by
  have hlt : p < id := parent?_lt hp
  rw [find?, findFrom, hb, hp]
  exact s.findFrom_eq name hlt

/-- It ends where there is none around it. -/
theorem find?_of_none (hb : s.localBinding? id name = none) (hp : s.parent? id = none) :
    s.find? id name = none := by
  rw [find?, findFrom, hb, hp]

/-- Every walk outward ends. -/
theorem nearest_find? (s : Scopes) (id : ScopeId) (name : String) :
    s.Nearest name id (s.find? id name) := by
  -- a parent has a smaller number, so the walk comes to its end
  induction id using Nat.strongRecOn with
  | ind id ih =>
    cases hb : s.localBinding? id name with
    | some b => exact find?_of_some hb ▸ .here hb
    | none =>
      cases hp : s.parent? id with
      | some p => exact find?_of_parent hb hp ▸ .outward hb hp (ih p (parent?_lt hp))
      | none => exact find?_of_none hb hp ▸ .nowhere hb hp

/-- The search finds the nearest variable. -/
theorem nearest_iff {r : Option (ScopeId × Binding)} :
    s.Nearest name id r ↔ r = s.find? id name := by
  constructor
  · intro hr
    induction hr with
    | here hb => exact (find?_of_some hb).symm
    | outward hb hp _ ih => exact ih.trans (find?_of_parent hb hp).symm
    | nowhere hb hp => exact (find?_of_none hb hp).symm
  · rintro rfl
    exact nearest_find? s id name

/-- Writing stops where reading stops. -/
theorem writes_iff {r : Except Cause Scopes} : s.Writes name v id r ↔ r = s.assign id name v := by
  constructor
  · intro hr
    induction hr with
    | here hb => rw [assign, assignable, find?_of_some hb]
    | constant hb => rw [assign, assignable, find?_of_some hb]
    | outward hb hp _ ih => rw [ih, assign, assignable, ← find?_of_parent hb hp]; rfl
    | nowhere hb hp => rw [assign, assignable, find?_of_none hb hp]
  · rintro rfl
    unfold assign assignable
    -- scopes lie in older ones, so the induction is on the number of the scope
    induction id using Nat.strongRecOn with
    | ind id ih =>
      cases hb : s.localBinding? id name with
      | some b =>
        obtain ⟨old, _ | _⟩ := b
        · exact find?_of_some hb ▸ .here hb
        · exact find?_of_some hb ▸ .constant hb
      | none =>
        cases hp : s.parent? id with
        | some p => exact find?_of_parent hb hp ▸ .outward hb hp (ih p (parent?_lt hp))
        | none => exact find?_of_none hb hp ▸ .nowhere hb hp

/-! ## Who sees a binding -/

/-- Setting a variable moves no scope. -/
theorem parent?_bind (s : Scopes) (id i : ScopeId) (name : String) (b : Binding) :
    (s.bind id name b).parent? i = s.parent? i := by
  unfold parent? bind
  dsimp only
  rw [Array.getElem?_modify]
  split
  · cases s.all[i]? <;> rfl
  · rfl

/-- Only scopes that were made declare names. -/
theorem lt_size_of_localBinding? (hb : s.localBinding? id name = some b) : id < s.all.size := by
  obtain ⟨scope, hscope, -⟩ := Option.bind_eq_some_iff.1 hb
  exact (Array.getElem?_eq_some_iff.1 hscope).1

/-- A binding that is replaced is seen from where the old one was seen, and nothing else changes. -/
theorem find?_bind {old : Binding} (hold : s.localBinding? owner name = some old) (b : Binding)
    (id : ScopeId) (other : String) :
    (s.bind owner name b).find? id other =
      if other = name ∧ s.resolve? id other = some owner then some (owner, b)
      else s.find? id other := by
  have howner := lt_size_of_localBinding? hold
  have hlocal (i : ScopeId) := localBinding?_bind s owner i name other b
  symm
  rw [← nearest_iff]
  have hr := nearest_find? s id other
  unfold resolve?
  generalize s.find? id other = r at hr
  -- the new variable is found by the same way as the old one
  induction hr with
  | @here id found hb =>
    by_cases hhere : other = name ∧ id = owner
    · obtain ⟨rfl, rfl⟩ := hhere
      rw [if_pos ⟨rfl, rfl⟩]
      exact .here (by rw [hlocal, if_pos ⟨rfl, rfl, howner⟩])
    · rw [if_neg (by simpa using hhere)]
      refine .here ?_
      rw [hlocal, if_neg (fun h => hhere ⟨h.2.1.symm, h.1.symm⟩), hb]
  | @outward id p r hb hp _ ih =>
    refine .outward ?_ (by rw [parent?_bind, hp]) ih
    rw [hlocal, if_neg, hb]
    -- the scope does not bind the name, so it is not the one that was changed
    rintro ⟨rfl, rfl, -⟩
    rw [hold] at hb
    cases hb
  | @nowhere id hb hp =>
    rw [if_neg nofun]
    refine .nowhere ?_ (by rw [parent?_bind, hp])
    rw [hlocal, if_neg, hb]
    rintro ⟨rfl, rfl, -⟩
    rw [hold] at hb
    cases hb

/-! ## Assignments -/

/-- An assignment succeeds at the nearest binding, if that is a variable. -/
theorem assign_eq_ok {t : Scopes} : s.assign id name v = .ok t ↔
    ∃ owner old, s.find? id name = some (owner, ⟨old, false⟩) ∧ t = s.bind owner name ⟨v, false⟩ := by
  unfold assign assignable
  rcases hfound : s.find? id name with _ | ⟨owner, old, _ | _⟩ <;> simp [eq_comm]

/-- It is refused just where the name is unbound or the nearest binding is a constant. -/
theorem assign_eq_error {cause : Cause} : s.assign id name v = .error cause ↔
    cause = .unbound name ∧ s.find? id name = none ∨
      cause = .constant name ∧ ∃ owner old, s.find? id name = some (owner, ⟨old, true⟩) := by
  unfold assign assignable
  rcases hfound : s.find? id name with _ | ⟨owner, old, _ | _⟩ <;> simp [eq_comm]

/-- A declaration is refused just where the scope itself has the name as a constant. -/
theorem define_eq_error {cause : Cause} : s.define id name b = .error cause ↔
    cause = .constant name ∧ ∃ old, s.localBinding? id name = some ⟨old, true⟩ := by
  unfold define definable
  rcases hfound : s.localBinding? id name with _ | ⟨old, _ | _⟩ <;> simp [eq_comm]

/-- After an assignment the name has the new value where it denotes the variable that was given one,
and elsewhere the value it had. -/
theorem lookup?_assign {t : Scopes} (h : s.assign id name v = .ok t) (i : ScopeId) :
    t.lookup? i name =
      if s.resolve? i name = s.resolve? id name then some v else s.lookup? i name := by
  obtain ⟨owner, old, hfound, rfl⟩ := assign_eq_ok.1 h
  -- the variable that was assigned is the one that the name denoted
  have hresolve : s.resolve? id name = some owner := by rw [resolve?, hfound]; rfl
  rw [lookup?, find?_bind (localBinding?_of_findFrom hfound), hresolve]
  by_cases hi : s.resolve? i name = some owner
  · rw [if_pos ⟨rfl, hi⟩, if_pos hi]
    rfl
  · rw [if_neg fun hand => hi hand.2, if_neg hi, lookup?]

/-- Other names have the values they had. -/
theorem lookup?_assign_ne {t : Scopes} (h : s.assign id name v = .ok t) (hne : other ≠ name)
    (i : ScopeId) : t.lookup? i other = s.lookup? i other := by
  obtain ⟨owner, old, hfound, rfl⟩ := assign_eq_ok.1 h
  rw [lookup?, find?_bind (localBinding?_of_findFrom hfound), if_neg fun hand => hne hand.1, lookup?]

end Scopes

namespace Run

/-- How a step that gives a name a value ends: with the scopes that come of it, or with its cause of
failure and the machine as it was. -/
def rebinding (m : Machine) : Except Cause Scopes → Ending Unit
  | .ok t => .ok () { m with scopes := t }
  | .error cause => .error (.failed ⟨cause, none⟩) m

/-- A failed change leaves the machine as it was. -/
theorem rebinding_eq_error {m m' : Machine} {r : Except Cause Scopes} {stop : Stop} :
    rebinding m r = .error stop m' ↔
      m' = m ∧ ∃ cause, stop = .failed ⟨cause, none⟩ ∧ r = .error cause := by
  cases r <;> simp [rebinding, eq_comm, and_comm]

/-- Assigning a name changes the variable that is found from the current scope. -/
theorem assignName_apply (name : String) (v : Value) (m : Machine) :
    assignName name v m = rebinding m (m.scopes.assign m.scope name v) := by
  show EStateM.bind (ofExcept (m.scopes.assignable m.scope name)) _ m = _
  unfold Scopes.assign
  cases m.scopes.assignable m.scope name <;> rfl

/-- Defining a name changes the scope that is meant. -/
theorem define_apply (id : ScopeId) (name : String) (v : Value) (constant : Bool) (m : Machine) :
    define id name v constant m = rebinding m (m.scopes.define id name ⟨v, constant⟩) := by
  show EStateM.bind (ofExcept (m.scopes.definable id name)) _ m = _
  unfold Scopes.define
  cases m.scopes.definable id name <;> rfl

end Run

/-- Giving a name a value, from any scope `m.scope` of any machine.  If it succeeds, the name has the
new value in just those scopes where it denoted the same variable, everything else that any name
denotes in any scope is unchanged, and so is the rest of the machine.  It fails just where the name
is unbound or its nearest binding is a constant.  Where it fails, or a declaration fails, the
machine is unchanged. -/
theorem assignName_changes_one_variable (m : Machine) (name : String) (v : Value) :
    (∀ m', Run.assignName name v m = .ok () m' →
      m' = { m with scopes := m'.scopes } ∧
      (∀ id, m'.scopes.lookup? id name =
        if m.scopes.resolve? id name = m.scopes.resolve? m.scope name then some v
        else m.scopes.lookup? id name) ∧
      ∀ id other, other ≠ name → m'.scopes.lookup? id other = m.scopes.lookup? id other) ∧
    (∀ stop m', Run.assignName name v m = .error stop m' ↔ m' = m ∧
      (stop = .failed ⟨.unbound name, none⟩ ∧ m.scopes.lookup? m.scope name = none ∨
        stop = .failed ⟨.constant name, none⟩ ∧
          ∃ owner old, m.scopes.Nearest name m.scope (some (owner, ⟨old, true⟩)))) ∧
    ∀ id constant stop m', Run.define id name v constant m = .error stop m' ↔ m' = m ∧
      stop = .failed ⟨.constant name, none⟩ ∧
        ∃ old, m.scopes.localBinding? id name = some ⟨old, true⟩ := by
  refine ⟨fun m' hm' => ?_, fun stop m' => ?_, fun id constant stop m' => ?_⟩
  · rw [Run.assignName_apply] at hm'
    -- a step that succeeds has changed a variable
    cases ht : m.scopes.assign m.scope name v with
    | error cause =>
      rw [ht] at hm'
      cases hm'
    | ok t =>
      rw [ht] at hm'
      cases hm'
      exact ⟨rfl, Scopes.lookup?_assign ht, fun id other hne => Scopes.lookup?_assign_ne ht hne id⟩
  · rw [Run.assignName_apply, Run.rebinding_eq_error, Scopes.lookup?, Option.map_eq_none_iff]
    simp only [Scopes.nearest_iff, Scopes.assign_eq_error]
    grind
  · rw [Run.define_apply, Run.rebinding_eq_error]
    simp only [Scopes.define_eq_error]
    grind

/-- A variable of the outermost scope, which the second scope inside it shadows; the first one is the
current scope. -/
def shadowed : Machine :=
  let outermost := Scopes.root.bind 0 "n" ⟨.null, false⟩
  { Machine.fresh {} (Ledger.start "sample" {}) (.dryRun "small" 64) fun n => ⟨n⟩ with
    scopes := ((outermost.child 0).child 0).bind 2 "n" ⟨.bool false, false⟩
    scope := 1 }

/-- The name is seen from two scopes, and a third one has a variable of its own. -/
theorem assignName_changes_one_variable_shadowed :
    ∃ m', Run.assignName "n" (.bool true) shadowed = .ok () m' ∧
      m'.scopes.lookup? 0 "n" = some (.bool true) ∧ m'.scopes.lookup? 1 "n" = some (.bool true) ∧
      m'.scopes.lookup? 2 "n" = some (.bool false) := by
  have hlookup := ((assignName_changes_one_variable shadowed "n" (.bool true)).1 _ rfl).2.1
  exact ⟨_, rfl, hlookup 0, hlookup 1, hlookup 2⟩

end BrailleScript
