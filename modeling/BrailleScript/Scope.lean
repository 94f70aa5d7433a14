import BrailleScript.Value

/-!
# Scopes

A scope binds names to values and has at most one parent; names are looked up outward.  All scopes
of a run stand in one list, to which each new scope is added, so a parent comes before its children
(`parent_lt`) and every walk outward ends.
-/

namespace BrailleScript

/-- What a name stands for. -/
structure Binding where
  value : Value
  constant : Bool

/-- The names that one block declares. -/
structure Scope where
  vars : Fields Binding := []
  parent : Option ScopeId := none

/-- All scopes; parents come first. -/
structure Scopes where
  all : Array Scope
  parent_lt : ∀ (i : ScopeId) (s : Scope) (p : ScopeId),
    all[i]? = some s → s.parent = some p → p < i

namespace Scopes

/-- One scope, without a parent. -/
def root : Scopes where
  all := #[{}]
  parent_lt := by
    intro i s p hs hp
    obtain ⟨h, rfl⟩ := Array.getElem?_eq_some_iff.1 hs
    simp at h
    subst h
    simp at hp

instance : Inhabited Scopes := ⟨root⟩

/-! ## Looking up -/

/-- The binding of a name in the scope itself. -/
def localBinding? (s : Scopes) (id : ScopeId) (name : String) : Option Binding :=
  s.all[id]?.bind (·.vars.get? name)

/-- The scope around a scope. -/
def parent? (s : Scopes) (id : ScopeId) : Option ScopeId :=
  s.all[id]?.bind (·.parent)

/-- Scopes lie in older ones, so a search from one to the next comes to an end. -/
theorem parent?_lt {s : Scopes} {id p : ScopeId} (h : s.parent? id = some p) : p < id := by
  simp only [parent?, Option.bind_eq_some_iff] at h
  obtain ⟨scope, hs, hp⟩ := h
  exact s.parent_lt id scope p hs hp

/-- The nearest binding of a name in at most `steps` scopes, with its scope. -/
def findFrom (s : Scopes) (name : String) : (steps : Nat) → ScopeId → Option (ScopeId × Binding)
  | 0, _ => none
  | steps + 1, id =>
    match s.localBinding? id name with
    | some b => some (id, b)
    | none =>
      match s.parent? id with
      | some p => findFrom s name steps p
      | none => none

/-- The nearest binding of a name and the scope that holds it. -/
def find? (s : Scopes) (id : ScopeId) (name : String) : Option (ScopeId × Binding) :=
  s.findFrom name (id + 1) id

/-- The scope that a name denotes a variable of. -/
def resolve? (s : Scopes) (id : ScopeId) (name : String) : Option ScopeId :=
  (s.find? id name).map (·.1)

/-- The value of a name. -/
def lookup? (s : Scopes) (id : ScopeId) (name : String) : Option Value :=
  (s.find? id name).map (·.2.value)

/-- The value of a name that must be bound. -/
def get (s : Scopes) (id : ScopeId) (name : String) : Except Cause Value :=
  match s.lookup? id name with
  | some v => .ok v
  | none => .error (.unbound name)

/-- Whether a scope itself declares a name. -/
def isLocal (s : Scopes) (id : ScopeId) (name : String) : Bool :=
  (s.localBinding? id name).isSome

/-- How many scopes enclose this one, in at most `steps` steps. -/
def depthFrom (s : Scopes) : (steps : Nat) → ScopeId → Nat
  | 0, _ => 0
  | steps + 1, id =>
    match s.parent? id with
    | some p => s.depthFrom steps p + 1
    | none => 0

/-- How many scopes enclose this one. -/
def depth (s : Scopes) (id : ScopeId) : Nat :=
  s.depthFrom (id + 1) id

/-! ## Changing -/

/-- Binds a name in a scope, whatever it was bound to. -/
def bind (s : Scopes) (id : ScopeId) (name : String) (b : Binding) : Scopes where
  all := s.all.modify id fun scope => { scope with vars := scope.vars.insert name b }
  parent_lt := by
    intro i scope p hs hp
    rw [Array.getElem?_modify] at hs
    split at hs
    · obtain ⟨old, hold, rfl⟩ := Option.map_eq_some_iff.1 hs
      exact s.parent_lt i old p hold hp
    · exact s.parent_lt i scope p hs hp

/-- Adds a scope inside the scope `id`; its place is `s.all.size`. -/
def child (s : Scopes) (id : ScopeId) : Scopes where
  -- a scope that does not exist is no parent
  all := s.all.push { parent := if id < s.all.size then some id else none }
  parent_lt := by
    intro i scope p hs hp
    rw [Array.getElem?_push] at hs
    split at hs
    · rename_i hi
      obtain rfl := Option.some.inj hs
      obtain ⟨hlt, rfl⟩ : id < s.all.size ∧ id = p := by simpa using hp
      exact hi ▸ hlt
    · exact s.parent_lt i scope p hs hp

/-- A scope may bind a name anew unless the name is a constant of that same scope. -/
def definable (s : Scopes) (id : ScopeId) (name : String) : Except Cause Unit :=
  match s.localBinding? id name with
  | some ⟨_, true⟩ => .error (.constant name)
  | _ => .ok ()

/-- Binds a name in a scope. -/
def define (s : Scopes) (id : ScopeId) (name : String) (b : Binding) : Except Cause Scopes :=
  match s.definable id name with
  | .ok () => .ok (s.bind id name b)
  | .error cause => .error cause

/-- The scope whose variable an assignment changes. -/
def assignable (s : Scopes) (id : ScopeId) (name : String) : Except Cause ScopeId :=
  match s.find? id name with
  -- a constant hides variables of the same name further out
  | some (_, ⟨_, true⟩) => .error (.constant name)
  | some (owner, _) => .ok owner
  | none => .error (.unbound name)

/-- Gives the nearest variable of that name a new value. -/
def assign (s : Scopes) (id : ScopeId) (name : String) (v : Value) : Except Cause Scopes :=
  match s.assignable id name with
  | .ok owner => .ok (s.bind owner name ⟨v, false⟩)
  | .error cause => .error cause

end Scopes

end BrailleScript
