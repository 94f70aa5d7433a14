import BrailleScript.Machine.Eval
import BrailleScript.Proofs.Fields

/-!
# The functions a machine holds

Function definitions reach a machine by way of closures and classes, which stand in variables, in
containers and in the frames of open calls.  `Only P` says that all of them satisfy `P`; it is
stated for every kind of thing that can hold one.

## Key results

- `Class.Only.findMethod`: a method that is found is one of those
- `Scopes.Only.get`, `Scopes.Only.bind`, `Scopes.Only.child`: variables
- `Heap.Only.newArray`, `Heap.Only.setEntry`, `Heap.Only.ofJson`: containers
- `Machine.Only.fresh`: a machine at its start holds no function definition
-/

namespace BrailleScript

variable {P : FunctionDef Node → Prop}

/-! ## Values -/

/-- All methods of the class and of the classes it extends satisfy `P`. -/
def Class.Only (P : FunctionDef Node → Prop) : Class → Prop
  | .mk _ _ methods none _ => ∀ d ∈ methods, P d
  | .mk _ _ methods (some parent) _ => (∀ d ∈ methods, P d) ∧ parent.Only P

namespace Class.Only

/-- The methods of a class have the property. -/
theorem methods {c : Class} (h : c.Only P) {d : FunctionDef Node} (hd : d ∈ c.methods) : P d := by
  match c with
  | .mk _ _ _ none _ => exact h d hd
  | .mk _ _ _ (some _) _ => exact h.1 d hd

/-- So does its parent. -/
theorem parent {c p : Class} (h : c.Only P) (hp : c.parent = some p) : p.Only P := by
  match c with
  | .mk _ _ _ none _ => exact nomatch hp
  | .mk _ _ _ (some _) _ =>
    obtain rfl := Option.some.inj hp
    exact h.2

/-- A class has it when its methods and its parent do. -/
theorem mk {id scope : Nat} {name : String} {methods : List (FunctionDef Node)}
    {parent : Option Class} (hm : ∀ d ∈ methods, P d) (hp : ∀ p ∈ parent, p.Only P) :
    (Class.mk id name methods parent scope).Only P := by
  cases parent with
  | none => exact hm
  | some p => exact ⟨hm, hp p rfl⟩

/-- A property of all definitions is one of every class. -/
theorem of_forall (hP : ∀ d, P d) (c : Class) : c.Only P := by
  match c with
  | .mk _ _ _ none _ => exact fun d _ => hP d
  | .mk _ _ _ (some p) _ => exact ⟨fun d _ => hP d, of_forall hP p⟩

/-- A method that is found has it, with the class that owns it. -/
theorem findMethod {c owner : Class} {name : String} {d : FunctionDef Node} (h : c.Only P)
    (hf : c.findMethod name = some (d, owner)) : P d ∧ owner.Only P := by
  -- a class finds its own method, or what its parent finds
  have hlast {c : Class} (hc : c.Only P) (hl : lastNamed name c.methods = some d) : P d :=
    hc.methods (List.mem_reverse.1 (List.mem_of_find?_eq_some hl))
  match c with
  | .mk _ _ methods none _ =>
    simp only [Class.findMethod, Option.map_eq_some_iff, Prod.mk.injEq] at hf
    obtain ⟨d', hl, rfl, rfl⟩ := hf
    exact ⟨hlast h hl, h⟩
  | .mk _ _ methods (some parent) _ =>
    rw [Class.findMethod] at hf
    split at hf
    · rename_i d' hl
      cases hf
      exact ⟨hlast h hl, h⟩
    · exact findMethod h.2 hf

end Class.Only

/-- The methods of the binding's classes satisfy `P`. -/
def MethodBinding.Only (P : FunctionDef Node → Prop) (b : MethodBinding) : Prop :=
  b.receiverClass.Only P ∧ b.owner.Only P

/-- The definition of the function and the methods of its binding satisfy `P`. -/
def Closure.Only (P : FunctionDef Node → Prop) (f : Closure) : Prop :=
  P f.definition ∧ ∀ b ∈ f.binding, b.Only P

/-- The function, or the methods of the class, satisfy `P`. -/
def Value.Only (P : FunctionDef Node → Prop) : Value → Prop
  | .function _ f => f.Only P
  | .classValue c | .object _ c => c.Only P
  | _ => True

/-- The value a statement ends with satisfies `P`. -/
def Flow.Only (P : FunctionDef Node → Prop) (flow : Flow) : Prop :=
  flow.value.Only P

/-- So has the closure that binds it. -/
theorem Closure.Only.bindMethod {c owner : Class} {d : FunctionDef Node} {ref : Nat}
    (hc : c.Only P) (hd : P d) (ho : owner.Only P) : (Run.bindMethod ref c d owner).Only P := by
  refine ⟨hd, ?_⟩
  rintro b ⟨⟩
  exact ⟨hc, ho⟩

/-- A property of all definitions is one of every value. -/
theorem Value.Only.of_forall (hP : ∀ d, P d) (v : Value) : v.Only P := by
  cases v with
  | function id f => exact ⟨hP _, fun b _ => ⟨.of_forall hP _, .of_forall hP _⟩⟩
  | classValue c | object _ c => exact Class.Only.of_forall hP c
  | _ => trivial

/-- A missing value is null, which holds no definition. -/
theorem Value.Only.getD {o : Option Value} (h : ∀ v ∈ o, v.Only P) : (o.getD .null).Only P := by
  cases o with
  | none => trivial
  | some v => exact h v rfl

/-! ## Scopes -/

namespace Scopes

/-- A new scope has no names and leaves the others theirs. -/
theorem localBinding?_child (s : Scopes) (id i : ScopeId) (name : String) :
    (s.child id).localBinding? i name = s.localBinding? i name := by
  unfold localBinding? child
  dsimp only
  rw [Array.getElem?_push]
  split
  · -- the new scope is empty, and was none before
    rename_i hi
    subst hi
    simp [Fields.get?]
  · rfl

/-- Binding a name changes what that name finds there. -/
theorem localBinding?_bind (s : Scopes) (id i : ScopeId) (name other : String) (b : Binding) :
    (s.bind id name b).localBinding? i other =
      if id = i ∧ name = other ∧ i < s.all.size then some b else s.localBinding? i other := by
  unfold localBinding? bind
  dsimp only
  rw [Array.getElem?_modify]
  -- only in the scope that is changed
  by_cases hi : id = i
  · subst hi
    cases hs : s.all[id]? with
    | none =>
      have hle : ¬id < s.all.size := fun hlt => by simp [Array.getElem?_eq_getElem hlt] at hs
      simp [hle]
    | some scope =>
      have hlt : id < s.all.size := (Array.getElem?_eq_some_iff.1 hs).1
      simp [Fields.get?_insert, hlt]
  · simp [hi]

/-- The values of all variables satisfy `P`. -/
def Only (P : FunctionDef Node → Prop) (s : Scopes) : Prop :=
  ∀ i name b, s.localBinding? i name = some b → b.value.Only P

namespace Only

variable {s : Scopes}

/-- A new scope holds no definition. -/
theorem child (h : s.Only P) (id : ScopeId) : (s.child id).Only P := by
  intro i name b hb
  rw [localBinding?_child] at hb
  exact h i name b hb

/-- A binding of a value with the property keeps it. -/
theorem bind (h : s.Only P) (id : ScopeId) (name : String) {b : Binding} (hb : b.value.Only P) :
    (s.bind id name b).Only P := by
  intro i other b' hb'
  rw [localBinding?_bind] at hb'
  split at hb'
  · cases hb'
    exact hb
  · exact h i other b' hb'

/-- A value that is found has it. -/
theorem findFrom (h : s.Only P) {name : String} {steps : Nat} {id owner : ScopeId} {b : Binding}
    (hf : s.findFrom name steps id = some (owner, b)) : b.value.Only P := by
  -- the search goes up one scope at a time
  induction steps generalizing id with
  | zero => exact nomatch hf
  | succ steps ih =>
    rw [Scopes.findFrom] at hf
    split at hf
    · rename_i b' hb
      cases hf
      exact h _ _ _ hb
    · split at hf
      · exact ih hf
      · exact nomatch hf

/-- So has the value of a name. -/
theorem get (h : s.Only P) {id : ScopeId} {name : String} {v : Value}
    (hg : s.get id name = .ok v) : v.Only P := by
  simp only [Scopes.get, lookup?] at hg
  cases hf : s.find? id name with
  | none =>
    rw [hf] at hg
    exact nomatch hg
  | some found =>
    rw [hf] at hg
    cases hg
    exact h.findFrom hf

end Only

end Scopes

/-! ## The heap -/

namespace Heap

section Contents

variable {α : Type} {h : Heap} {c : Container} {v w : Value}

/-- A place of a store after it grew: the new item, or what was there. -/
theorem getD_push (xs : Array α) (x default : α) (i : Nat) :
    (xs.push x)[i]?.getD default = if i = xs.size then x else xs[i]?.getD default := by
  rw [Array.getElem?_push]
  split <;> rfl

/-- A place of a store after a change at `j`: the item as changed, or what was there. -/
theorem getD_modify (xs : Array α) (f : α → α) (default : α) (i j : Nat) :
    (xs.modify j f)[i]?.getD default = f (xs[i]?.getD default) ∨
      (xs.modify j f)[i]?.getD default = xs[i]?.getD default := by
  rw [Array.getElem?_modify]
  split
  · cases xs[i]? with
    | none => exact .inr rfl
    | some x => exact .inl rfl
  · exact .inr rfl

/-- What is held after a new array is among its items or was held before. -/
theorem mem_contents_newArray {items : Array Value} (hw : w ∈ (h.newArray items).2.contents c) :
    w ∈ items ∨ w ∈ h.contents c := by
  cases c with
  | array ref =>
    simp only [contents, Heap.items, newArray, getD_push] at hw
    split at hw
    · exact .inl (Array.mem_toList_iff.1 hw)
    · exact .inr hw
  | map | object => exact .inr hw

/-- After a new map it is among its values. -/
theorem mem_contents_newMap {entries : Fields Value} (hw : w ∈ (h.newMap entries).2.contents c) :
    w ∈ entries.values ∨ w ∈ h.contents c := by
  cases c with
  | map ref =>
    simp only [contents, Heap.entries, newMap, getD_push] at hw
    split at hw
    · exact .inl hw
    · exact .inr hw
  | array | object => exact .inr hw

/-- A new instance holds nothing. -/
theorem mem_contents_newInstance (hw : w ∈ h.newInstance.2.contents c) : w ∈ h.contents c := by
  cases c with
  | object ref =>
    simp only [contents, Heap.fields, newInstance, getD_push] at hw
    split at hw
    · exact absurd hw List.not_mem_nil
    · exact hw
  | array | map => exact hw

/-- After an item was pushed it is that item. -/
theorem mem_contents_pushItem {ref : Nat} (hw : w ∈ (h.pushItem ref v).contents c) :
    w = v ∨ w ∈ h.contents c := by
  cases c with
  | array i =>
    simp only [contents, Heap.items, pushItem] at hw ⊢
    -- the array is the one that was changed, or another
    rcases getD_modify h.arrays (·.push v) #[] i ref with he | he
    · rw [he, Array.mem_toList_iff, Array.mem_push] at hw
      exact hw.symm.imp_right Array.mem_toList_iff.2
    · rw [he] at hw
      exact .inr hw
  | map | object => exact .inr hw

/-- After an item was set it is the value. -/
theorem mem_contents_setItem {ref index : Nat} (hw : w ∈ (h.setItem ref index v).contents c) :
    w = v ∨ w ∈ h.contents c := by
  cases c with
  | array i =>
    simp only [contents, Heap.items, setItem] at hw ⊢
    -- the array is the one that was changed, or another
    rcases getD_modify h.arrays (·.setIfInBounds index v) #[] i ref with he | he
    · rw [he, Array.mem_toList_iff] at hw
      exact (Array.mem_or_eq_of_mem_setIfInBounds hw).symm.imp_right Array.mem_toList_iff.2
    · rw [he] at hw
      exact .inr hw
  | map | object => exact .inr hw

/-- After an insertion it is the inserted one. -/
theorem mem_values_insert {key : String} {fields : Fields Value}
    (hw : w ∈ (fields.insert key v).values) : w = v ∨ w ∈ fields.values := by
  obtain ⟨entry, he, rfl⟩ := List.mem_map.1 hw
  rcases Fields.mem_insert he with rfl | he
  · exact .inl rfl
  · exact .inr (List.mem_map.2 ⟨entry, he, rfl⟩)

/-- After an entry was set it is the value. -/
theorem mem_contents_setEntry {ref : Nat} {key : String}
    (hw : w ∈ (h.setEntry ref key v).contents c) : w = v ∨ w ∈ h.contents c := by
  cases c with
  | map i =>
    simp only [contents, Heap.entries, setEntry] at hw ⊢
    -- the map is the one that was changed, or another
    rcases getD_modify h.maps (·.insert key v) [] i ref with he | he
    · rw [he] at hw
      exact mem_values_insert hw
    · rw [he] at hw
      exact .inr hw
  | array | object => exact .inr hw

/-- So it is after a field was set. -/
theorem mem_contents_setField {ref : Nat} {name : String}
    (hw : w ∈ (h.setField ref name v).contents c) : w = v ∨ w ∈ h.contents c := by
  cases c with
  | object i =>
    simp only [contents, Heap.fields, setField] at hw ⊢
    rcases getD_modify h.objects (·.insert name v) [] i ref with he | he
    · rw [he] at hw
      exact mem_values_insert hw
    · rw [he] at hw
      exact .inr hw
  | array | map => exact .inr hw

end Contents

/-- The contents of all containers satisfy `P`. -/
def Only (P : FunctionDef Node → Prop) (h : Heap) : Prop :=
  ∀ c, ∀ v ∈ h.contents c, v.Only P

namespace Only

variable {h : Heap} {v : Value}

/-- The items of an array have the property. -/
theorem items (hh : h.Only P) {ref : Nat} (hv : v ∈ h.items ref) : v.Only P :=
  hh (.array ref) v (Array.mem_toList_iff.2 hv)

/-- So have the entries of a map. -/
theorem entries (hh : h.Only P) {ref : Nat} {key : String} (hv : (key, v) ∈ h.entries ref) :
    v.Only P :=
  hh (.map ref) v (List.mem_map.2 ⟨_, hv, rfl⟩)

/-- So have the fields of an object. -/
theorem fields (hh : h.Only P) {ref : Nat} {name : String} (hv : (name, v) ∈ h.fields ref) :
    v.Only P :=
  hh (.object ref) v (List.mem_map.2 ⟨_, hv, rfl⟩)

/-- A new array keeps it when its items have it. -/
theorem newArray (hh : h.Only P) {items : Array Value} (hi : ∀ v ∈ items, v.Only P) :
    (h.newArray items).2.Only P :=
  fun c w hw => (mem_contents_newArray hw).elim (hi w) (hh c w)

/-- A new map does when its values have it. -/
theorem newMap (hh : h.Only P) {entries : Fields Value} (he : ∀ v ∈ entries.values, v.Only P) :
    (h.newMap entries).2.Only P :=
  fun c w hw => (mem_contents_newMap hw).elim (he w) (hh c w)

/-- A new instance does. -/
theorem newInstance (hh : h.Only P) : h.newInstance.2.Only P :=
  fun c w hw => hh c w (mem_contents_newInstance hw)

/-- Pushing a value with the property keeps it. -/
theorem pushItem (hh : h.Only P) (ref : Nat) (hv : v.Only P) : (h.pushItem ref v).Only P :=
  fun c w hw => (mem_contents_pushItem hw).elim (· ▸ hv) (hh c w)

/-- So does setting an item to one. -/
theorem setItem (hh : h.Only P) (ref index : Nat) (hv : v.Only P) :
    (h.setItem ref index v).Only P :=
  fun c w hw => (mem_contents_setItem hw).elim (· ▸ hv) (hh c w)

/-- So does setting an entry to one. -/
theorem setEntry (hh : h.Only P) (ref : Nat) (key : String) (hv : v.Only P) :
    (h.setEntry ref key v).Only P :=
  fun c w hw => (mem_contents_setEntry hw).elim (· ▸ hv) (hh c w)

/-- So does setting a field to one. -/
theorem setField (hh : h.Only P) (ref : Nat) (name : String) (hv : v.Only P) :
    (h.setField ref name v).Only P :=
  fun c w hw => (mem_contents_setField hw).elim (· ▸ hv) (hh c w)

/-- Entries that have the property are values that do. -/
theorem values_ofList {entries : List (String × Value)} (he : ∀ e ∈ entries, e.2.Only P) :
    ∀ v ∈ (Fields.ofList entries).values, v.Only P := by
  -- entry by entry, from fields whose values have it
  have hfold (l : List (String × Value)) (fields : Fields Value)
      (hl : ∀ e ∈ l, e.2.Only P) (hf : ∀ v ∈ fields.values, v.Only P) :
      ∀ v ∈ (l.foldl (fun fields e => fields.insert e.1 e.2) fields).values, v.Only P := by
    induction l generalizing fields with
    | nil => exact hf
    | cons e rest ih =>
      refine ih _ (fun e' he' => hl e' (.tail _ he')) fun w hw => ?_
      rcases mem_values_insert hw with rfl | hw
      · exact hl e (.head _)
      · exact hf w hw
  exact hfold entries [] he fun v hv => absurd hv List.not_mem_nil

mutual

/-- A value made from JSON is data. -/
theorem ofJson {g : Heap} (hg : g.Only P) (j : Json) : (g.ofJson j).1.Only P ∧ (g.ofJson j).2.Only P := by
  -- containers are made behind what they hold
  match j with
  | .null | .bool _ | .int _ | .float _ | .text _ => exact ⟨trivial, hg⟩
  | .array items =>
    obtain ⟨hv, hg'⟩ := ofJsonItems hg items
    exact ⟨trivial, hg'.newArray fun v h => hv v (List.mem_toArray.1 h)⟩
  | .object fields =>
    obtain ⟨he, hg'⟩ := ofJsonFields hg fields
    exact ⟨trivial, hg'.newMap (values_ofList he)⟩

/-- Items that are made of JSON hold no definition. -/
theorem ofJsonItems {g : Heap} (hg : g.Only P) (items : List Json) :
    (∀ v ∈ (g.ofJsonItems items).1, v.Only P) ∧ (g.ofJsonItems items).2.Only P := by
  match items with
  | [] => exact ⟨fun v hv => absurd hv List.not_mem_nil, hg⟩
  | j :: rest =>
    obtain ⟨hj, hg'⟩ := ofJson hg j
    obtain ⟨hrest, hg''⟩ := ofJsonItems hg' rest
    exact ⟨List.forall_mem_cons.2 ⟨hj, hrest⟩, hg''⟩

/-- Nor do fields. -/
theorem ofJsonFields {g : Heap} (hg : g.Only P) (fields : List (String × Json)) :
    (∀ e ∈ (g.ofJsonFields fields).1, e.2.Only P) ∧ (g.ofJsonFields fields).2.Only P := by
  match fields with
  | [] => exact ⟨fun e he => absurd he List.not_mem_nil, hg⟩
  | (k, j) :: rest =>
    obtain ⟨hj, hg'⟩ := ofJson hg j
    obtain ⟨hrest, hg''⟩ := ofJsonFields hg' rest
    exact ⟨List.forall_mem_cons.2 ⟨hj, hrest⟩, hg''⟩

end

end Only

end Heap

/-! ## Machines -/

/-- The binding of the call and the values it yielded satisfy `P`. -/
def Frame.Only (P : FunctionDef Node → Prop) (f : Frame) : Prop :=
  (∀ b ∈ f.binding, b.Only P) ∧ ∀ vs ∈ f.yields, ∀ v ∈ vs, v.Only P

/-- Every function that the machine holds satisfies `P`. -/
structure Machine.Only (P : FunctionDef Node → Prop) (m : Machine) : Prop where
  scopes : m.scopes.Only P
  heap : m.heap.Only P
  frames : ∀ f ∈ m.frames, f.Only P

namespace Machine.Only

/-- A property of all definitions is one of every machine. -/
theorem of_forall (hP : ∀ d, P d) (m : Machine) : m.Only P where
  scopes _ _ _ _ := .of_forall hP _
  heap _ _ _ := .of_forall hP _
  frames _ _ :=
    ⟨fun _ _ => ⟨.of_forall hP _, .of_forall hP _⟩, fun _ _ _ _ => .of_forall hP _⟩

/-- The variables of a machine at its start are built-in functions. -/
theorem fresh (options : RunOptions) (ledger : Ledger) (backend : Backend)
    (clock : Nat → Instant) : (Machine.fresh options ledger backend clock).Only P where
  scopes := by
    have hfold (bs : List Builtin) (s : Scopes) (hs : s.Only P) :
        (bs.foldl (fun s b => s.bind 0 b.name ⟨.builtin b, false⟩) s).Only P := by
      induction bs generalizing s with
      | nil => exact hs
      | cons b rest ih => exact ih _ (hs.bind 0 b.name trivial)
    refine hfold _ _ fun i name b hb => ?_
    -- the root scope binds nothing
    match i with
    | 0 | _ + 1 => simp [Scopes.root, Scopes.localBinding?, Fields.get?] at hb
  heap c v hv := by
    cases c <;>
      simp [Machine.fresh, Heap.contents, Heap.items, Heap.entries, Heap.fields, Fields.values] at hv
  frames f hf := absurd hf List.not_mem_nil

end Machine.Only

end BrailleScript
