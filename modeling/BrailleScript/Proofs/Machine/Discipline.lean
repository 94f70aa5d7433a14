import BrailleScript.Proofs.Machine.Definitions
import BrailleScript.Proofs.Machine.Surroundings

/-!
# Disciplined steps

A discipline says which functions a machine may hold, how a step may change the machine, and by
which stops it may end.  `Safe post x y` says of a step `x` that it keeps the discipline from every
machine with the given options and open calls, and that `y` does the same as `x` there.
With `x` for `y` this is a statement about one run; with a step at another bound, or with a guard in
it, it says that the other run is the same.

## Key results

- `Safe.bind`, `Safe.mapM`, `Safe.foldlM`: safe steps compose
- `Safe.inScope`, `Safe.inFrame`, `Safe.inReflection`, `Safe.observe`: steps with something done
  before and after them
- `Safe.define`, `Safe.assignName`, `Safe.make`, `Safe.yieldValue`: the steps that change a machine
-/

namespace BrailleScript

/-- The two machines differ in their heaps, counters, output and ledgers at most. -/
def Machine.Beside (m m' : Machine) : Prop :=
  ∃ heap ledger requests readings output stats,
    m' = { m with heap, ledger, requests, readings, output, stats }

/-- Which of the open calls collect what they yield, innermost first. -/
def Machine.collecting (m : Machine) : List Bool :=
  m.frames.map (·.yields.isSome)

/-- What steps have to keep. -/
structure Discipline where
  /-- The functions that a machine may hold. -/
  admits : FunctionDef Node → Prop
  /-- How a step may change a machine. -/
  keeps : Machine → Machine → Prop
  /-- The stops by which a step may end. -/
  stops : Stop → Prop
  failed : ∀ f, stops (.failed f)
  refl : ∀ m, keeps m m
  trans : ∀ {a b c}, keeps a b → keeps b c → keeps a c
  options : ∀ {a b}, keeps a b → b.options = a.options
  calls : ∀ {a b}, keeps a b → b.collecting = a.collecting
  beside : ∀ {a b}, a.Beside b → keeps a b
  child : ∀ m id, keeps m { m with scopes := m.scopes.child id }
  define : ∀ m id name v constant, m.scopes.definable id name = .ok () →
    keeps m { m with scopes := m.scopes.bind id name ⟨v, constant⟩ }
  assign : ∀ m owner name v, m.scopes.assignable m.scope name = .ok owner →
    keeps m { m with scopes := m.scopes.bind owner name ⟨v, false⟩ }
  /-- The open calls with which a value may be yielded. -/
  yields : List Bool → Prop
  yielded : ∀ m v, yields m.collecting → keeps m { m with
    frames := m.frames.modifyHead fun f => { f with yields := f.yields.map (·.push v) } }
  inScope : ∀ {m m'} id, keeps { m with scope := id } m' → keeps m { m' with scope := m.scope }
  inFrame : ∀ {m m'} frame stats, keeps { m with frames := frame :: m.frames, stats } m' →
    keeps m { m' with frames := m'.frames.tail }
  inReflection : ∀ {m m'}, keeps { m with reflectDepth := m.reflectDepth + 1 } m' →
    keeps m { m' with reflectDepth := m'.reflectDepth - 1 }

namespace Discipline

variable {α β : Type} {D : Discipline} {o : RunOptions} {calls : List Bool}

/-- A machine in which a step may begin. -/
structure Ready (D : Discipline) (o : RunOptions) (calls : List Bool) (m : Machine) : Prop where
  only : m.Only D.admits
  options : m.options = o
  calls : m.collecting = calls

/-- A step that began in `m` has kept the discipline at its end. -/
def Ends (D : Discipline) (post : α → Prop) (m : Machine) : Ending α → Prop
  | .ok a m' => m'.Only D.admits ∧ D.keeps m m' ∧ post a
  | .error stop m' => m'.Only D.admits ∧ D.keeps m m' ∧ D.stops stop

/-- The step `x` keeps the discipline and gives a result with `post`; `y` does the same as `x`. -/
def Safe (D : Discipline) (o : RunOptions) (calls : List Bool) (post : α → Prop) (x y : Run α) : Prop :=
  ∀ m, D.Ready o calls m → y m = x m ∧ D.Ends post m (x m)

/-- A value that the discipline admits. -/
abbrev Admitted (D : Discipline) (v : Value) : Prop := v.Only D.admits

/-- A machine that was ready and has been kept is ready. -/
theorem Ready.of_keeps {m m' : Machine} (h : D.Ready o calls m) (hk : D.keeps m m')
    (ho : m'.Only D.admits) : D.Ready o calls m' where
  only := ho
  options := (D.options hk).trans h.options
  calls := (D.calls hk).trans h.calls

/-- One more call is open. -/
theorem Ready.inFrame {m : Machine} (h : D.Ready o calls m) {frame : Frame} {collects : Bool}
    (hf : frame.Only D.admits) (hcollects : frame.yields.isSome = collects) (stats : RunStats) :
    D.Ready o (collects :: calls) { m with frames := frame :: m.frames, stats } where
  only := ⟨h.only.scopes, h.only.heap, List.forall_mem_cons.2 ⟨hf, h.only.frames⟩⟩
  options := h.options
  calls := by
    rw [← hcollects, ← h.calls]
    rfl

/-- It is ready in every scope. -/
theorem Ready.inScope {m : Machine} (h : D.Ready o calls m) (id : ScopeId) :
    D.Ready o calls { m with scope := id } :=
  ⟨⟨h.only.scopes, h.only.heap, h.only.frames⟩, h.options, h.calls⟩

namespace Ends

variable {p q : α → Prop} {m m' : Machine}

/-- What ends well after a change that keeps ends well from before it. -/
theorem trans (hk : D.keeps m m') {e : Ending α} (h : D.Ends p m' e) : D.Ends p m e := by
  cases e with
  | ok a m'' => exact ⟨h.1, D.trans hk h.2.1, h.2.2⟩
  | error stop m'' => exact ⟨h.1, D.trans hk h.2.1, h.2.2⟩

/-- A weaker description of the result may be given. -/
theorem mono (hp : ∀ a, p a → q a) {e : Ending α} (h : D.Ends p m e) :
    D.Ends q m e := by
  cases e with
  | ok a m'' => exact ⟨h.1, h.2.1, hp a h.2.2⟩
  | error stop m'' => exact h

/-- A step that only touches the heap, the counters, the output or the ledger. -/
theorem beside {a : α} (hm : m.Only D.admits) (hb : m.Beside m') (hh : m'.heap.Only D.admits)
    (hp : p a) : D.Ends p m (.ok a m') := by
  refine ⟨?_, D.beside hb, hp⟩
  obtain ⟨heap, ledger, requests, readings, output, stats, rfl⟩ := hb
  exact ⟨hm.scopes, hh, hm.frames⟩

end Ends

namespace Safe

variable {p q : α → Prop} {x y : Run α}

/-! ## Composition -/

/-- A step that ends well from every ready machine is safe. -/
theorem of_ends (h : ∀ m, D.Ready o calls m → D.Ends p m (x m)) : D.Safe o calls p x x :=
  fun m hm => ⟨rfl, h m hm⟩

/-- Its result may be described more weakly. -/
theorem mono (hp : ∀ a, p a → q a) (h : D.Safe o calls p x y) :
    D.Safe o calls q x y :=
  fun m hm => ⟨(h m hm).1, (h m hm).2.mono hp⟩

/-- A result that fits is safe. -/
theorem pure {a : α} (h : p a) : D.Safe o calls p (Pure.pure a) (Pure.pure a) :=
  of_ends fun m hm => ⟨hm.only, D.refl m, h⟩

/-- So is a stop that is allowed. -/
theorem throw {stop : Stop} (h : D.stops stop) :
    D.Safe o calls p (throwThe Stop stop) (throwThe Stop stop) :=
  of_ends fun m hm => ⟨hm.only, D.refl m, h⟩

/-- So is a failure. -/
theorem fail (c : Cause) : D.Safe o calls p (Run.fail c) (Run.fail c) :=
  throw (D.failed _)

/-- So is a sequence of safe steps. -/
theorem bind {r : β → Prop} {f g : α → Run β} (h : D.Safe o calls p x y)
    (hf : ∀ a, p a → D.Safe o calls r (f a) (g a)) :
    D.Safe o calls r (x >>= f) (y >>= g) := by
  intro m hm
  obtain ⟨hy, hx⟩ := h m hm
  cases hxm : x m with
  | ok a m' =>
    rw [hxm] at hx hy
    rw [Run.bind_of_ok hxm, Run.bind_of_ok hy]
    -- what follows begins in the machine that the first step left
    obtain ⟨heq, hend⟩ := hf a hx.2.2 m' (hm.of_keeps hx.2.1 hx.1)
    exact ⟨heq, hend.trans hx.2.1⟩
  | error stop m' =>
    rw [hxm] at hx hy
    rw [Run.bind_of_error hxm, Run.bind_of_error hy]
    exact ⟨rfl, hx⟩

/-- A step that looks at the machine before it goes on. -/
theorem get_bind {f g : Machine → Run α}
    (h : ∀ m, D.Ready o calls m → D.Safe o calls p (f m) (g m)) :
    D.Safe o calls p (get >>= f) (get >>= g) :=
  fun m hm => h m hm m hm

/-- So is a step for each entry of a list. -/
theorem mapM {r : β → Prop} {f g : α → Run β} {l : List α}
    (h : ∀ a ∈ l, D.Safe o calls r (f a) (g a)) :
    D.Safe o calls (fun bs => ∀ b ∈ bs, r b) (l.mapM f) (l.mapM g) := by
  induction l with
  | nil => exact .pure fun b hb => absurd hb List.not_mem_nil
  | cons a l ih =>
    rw [List.mapM_cons, List.mapM_cons]
    refine .bind (h a (.head _)) fun b hb => ?_
    refine .bind (ih fun a' ha' => h a' (.tail _ ha')) fun bs hbs => ?_
    exact .pure (List.forall_mem_cons.2 ⟨hb, hbs⟩)

/-- So are steps that each take the result of the one before. -/
theorem foldlM {r : β → Prop} {f g : β → α → Run β} {l : List α} {b : β} (hb : r b)
    (h : ∀ b a, r b → a ∈ l → D.Safe o calls r (f b a) (g b a)) :
    D.Safe o calls r (l.foldlM f b) (l.foldlM g b) := by
  induction l generalizing b with
  | nil => exact .pure hb
  | cons a l ih =>
    rw [List.foldlM_cons, List.foldlM_cons]
    refine .bind (h b a hb (.head _)) fun b' hb' => ?_
    exact ih hb' fun c a' hc ha' => h c a' hc (.tail _ ha')

/-- So is a result or a cause. -/
theorem ofExcept {e : Except Cause α} (h : ∀ a, e = .ok a → p a) :
    D.Safe o calls p (Run.ofExcept e) (Run.ofExcept e) := by
  cases e with
  | ok a => exact .pure (h a rfl)
  | error c => exact .fail c

/-- So is a step at a position. -/
theorem located (pos : Pos) (h : D.Safe o calls p x y) :
    D.Safe o calls p (Run.located pos x) (Run.located pos y) := by
  intro m hm
  obtain ⟨hy, hx⟩ := h m hm
  unfold Run.located
  rw [hy]
  refine ⟨rfl, ?_⟩
  cases hxm : x m with
  | ok a m' =>
    rw [hxm] at hx
    exact hx
  | error stop m' =>
    rw [hxm] at hx
    -- a failure is told its position, which changes nothing but its text
    cases stop with
    | failed f => exact ⟨hx.1, hx.2.1, D.failed _⟩
    | conflict | exhausted => exact hx

/-! ## Scopes, frames and reflection -/

/-- So is a step in a scope. -/
theorem inScope (id : ScopeId) (h : D.Safe o calls p x y) :
    D.Safe o calls p (Run.inScope id x) (Run.inScope id y) := by
  intro m hm
  -- the scope is no part of what the rules look at
  obtain ⟨hy, hx⟩ := h _ (hm.inScope id)
  unfold Run.inScope
  dsimp only
  rw [hy]
  refine ⟨rfl, ?_⟩
  cases hxm : x { m with scope := id } with
  | ok a m' =>
    rw [hxm] at hx
    exact ⟨⟨hx.1.scopes, hx.1.heap, hx.1.frames⟩, D.inScope id hx.2.1, hx.2.2⟩
  | error stop m' =>
    rw [hxm] at hx
    exact ⟨⟨hx.1.scopes, hx.1.heap, hx.1.frames⟩, D.inScope id hx.2.1, hx.2.2⟩

/-- A step inside a call gives its result and admitted yields. -/
theorem inFrame {frame : Frame} {collects : Bool} (hf : frame.Only D.admits)
    (hcollects : frame.yields.isSome = collects) (h : D.Safe o (collects :: calls) p x y) :
    D.Safe o calls (fun e => p e.1 ∧ ∀ v ∈ e.2, D.Admitted v) (Run.inFrame frame x)
      (Run.inFrame frame y) := by
  intro m hm
  unfold Run.inFrame
  dsimp only
  obtain ⟨hy, hx⟩ := h _ (hm.inFrame hf hcollects
    { m.stats with deepestCall := Nat.max m.stats.deepestCall (frame :: m.frames).length })
  rw [hy]
  refine ⟨rfl, ?_⟩
  have htail {m' : Machine} (ho : m'.Only D.admits) :
      Machine.Only D.admits { m' with frames := m'.frames.tail } :=
    ⟨ho.scopes, ho.heap, fun f hf => ho.frames f (List.mem_of_mem_tail hf)⟩
  split
  · rename_i a m' hxm
    rw [hxm] at hx
    refine ⟨htail hx.1, D.inFrame frame _ hx.2.1, hx.2.2, fun v hv => ?_⟩
    -- the yields are those of the innermost frame, if it has any
    cases hh : m'.frames.head?.bind (·.yields) with
    | none =>
      rw [hh] at hv
      exact absurd hv (Array.not_mem_empty v)
    | some vs =>
      rw [hh] at hv
      obtain ⟨f, hfm, hvs⟩ := Option.bind_eq_some_iff.1 hh
      exact (hx.1.frames f (List.mem_of_mem_head? hfm)).2 vs hvs v hv
  · rename_i stop m' hxm
    rw [hxm] at hx
    exact ⟨htail hx.1, D.inFrame frame _ hx.2.1, hx.2.2⟩

/-- So is a step inside of a reflected program. -/
theorem inReflection (h : D.Safe o calls p x y) :
    D.Safe o calls p (Run.inReflection x) (Run.inReflection y) := by
  intro m hm
  have hready : D.Ready o calls { m with reflectDepth := m.reflectDepth + 1 } :=
    ⟨⟨hm.only.scopes, hm.only.heap, hm.only.frames⟩, hm.options, hm.calls⟩
  obtain ⟨hy, hx⟩ := h _ hready
  unfold Run.inReflection
  rw [hy]
  refine ⟨rfl, ?_⟩
  -- the depth is set back, however the step ends
  cases hxm : x { m with reflectDepth := m.reflectDepth + 1 } with
  | ok a m' =>
    rw [hxm] at hx
    exact ⟨⟨hx.1.scopes, hx.1.heap, hx.1.frames⟩, D.inReflection hx.2.1, hx.2.2⟩
  | error stop m' =>
    rw [hxm] at hx
    exact ⟨⟨hx.1.scopes, hx.1.heap, hx.1.frames⟩, D.inReflection hx.2.1, hx.2.2⟩

/-! ## Variables -/

/-- A new scope under another one is safe. -/
theorem childOf (id : ScopeId) :
    D.Safe o calls (fun _ => True) (Run.childOf id) (Run.childOf id) :=
  of_ends fun m hm =>
    ⟨⟨hm.only.scopes.child id, hm.only.heap, hm.only.frames⟩, D.child m id, trivial⟩

/-- So is one under the current scope. -/
theorem newScope : D.Safe o calls (fun _ => True) Run.newScope Run.newScope :=
  .get_bind fun m _ => .childOf m.scope

/-- So is the definition of a name with an admitted value. -/
theorem define (id : ScopeId) (name : String) {v : Value} (constant : Bool) (hv : D.Admitted v) :
    D.Safe o calls (fun _ => True) (Run.define id name v constant)
      (Run.define id name v constant) := by
  refine of_ends fun m hm => ?_
  show D.Ends _ m ((Run.ofExcept (m.scopes.definable id name) >>= _) m)
  -- a name that cannot be defined is a failure, and changes nothing
  cases hd : m.scopes.definable id name with
  | ok u =>
    exact ⟨⟨hm.only.scopes.bind id name hv, hm.only.heap, hm.only.frames⟩,
      D.define m id name v constant hd, trivial⟩
  | error c => exact ⟨hm.only, D.refl m, D.failed _⟩

/-- So is its declaration. -/
theorem declare (name : String) {v : Value} (constant : Bool) (hv : D.Admitted v) :
    D.Safe o calls (fun _ => True) (Run.declare name v constant) (Run.declare name v constant) :=
  .get_bind fun m _ => .define m.scope name constant hv

/-- So is an assignment to it. -/
theorem assignName (name : String) {v : Value} (hv : D.Admitted v) :
    D.Safe o calls (fun _ => True) (Run.assignName name v) (Run.assignName name v) := by
  refine of_ends fun m hm => ?_
  show D.Ends _ m ((Run.ofExcept (m.scopes.assignable m.scope name) >>= _) m)
  cases ha : m.scopes.assignable m.scope name with
  | ok owner =>
    exact ⟨⟨hm.only.scopes.bind owner name hv, hm.only.heap, hm.only.frames⟩,
      D.assign m owner name v ha, trivial⟩
  | error c => exact ⟨hm.only, D.refl m, D.failed _⟩

/-- The value of a name is admitted. -/
theorem lookup (name : String) :
    D.Safe o calls D.Admitted (Run.lookup name) (Run.lookup name) :=
  .get_bind fun _ hm => .ofExcept fun _ hv => hm.only.scopes.get hv

/-! ## Values and the heap -/

/-- A step that reads something off the machine. -/
theorem read (f : Machine → α) :
    D.Safe o calls (fun _ => True) (do return f (← get)) (do return f (← get)) :=
  .get_bind fun _ _ => .pure trivial

/-- Serializing is safe. -/
theorem json (v : Value) : D.Safe o calls (fun _ => True) (Run.json v) (Run.json v) :=
  .get_bind fun _ _ => .ofExcept fun _ _ => trivial

/-- So is comparing. -/
theorem equal (v w : Value) : D.Safe o calls (fun _ => True) (Run.equal v w) (Run.equal v w) :=
  .get_bind fun _ _ => .ofExcept fun _ _ => trivial

/-- So is making a part of the heap that is admitted. -/
theorem make {f : Heap → α × Heap}
    (h : ∀ heap : Heap, heap.Only D.admits → p (f heap).1 ∧ (f heap).2.Only D.admits) :
    D.Safe o calls p (Run.make f) (Run.make f) := by
  refine of_ends fun m hm => ?_
  obtain ⟨hp, hh⟩ := h m.heap hm.only.heap
  exact .beside hm.only ⟨_, _, _, _, _, _, rfl⟩ hh hp

/-- So is changing the heap into an admitted one. -/
theorem update {f : Heap → Heap} (h : ∀ heap : Heap, heap.Only D.admits → (f heap).Only D.admits) :
    D.Safe o calls (fun _ => True) (Run.update f) (Run.update f) :=
  of_ends fun m hm =>
    .beside hm.only ⟨f m.heap, _, _, _, _, _, rfl⟩ (h m.heap hm.only.heap) trivial

/-- A new array of admitted items is admitted. -/
theorem newArray {items : Array Value} (h : ∀ v ∈ items, D.Admitted v) :
    D.Safe o calls D.Admitted (Run.newArray items) (Run.newArray items) :=
  .make fun _ hh => ⟨trivial, hh.newArray h⟩

/-- So is a new map of admitted values. -/
theorem newMap {entries : Fields Value} (h : ∀ v ∈ entries.values, D.Admitted v) :
    D.Safe o calls D.Admitted (Run.newMap entries) (Run.newMap entries) :=
  .make fun _ hh => ⟨trivial, hh.newMap h⟩

/-- So is a function of an admitted definition. -/
theorem newFunction {f : Closure} (h : f.Only D.admits) :
    D.Safe o calls D.Admitted (Run.newFunction f) (Run.newFunction f) :=
  .make fun _ hh => ⟨h, hh⟩

/-- So is a value made of JSON. -/
theorem ofJson (j : Json) : D.Safe o calls D.Admitted (Run.ofJson j) (Run.ofJson j) :=
  .make fun _ hh => hh.ofJson j

/-! ## Counters, output and requests -/

/-- Counting is safe. -/
theorem count (f : RunStats → RunStats) :
    D.Safe o calls (fun _ => True) (Run.count f) (Run.count f) :=
  of_ends fun m hm => .beside hm.only ⟨_, _, _, _, _, f m.stats, rfl⟩ hm.only.heap trivial

/-- So is printing. -/
theorem printLine (line : String) :
    D.Safe o calls (fun _ => True) (Run.printLine line) (Run.printLine line) :=
  of_ends fun m hm => .beside hm.only ⟨_, _, _, _, m.output.push line, _, rfl⟩ hm.only.heap trivial

/-- So is asking the backend. -/
theorem ask (f : Backend → Nat → Except String α) :
    D.Safe o calls (fun _ => True) (Run.ask f) (Run.ask f) :=
  of_ends fun m hm => .beside hm.only ⟨_, _, m.requests + 1, _, _, _, rfl⟩ hm.only.heap trivial

/-- So is reading the clock. -/
theorem now : D.Safe o calls (fun _ => True) Run.now Run.now :=
  of_ends fun m hm => .beside hm.only ⟨_, _, _, m.readings + 1, _, _, rfl⟩ hm.only.heap trivial

/-- So is recording in the ledger. -/
theorem record (f : Ledger → Instant → α × Ledger) :
    D.Safe o calls (fun _ => True) (Run.record f) (Run.record f) :=
  .bind .now fun t _ => of_ends fun m hm =>
    .beside hm.only ⟨_, (f m.ledger t).2, _, _, _, _, rfl⟩ hm.only.heap trivial

/-! ## Calls -/

/-- The current object holds admitted definitions. -/
theorem currentBinding :
    D.Safe o calls (fun b => ∀ b' ∈ b, b'.Only D.admits) Run.currentBinding
      Run.currentBinding := by
  refine .get_bind fun m hm => .pure fun b hb => ?_
  obtain ⟨f, hf, hb⟩ := List.exists_of_findSome?_eq_some hb
  exact (hm.only.frames f hf).1 b hb

/-- Yielding an admitted value is safe where the rules allow yields. -/
theorem yieldValue {v : Value} (hyields : D.yields calls) (hv : D.Admitted v) :
    D.Safe o calls (fun _ => True) (Run.yieldValue v) (Run.yieldValue v) := by
  refine .get_bind fun m₀ _ => ?_
  split
  · refine of_ends fun m hm =>
      ⟨⟨hm.only.scopes, hm.only.heap, ?_⟩, D.yielded m v (hm.calls ▸ hyields), trivial⟩
    have hframes := hm.only.frames
    show ∀ f ∈ m.frames.modifyHead _, f.Only D.admits
    -- the value joins those of the innermost frame, and the other frames stay
    cases hm : m.frames with
    | nil => exact fun f hf => absurd hf List.not_mem_nil
    | cons frame rest =>
      rw [hm, List.forall_mem_cons] at hframes
      refine List.forall_mem_cons.2 ⟨⟨hframes.1.1, fun vs hvs w hw => ?_⟩, hframes.2⟩
      obtain ⟨old, hold, rfl⟩ := Option.map_eq_some_iff.1 hvs
      rcases Array.mem_push.1 hw with hw | rfl
      · exact hframes.1.2 old hold w hw
      · exact hv
  · exact .fail _

/-! ## The ledger -/

/-- Closing a call is safe when the call is. -/
theorem closing (started : Instant) (id : Nat) (c : Call) {x y : Run (α × Json)}
    (h : D.Safe o calls (fun e => p e.1) x y) :
    D.Safe o calls p (Run.closing started id c x) (Run.closing started id c y) := by
  intro m hm
  obtain ⟨hy, hx⟩ := h m hm
  unfold Run.closing
  rw [hy]
  refine ⟨rfl, ?_⟩
  -- the call is closed in the machine that its executor left
  have hclose {m' : Machine} (hk : D.keeps m m') (ho : m'.Only D.admits) {z : Run α}
      (hz : D.Safe o calls p z z) : D.Ends p m (z m') :=
    (hz m' (hm.of_keeps hk ho)).2.trans hk
  cases hxm : x m with
  | ok e m' =>
    rw [hxm] at hx
    refine hclose hx.2.1 hx.1 (z := do Run.closeCall started id c e.2; return e.1) ?_
    exact .bind (.record _) fun _ _ => .pure hx.2.2
  | error stop m' =>
    rw [hxm] at hx
    cases stop with
    | failed f =>
      refine hclose hx.2.1 hx.1
        (z := do Run.closeFailed started id f; throwThe Stop (.failed f)) ?_
      exact .bind (.record _) fun _ _ => .throw (D.failed f)
    | conflict | exhausted => exact hx

/-- So is observing it, when what is replayed fits. -/
theorem observe (c : Call) {replay : Json → α} {x y : Run (α × Json)}
    (hr : ∀ j, p (replay j)) (h : D.Safe o calls (fun e => p e.1) x y) :
    D.Safe o calls p (Run.observe c replay x) (Run.observe c replay y) := by
  refine .bind (.record _) fun opening _ => ?_
  cases opening with
  | hit output node => exact .pure (hr output)
  | pending id => exact .bind .now fun started _ => .closing started id c h

end Safe

end Discipline

end BrailleScript
