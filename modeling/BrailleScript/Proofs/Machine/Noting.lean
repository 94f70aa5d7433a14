import BrailleScript.Proofs.Machine.Breaks
import BrailleScript.Proofs.Machine.Yielding

/-!
# What calls give

A call gives the array of the values that its own statements have yielded, or the value of its body
if there are none.  The machine gathers these values in the call that is innermost when they are
yielded.  To say which values a call has yielded itself, the run is repeated with steps that note
values beside the machine (`Noted`): a statement of a body notes what it yields, and the expressions
in it, with everything that they call, note nothing.  A call then gives what its body has noted.  In a
program without reflection this is the run itself.

## Key results

- `Noted.Tells`: a noting step does what a step does, and notes what the innermost call gathers
- `Noted.Tells.execStep`: one step of a statement
- `Noted.steps`, `Noted.run_eq`: the run in which calls give what their bodies have noted is the run
-/

namespace BrailleScript

/-- A step that may note values beside the machine. -/
abbrev Noted := EStateM Stop (Machine × List Value)

namespace Noted

open Run

variable {α β : Type}

/-! ## Noting steps -/

/-- How a step ends, with some notes beside it. -/
def beside (notes : List Value) : Ending α → EStateM.Result Stop (Machine × List Value) α
  | .ok a m => .ok a (m, notes)
  | .error stop m => .error stop (m, notes)

/-- A step that notes nothing. -/
def lift (x : Run α) : Noted α := fun s => beside s.2 (x s.1)

/-- Yields a value and notes it. -/
def yieldValue (v : Value) : Noted Unit := do
  lift (Run.yieldValue v)
  modify fun s => (s.1, s.2 ++ [v])

/-- Runs a step in another scope and comes back, however the step ends. -/
def inScope (id : ScopeId) (x : Noted α) : Noted α := fun s =>
  match x ({ s.1 with scope := id }, s.2) with
  | .ok a s' => .ok a ({ s'.1 with scope := s.1.scope }, s'.2)
  | .error stop s' => .error stop ({ s'.1 with scope := s.1.scope }, s'.2)

/-- Runs a step from no notes and gives what it has noted. -/
def noting (x : Noted α) : Run (α × List Value) := fun m =>
  match x (m, []) with
  | .ok a s => .ok (a, s.2) s.1
  | .error stop s => .error stop s.1

/-! ## Noting statements -/

/-- Statements in a row, with their own yields noted. -/
def sequence (exec : Node → Noted Flow) (last : Value) : List Node → Noted Flow
  | [] => return .normal last
  | s :: rest => do
    match ← exec s with
    | .normal v => sequence exec v rest
    | flow => return flow

/-- A block of them, in a scope of its own. -/
def block (exec : Node → Noted Flow) (stmts : List Node) : Noted Flow := do
  inScope (← lift newScope) (sequence exec .null stmts)

/-- What follows a round of a loop. -/
def afterRound (flow : Flow) (again : Noted Flow) : Noted Flow :=
  match flow with
  | .broken => return .normal .null
  | .returned v => return .returned v
  | .normal _ | .continued => again

/-- A loop with a condition. -/
def whileLoop (condition : Run Bool) (body : Noted Flow) : (rounds : Nat) → Noted Flow
  | 0 => throw Stop.exhausted
  | rounds + 1 => do
    if ← lift condition then
      lift countIteration
      afterRound (← body) (whileLoop condition body rounds)
    else return .normal .null

/-- A loop with a cap, which fails where the loop of a run does. -/
def cappedLoop (cap : Nat) (body : Noted Flow) : (rounds : Nat) → Noted Flow
  | 0 => lift (Run.cappedLoop cap (return .normal .null) 0)
  | rounds + 1 => do
    lift countIteration
    afterRound (← body) (cappedLoop cap body rounds)

/-- A loop over items. -/
def forEach (var : String) (body : Noted Flow) : List Value → Noted Flow
  | [] => return .normal .null
  | v :: rest => do
    lift countIteration
    let scope ← lift (itemScope var v)
    afterRound (← inScope scope body) (forEach var body rest)

/-- A try statement: what was noted before a failure stays noted. -/
def tryCatch (body : Noted Flow) (catchName : Option String) (handler : Noted Flow) : Noted Flow :=
  fun s =>
    match body s with
    | .error (.failed f) s' =>
      if f.cause.kind.isCatchable then
        (do inScope (← lift (handlerScope catchName f)) handler) s'
      else .error (.failed f) s'
    | r => r

/-- The body of a switch, which takes the breaks inside. -/
def switchBody (exec : Node → Noted Flow) (stmts : List Node) : Noted Flow := do
  match ← block exec stmts with
  | .broken => return .normal .null
  | flow => return flow

/-- The cases of a switch, up to the first that is equal. -/
def switchCases (eval : Node → Run Value) (exec : Node → Noted Flow) (subject : Value)
    (default : Option (List Node)) : List (SwitchCase Node) → Noted Flow
  | [] =>
    match default with
    | some stmts => switchBody exec stmts
    | none => return .normal .null
  | c :: rest => do
    if ← lift (equal (← lift (eval c.value)) subject) then switchBody exec c.body
    else switchCases eval exec subject default rest

/-- One step of an execution; a statement without statements inside it notes nothing, if it yields
nothing. -/
def execStep (r : Steps) (exec : Node → Noted Flow) (node : Node) : Noted Flow :=
  let counted : Noted Unit := lift (count fun s => { s with statements := s.statements + 1 })
  match node with
  | .yieldValue value => do
    counted
    yieldValue (← lift (r.eval value))
    return .normal .null
  | .block stmts => do
    counted
    block exec stmts
  | .ifElse condition thenBranch elseBranch => do
    counted
    if ← lift (truthy (← lift (r.eval condition))) then exec thenBranch
    else
      match elseBranch with
      | some n => exec n
      | none => return .normal .null
  | .whileLoop condition body => do
    counted
    whileLoop (do truthy (← r.eval condition)) (exec body) r.rounds
  | .loop body => do
    counted
    let cap := (← lift get).options.maxLoopIterations
    cappedLoop cap (exec body) cap
  | .forEach var iterable body => do
    counted
    let v ← lift (r.eval iterable)
    forEach var (exec body) (← lift (iterationItems v))
  | .tryCatch body catchName handler => do
    counted
    tryCatch (exec body) catchName (exec handler)
  | .switch subject cases default => do
    counted
    let v ← lift (r.eval subject)
    switchCases r.eval exec v default cases
  | node => lift (Run.execStep r node)

/-- Runs the body of a function. -/
def functionBody (r : Steps) (exec : Node → Noted Flow) : FunctionBody Node → Noted Value
  | .expr e => lift (r.eval e)
  | .block stmts => do return (← sequence exec .null stmts).value

/-- A new array of what a call has yielded, behind all other arrays. -/
def collect (own : List Value) : Run Value := fun m =>
  .ok (.array m.heap.arrays.size)
    { m with heap := { m.heap with arrays := m.heap.arrays.push own.toArray } }

/-- Runs the body of a function in its call; the call gives the array of what the body has noted, or
else the value of the body. -/
def given (f : Closure) (body : Noted Value) : Run Value := do
  let ((v, own), _) ← inFrame (Entering.frame f) (noting body)
  if own.isEmpty then return v else collect own

/-- Runs a function on its arguments. -/
def enterFunction (r : Steps) (exec : Node → Noted Flow) (f : Closure) (args : List Value) :
    Run Value := do
  let scope ← childOf f.scope
  bindParams scope f.definition.params args
  given f (inScope scope (functionBody r exec f.definition.body))

/-- One step of an evaluation, with another way to enter functions. -/
def evalStep (enter : Closure → List Value → Run Value) (r : Steps) (node : Node) : Run Value :=
  match node with
  | .call callee args pos => do
    let f ← r.eval callee
    let argv ← args.mapM r.eval
    located pos (Entering.callValue enter f argv)
  | n => Run.evalStep r n

mutual

/-- Executes a statement of a program. -/
def exec : (bound : Nat) → Node → Run Flow
  | 0, _ => throw Stop.exhausted
  | n + 1, node => Run.execStep ⟨n, exec n, eval n, call n⟩ node

/-- Executes a statement of a function. -/
def own : (bound : Nat) → Node → Noted Flow
  | 0, _ => throw Stop.exhausted
  | n + 1, node => execStep ⟨n, exec n, eval n, call n⟩ (own n) node

/-- Evaluates an expression. -/
def eval : (bound : Nat) → Node → Run Value
  | 0, _ => throw Stop.exhausted
  | n + 1, node =>
    evalStep (enterFunction ⟨n, exec n, eval n, call n⟩ (own n)) ⟨n, exec n, eval n, call n⟩ node

/-- Calls a value. -/
def call : (bound : Nat) → Value → List Value → Run Value
  | 0, _, _ => throw Stop.exhausted
  | n + 1, callee, args =>
    Entering.callValue (enterFunction ⟨n, exec n, eval n, call n⟩ (own n)) callee args

end

/-- Runs the statements of a program. -/
def run (bound : Nat) (program : Node) : Run Flow :=
  Run.sequence (exec bound) .null program.statements

/-- Runs the body of a function on its arguments, in a call of its own: the value of the body, and the
values that its own statements have yielded. -/
def body (bound : Nat) (f : Closure) (args : List Value) : Run (Value × List Value) := do
  let scope ← childOf f.scope
  bindParams scope f.definition.params args
  let (result, _) ← inFrame (Entering.frame f) (noting (inScope scope
    (functionBody ⟨bound, exec bound, eval bound, call bound⟩ (own bound) f.definition.body)))
  return result

/-- What a call gives after its body has ended: the value of the body if nothing was yielded, and
otherwise a new array of just what was yielded. -/
structure Gives (ended : Machine) (value : Value) (own : List Value) (v : Value) (last : Machine) :
    Prop where
  of_nil : own = [] → v = value ∧ last.heap = ended.heap
  of_yielded : own ≠ [] →
    ∃ ref, v = .array ref ∧ ended.heap.arrays.size ≤ ref ∧ (last.heap.items ref).toList = own ∧
      ∀ other < ended.heap.arrays.size, last.heap.items other = ended.heap.items other

/-! ## What is noted -/

/-- The call after it has yielded further values, if it collects them. -/
def gather (more : List Value) (f : Frame) : Frame :=
  { f with yields := f.yields.map (· ++ more.toArray) }

/-- Without values a frame gathers nothing. -/
theorem gather_nil (f : Frame) : gather [] f = f := by
  simp [gather]

/-- Values are gathered one after the other. -/
theorem gather_append (more further : List Value) (f : Frame) :
    gather (more ++ further) f = gather further (gather more f) := by
  simp [gather, Function.comp_def, Array.append_assoc]

/-- Between the two machines the innermost call has yielded the values, and no other call any. -/
structure Gathered (m m' : Machine) (more : List Value) : Prop where
  frames : m'.frames = m.frames.modifyHead (gather more)
  collects : more ≠ [] → m.collecting.head? = some true

namespace Gathered

variable {a b c m m' : Machine} {more further : List Value}

/-- Where the frames stay as they are, nothing was gathered. -/
theorem nothing (h : m'.frames = m.frames) : Gathered m m' [] := by
  refine ⟨?_, absurd rfl⟩
  have hid : gather [] = id := funext gather_nil
  rw [h, hid]
  cases m.frames <;> rfl

/-- What was gathered first comes first. -/
theorem trans (h : Gathered a b more) (h' : Gathered b c further)
    (hcalls : b.collecting = a.collecting) : Gathered a c (more ++ further) := by
  constructor
  case frames =>
    rw [h'.frames, h.frames]
    cases a.frames with
    | nil => rfl
    | cons f fs => simp [gather_append]
  case collects =>
    intro hne
    -- a call that has noted something on either side collects values
    by_cases hmore : more = []
    · rw [← hcalls]
      exact h'.collects (by simpa [hmore] using hne)
    · exact h.collects hmore

/-- A yield is gathered by the innermost frame, if it collects. -/
theorem yielded {v : Value} {f : Frame} {fs : List Frame} (hframes : m.frames = f :: fs)
    (hcollects : f.yields.isSome = true) :
    Gathered m { m with
      frames := m.frames.modifyHead fun f => { f with yields := f.yields.map (·.push v) } } [v] := by
  refine ⟨?_, fun _ => ?_⟩
  · simp [hframes, gather]
  · simp [Machine.collecting, hframes, hcollects]

end Gathered

open Discipline (sealing)

variable {o : RunOptions} {calls : List Bool} {post p q : α → Prop}

/-- The noting step does what the step does and notes what the innermost call yields. -/
structure Tells (o : RunOptions) (calls : List Bool) (post : α → Prop) (x : Run α) (y : Noted α) :
    Prop where
  safe : (sealing 0).Safe o calls post x x
  noted : ∀ m, (sealing 0).Ready o calls m → ∀ notes, ∃ more,
    y (m, notes) = beside (notes ++ more) (x m) ∧ Gathered m (Ending.machine (x m)) more

/-- A sequence goes on with a result. -/
theorem bind_of_ok {y : Noted α} {g : α → Noted β} {s s' : Machine × List Value} {a : α}
    (h : y s = .ok a s') : (y >>= g) s = g a s' := by
  show EStateM.bind y g s = _
  simp only [EStateM.bind, h]

/-- It ends with a stop. -/
theorem bind_of_error {y : Noted α} {g : α → Noted β} {s s' : Machine × List Value} {stop : Stop}
    (h : y s = .error stop s') : (y >>= g) s = .error stop s' := by
  show EStateM.bind y g s = _
  simp only [EStateM.bind, h]

/-- A value is yielded to the innermost call if that collects values. -/
theorem yieldValue_cases (v : Value) (m : Machine) :
    (∃ f fs, m.frames = f :: fs ∧ f.yields.isSome = true ∧ Run.yieldValue v m = .ok () { m with
      frames := m.frames.modifyHead fun f => { f with yields := f.yields.map (·.push v) } }) ∨
    Run.yieldValue v m = .error (.failed ⟨.yieldOutside, none⟩) m := by
  have hget : (get : Run Machine) m = .ok m m := rfl
  rw [Run.yieldValue, Run.bind_of_ok hget]
  -- without a frame, or in one that collects nothing, the yield fails
  cases hframes : m.frames with
  | nil => exact .inr rfl
  | cons f fs =>
    obtain ⟨binding, _ | _⟩ := f
    · exact .inr rfl
    · refine .inl ⟨_, fs, rfl, rfl, ?_⟩
      show EStateM.Result.ok () { m with frames := m.frames.modifyHead _ } = _
      rw [hframes]

namespace Tells

variable {x : Run α} {y : Noted α}

/-- What leaves all open calls as they are notes nothing. -/
theorem lift {x' : Run α} (h : (sealing calls.length).Safe o calls post x x') :
    Tells o calls post x (lift x') := by
  constructor
  case safe =>
    refine .of_ends fun m hm => ?_
    -- the frames are restored up to the number of open calls, and those are all of them
    have hend := (h m ⟨hm.only, hm.options, hm.calls⟩).2
    cases hx : x m <;> rw [hx] at hend <;>
      exact ⟨hend.1, hend.2.1.mono (Nat.zero_le _), hend.2.2⟩
  case noted =>
    intro m hm notes
    obtain ⟨heq, hend⟩ := h m ⟨hm.only, hm.options, hm.calls⟩
    refine ⟨[], ?_, .nothing ?_⟩
    · rw [List.append_nil, ← heq]
      rfl
    · have hlength : m.frames.length ≤ calls.length := by
        rw [← hm.calls]
        simp [Machine.collecting]
      cases hx : x m <;> rw [hx] at hend <;> exact hend.2.1.frames_eq hlength

/-- A result tells nothing more than itself. -/
theorem pure {a : α} (h : post a) : Tells o calls post (Pure.pure a) (Pure.pure a) where
  safe := .pure h
  noted m _ notes := ⟨[], by rw [List.append_nil]; rfl, .nothing rfl⟩

/-- Running out of depth tells nothing. -/
theorem exhausted :
    Tells o calls post (throwThe Stop Stop.exhausted) (throwThe Stop Stop.exhausted) where
  safe := .throw trivial
  noted m _ notes := ⟨[], by rw [List.append_nil]; rfl, .nothing rfl⟩

/-- A sequence tells what its parts do. -/
theorem bind {x : Run α} {y : Noted α} {f : α → Run β} {g : α → Noted β} {p : α → Prop}
    {q : β → Prop} (h : Tells o calls p x y) (hf : ∀ a, p a → Tells o calls q (f a) (g a)) :
    Tells o calls q (x >>= f) (y >>= g) := by
  constructor
  case safe => exact h.safe.bind fun a ha => (hf a ha).safe
  case noted =>
    intro m hm notes
    obtain ⟨more, hy, hmore⟩ := h.noted m hm notes
    have hend := (h.safe m hm).2
    cases hx : x m with
    | ok a m' =>
      rw [hx] at hend hy hmore
      -- what follows begins in the machine that the first step left, with its notes
      have hm' := hm.of_keeps hend.2.1 hend.1
      obtain ⟨further, hg, hfurther⟩ := (hf a hend.2.2).noted m' hm' (notes ++ more)
      rw [Run.bind_of_ok hx, bind_of_ok hy]
      refine ⟨more ++ further, ?_, hmore.trans hfurther (hm'.calls.trans hm.calls.symm)⟩
      rw [← List.append_assoc]
      exact hg
    | error stop m' =>
      rw [hx] at hy hmore
      rw [Run.bind_of_error hx, bind_of_error hy]
      exact ⟨more, rfl, hmore⟩

/-- A step that looks at the machine before it goes on. -/
theorem get_bind {f : Machine → Run α} {g : Machine → Noted α}
    (h : ∀ m, Tells o calls post (f m) (g m)) :
    Tells o calls post (get >>= f) (Noted.lift get >>= g) :=
  .bind (.lift (.of_ends fun m hm => ⟨hm.only, (sealing _).refl m, trivial⟩)) fun m _ => h m

/-- A step tells the same in any scope. -/
theorem inScope (id : ScopeId) (h : Tells o calls post x y) :
    Tells o calls post (Run.inScope id x) (Noted.inScope id y) := by
  constructor
  case safe => exact h.safe.inScope id
  case noted =>
    intro m hm notes
    obtain ⟨more, hy, hmore⟩ := h.noted _ (hm.inScope id) notes
    refine ⟨more, ?_⟩
    unfold Noted.inScope Run.inScope
    dsimp only
    rw [hy]
    -- the scope is set back on both sides
    cases hx : x { m with scope := id } with
    | ok a m' =>
      rw [hx] at hmore
      exact ⟨rfl, hmore.frames, hmore.collects⟩
    | error stop m' =>
      rw [hx] at hmore
      exact ⟨rfl, hmore.frames, hmore.collects⟩

/-- A value that is yielded is noted if there is a call that collects it. -/
theorem yieldValue {v : Value} (hv : (sealing 0).Admitted v) :
    Tells o calls (fun _ => True) (Run.yieldValue v) (Noted.yieldValue v) := by
  constructor
  case safe =>
    refine .yieldValue ?_ hv
    cases calls with
    | nil => exact .inl rfl
    | cons => exact .inr (Nat.succ_pos _)
  case noted =>
    intro m _ notes
    -- what is noted is the value, or nothing where the yield fails
    rcases yieldValue_cases v m with ⟨f, fs, hframes, hcollects, hyield⟩ | hyield
    · refine ⟨[v], ?_, hyield ▸ .yielded hframes hcollects⟩
      have hlift : Noted.lift (Run.yieldValue v) (m, notes) = beside notes (Run.yieldValue v m) := rfl
      rw [hyield] at hlift ⊢
      exact bind_of_ok hlift
    · refine ⟨[], ?_, hyield ▸ .nothing rfl⟩
      have hlift : Noted.lift (Run.yieldValue v) (m, notes) = beside notes (Run.yieldValue v m) := rfl
      rw [hyield] at hlift ⊢
      rw [List.append_nil]
      exact bind_of_error hlift

/-! ### Statements -/

/-- A statement tells its own yields, and gives a flow without reflecting functions. -/
abbrev Flows (o : RunOptions) (calls : List Bool) (x : Run Flow) (y : Noted Flow) : Prop :=
  Tells o calls (Flow.Only FunctionDef.Unreflecting) x y

variable {x x' : Run Flow} {y y' : Noted Flow} {eval eval' : Node → Run Value}
  {exec : Node → Run Flow} {own : Node → Noted Flow}

/-- Statements in a row tell theirs. -/
theorem sequence {stmts : List Node} {last : Value} (hlast : last.Only FunctionDef.Unreflecting)
    (h : ∀ n ∈ stmts, Flows o calls (exec n) (own n)) :
    Flows o calls (Run.sequence exec last stmts) (Noted.sequence own last stmts) := by
  induction stmts generalizing last with
  | nil => exact .pure hlast
  | cons n rest ih =>
    refine .bind (h n (.head _)) fun flow hflow => ?_
    cases flow with
    | normal v => exact ih hflow fun n hn => h n (.tail _ hn)
    | returned | broken | continued => exact .pure hflow

/-- So does a block. -/
theorem block {stmts : List Node} (h : ∀ n ∈ stmts, Flows o calls (exec n) (own n)) :
    Flows o calls (Run.block exec stmts) (Noted.block own stmts) :=
  .bind (.lift .newScope) fun id _ => .inScope id (.sequence trivial h)

/-- So does what follows a round of a loop. -/
theorem afterRound {flow : Flow} (hflow : flow.Only FunctionDef.Unreflecting)
    (h : Flows o calls x y) : Flows o calls (Run.afterRound flow x) (Noted.afterRound flow y) := by
  cases flow with
  | normal | continued => exact h
  | broken => exact .pure trivial
  | returned v => exact .pure hflow

/-- So does a loop with a condition. -/
theorem whileLoop {condition condition' : Run Bool}
    (hc : (sealing calls.length).Safe o calls (fun _ => True) condition condition')
    (h : Flows o calls x y) (rounds : Nat) :
    Flows o calls (Run.whileLoop condition x rounds) (Noted.whileLoop condition' y rounds) := by
  induction rounds with
  | zero => exact .exhausted
  | succ rounds ih =>
    refine .bind (.lift hc) fun again _ => ?_
    cases again with
    | true => exact .bind (.lift (.count _)) fun _ _ => .bind h fun _ hflow => .afterRound hflow ih
    | false => exact .pure trivial

/-- So does a loop with a cap. -/
theorem cappedLoop (cap : Nat) (h : Flows o calls x y) (rounds : Nat) :
    Flows o calls (Run.cappedLoop cap x rounds) (Noted.cappedLoop cap y rounds) := by
  induction rounds with
  | zero => exact .lift (.bind (.printLine _) fun _ _ => .pure trivial)
  | succ rounds ih =>
    exact .bind (.lift (.count _)) fun _ _ => .bind h fun _ hflow => .afterRound hflow ih

/-- So does a loop over items. -/
theorem forEach (var : String) (h : Flows o calls x y) {items : List Value}
    (hitems : ∀ v ∈ items, v.Only FunctionDef.Unreflecting) :
    Flows o calls (Run.forEach var x items) (Noted.forEach var y items) := by
  induction items with
  | nil => exact .pure trivial
  | cons v rest ih =>
    rw [List.forall_mem_cons] at hitems
    -- the scope of an item tells nothing
    have hscope : (sealing calls.length).Safe o calls (fun _ => True) (itemScope var v)
        (itemScope var v) :=
      .bind .newScope fun _ _ => .bind (.define _ _ _ hitems.1) fun _ _ => .pure trivial
    rw [forEach_cons]
    exact .bind (.lift (.count _)) fun _ _ => .bind (.lift hscope) fun scope _ =>
      .bind (.inScope scope h) fun _ hflow => .afterRound hflow (ih hitems.2)

/-- So does a handler. -/
theorem handle (catchName : Option String) (f : Failure) (h : Flows o calls x y) :
    Flows o calls (Run.handle catchName x f)
      (Noted.lift (handlerScope catchName f) >>= fun scope => Noted.inScope scope y) := by
  -- nor does that of a handler
  have hscope : (sealing calls.length).Safe o calls (fun _ => True) (handlerScope catchName f)
      (handlerScope catchName f) := by
    refine .bind .newScope fun scope _ => ?_
    cases catchName with
    | none => exact .pure trivial
    | some name => exact .bind (.define _ _ _ trivial) fun _ _ => .pure trivial
  rw [handle_eq]
  exact .bind (.lift hscope) fun scope _ => .inScope scope h

/-- So does a try statement. -/
theorem tryCatch (catchName : Option String) (h : Flows o calls x y) (h' : Flows o calls x' y') :
    Flows o calls (Run.tryCatch x catchName x') (Noted.tryCatch y catchName y') := by
  constructor
  case safe => exact .tryCatch catchName h.safe h'.safe
  case noted =>
    intro m hm notes
    obtain ⟨more, hy, hmore⟩ := h.noted m hm notes
    have hend := (h.safe m hm).2
    unfold Noted.tryCatch Run.tryCatch
    rw [hy]
    cases hx : x m with
    | ok flow m' =>
      rw [hx] at hmore
      exact ⟨more, rfl, hmore⟩
    | error stop m' =>
      rw [hx] at hend hmore
      cases stop with
      | conflict | exhausted => exact ⟨more, rfl, hmore⟩
      | failed f =>
        dsimp only [beside]
        split
        · -- the handler begins in the machine that the failure left, with the notes so far
          have hm' := hm.of_keeps hend.2.1 hend.1
          obtain ⟨further, hg, hfurther⟩ := (h'.handle catchName f).noted m' hm' (notes ++ more)
          refine ⟨more ++ further, ?_, hmore.trans hfurther (hm'.calls.trans hm.calls.symm)⟩
          rw [← List.append_assoc]
          exact hg
        · exact ⟨more, rfl, hmore⟩

/-- So does the body of a switch. -/
theorem switchBody {stmts : List Node} (h : ∀ n ∈ stmts, Flows o calls (exec n) (own n)) :
    Flows o calls (Run.switchBody exec stmts) (Noted.switchBody own stmts) := by
  refine .bind (.block h) fun flow hflow => ?_
  cases flow with
  | broken => exact .pure trivial
  | normal | returned | continued => exact .pure hflow

/-- So do its cases. -/
theorem switchCases {r : Steps} (subject : Value) {default : Option (List Node)}
    {cases : List (SwitchCase Node)}
    (hd : ∀ n ∈ default.getD [], Flows o calls (r.exec n) (own n))
    (hv : ∀ k ∈ cases, (sealing calls.length).Safe o calls (sealing calls.length).Admitted
      (r.eval k.value) (eval' k.value))
    (hb : ∀ k ∈ cases, ∀ n ∈ k.body, Flows o calls (r.exec n) (own n)) :
    Flows o calls (Run.switchCases r subject default cases)
      (Noted.switchCases eval' own subject default cases) := by
  induction cases with
  | nil =>
    cases default with
    | none => exact .pure trivial
    | some stmts => exact .switchBody hd
  | cons k rest ih =>
    rw [List.forall_mem_cons] at hv hb
    refine .bind (.lift hv.1) fun v _ => .bind (.lift (.equal _ _)) fun same _ => ?_
    cases same with
    | true => exact .switchBody hb.1
    | false => exact ih hv.2 hb.2

/-- One more step of a statement. -/
theorem execStep {bound : Nat} {r : Steps} (hagree : Yielding.Agree o calls.length bound r)
    (hown : ∀ n, n.wellFormed = true → n.Unreflecting →
      Flows o calls (BrailleScript.exec bound n) (own n))
    {n : Node} (hwf : n.wellFormed = true) (hfree : n.Unreflecting) :
    Flows o calls (BrailleScript.exec (bound + 1) n) (Noted.execStep r own n) := by
  have hvalue {c : Node} (hc : c ∈ n.evaluated) :
      (sealing calls.length).Safe o calls (sealing calls.length).Admitted
        (BrailleScript.eval bound c) (r.eval c) := by
    obtain ⟨hexpr, hcwf⟩ := Node.wellFormed_evaluated hwf hc
    exact hagree.eval calls c (Nat.le_refl _) hexpr hcwf (hfree.part (.of_evaluated hc))
  have hinside {c : Node} (hc : c ∈ n.executed) :
      Flows o calls (BrailleScript.exec bound c) (own c) :=
    hown c (Node.wellFormed_executed hwf hc) (hfree.part (.of_executed hc))
  -- a statement with no yield and no statement inside notes nothing of its own
  have hleaf (hyield : n.isYield = false) (hexecuted : n.executed = []) :
      Flows o calls (BrailleScript.exec (bound + 1) n) (Noted.lift (Run.execStep r n)) := by
    have hnone : n.containsYield = false := by
      rw [Node.containsYield_executed hwf, hyield, hexecuted]
      rfl
    exact .lift (hagree.execStep (Nat.le_refl _) hwf hfree (.of_not_containsYield hnone))
  have hcounted {f : RunStats → RunStats} :
      Tells o calls (fun _ => True) (Run.count f) (Noted.lift (Run.count f)) :=
    .lift (.count f)
  cases n with
  | yieldValue value =>
    exact .bind hcounted fun _ _ => .bind (.lift (hvalue (.head _))) fun _ hv =>
      .bind (.yieldValue hv) fun _ _ => .pure trivial
  | block stmts => exact .bind hcounted fun _ _ => .block fun _ hn => hinside hn
  | ifElse condition thenBranch elseBranch =>
    refine .bind hcounted fun _ _ => .bind (.lift (hvalue (.head _))) fun _ _ => ?_
    refine .bind (.lift (.truthy _)) fun holds _ => ?_
    cases holds with
    | true => exact hinside (.head _)
    | false =>
      cases elseBranch with
      | none => exact .pure trivial
      | some n => exact hinside (.tail _ (.head _))
  | whileLoop condition body =>
    refine .bind hcounted fun _ _ => ?_
    dsimp only
    rw [hagree.rounds]
    refine .whileLoop ?_ (hinside (.head _)) _
    exact .bind (hvalue (.head _)) fun _ _ => .truthy _
  | loop body =>
    exact .bind hcounted fun _ _ => .get_bind fun _ => .cappedLoop _ (hinside (.head _)) _
  | forEach var iterable body =>
    exact .bind hcounted fun _ _ => .bind (.lift (hvalue (.head _))) fun _ _ =>
      .bind (.lift (.iterationItems _)) fun _ hi => .forEach var (hinside (.head _)) hi
  | tryCatch body catchName handler =>
    exact .bind hcounted fun _ _ =>
      .tryCatch catchName (hinside (.head _)) (hinside (.tail _ (.head _)))
  | switch subject cases default =>
    refine .bind hcounted fun _ _ => .bind (.lift (hvalue (.head _))) fun v _ => ?_
    refine .switchCases v (fun n hn => ?_) (fun k hk => ?_) fun k hk n hn => ?_
    · exact hinside (List.mem_append_right _ hn)
    · exact hvalue (.tail _ (List.mem_map.2 ⟨k, hk, rfl⟩))
    · exact hinside (List.mem_append_left _ (List.mem_flatMap.2 ⟨k, hk, hn⟩))
  | _ => exact hleaf rfl rfl

/-- The body of a function notes what its call gathers. -/
theorem functionBody {bound : Nat} {r : Steps} (hagree : Yielding.Agree o calls.length bound r)
    (hown : ∀ n, n.wellFormed = true → n.Unreflecting →
      Flows o calls (BrailleScript.exec bound n) (own n))
    {d : FunctionDef Node} (hd : d.Unreflecting) :
    Tells o calls (Value.Only FunctionDef.Unreflecting)
      (Run.functionBody (Yielding.stepsWithin bound) d.body) (Noted.functionBody r own d.body) := by
  obtain ⟨hwf, hfree⟩ := hd
  -- only statements can yield, and an expression notes nothing
  cases hbody : d.body with
  | expr e =>
    rw [hbody] at hwf hfree
    simp only [FunctionBody.wellFormed, Bool.and_eq_true] at hwf
    exact .lift (hagree.eval calls e (Nat.le_refl _) hwf.1 hwf.2 (hfree e (.head _)))
  | block stmts =>
    rw [hbody] at hwf hfree
    refine .bind (.sequence trivial fun n hn => ?_) fun _ hflow => .pure hflow
    exact hown n (statementsWellFormed_mem hwf hn) (hfree n hn)

end Tells

/-- The values that a call has gathered when its body ends. -/
theorem yields_gathered {f : Closure} {m m' : Machine} {fs : List Frame} {more : List Value}
    (hframes : m.frames = Entering.frame f :: fs) (h : Gathered m m' more) :
    (m'.frames.head?.bind (·.yields)).getD #[] = more.toArray := by
  have hcollects := h.collects
  rw [h.frames, hframes]
  rw [Machine.collecting, hframes, List.map_cons, List.head?_cons, Entering.collects_frame] at hcollects
  unfold Entering.frame
  cases hgenerator : f.definition.isGenerator with
  | true => simp [gather]
  | false =>
    -- a call that does not collect values gathers none
    have hnone : more = [] := by simpa [hgenerator] using hcollects
    rw [hnone]
    rfl

/-- The machine with one more call open. -/
def opened (frame : Frame) (m : Machine) : Machine :=
  { m with
    frames := frame :: m.frames
    stats := { m.stats with deepestCall := Nat.max m.stats.deepestCall (m.frames.length + 1) } }

/-- A step in a frame gives what the frame has collected. -/
theorem inFrame_of_ok {frame : Frame} {x : Run α} {m m' : Machine} {a : α}
    (h : x (opened frame m) = .ok a m') : inFrame frame x m =
      .ok (a, (m'.frames.head?.bind (·.yields)).getD #[]) { m' with frames := m'.frames.tail } := by
  unfold opened at h
  unfold inFrame
  simp only [List.length_cons, h]

/-- A step that fails there takes the frame off. -/
theorem inFrame_of_error {frame : Frame} {x : Run α} {m m' : Machine} {stop : Stop}
    (h : x (opened frame m) = .error stop m') :
    inFrame frame x m = .error stop { m' with frames := m'.frames.tail } := by
  unfold opened at h
  unfold inFrame
  simp only [List.length_cons, h]

/-- A noted step that returns gives its notes. -/
theorem noting_of_ok {y : Noted α} {m m' : Machine} {a : α} {notes : List Value}
    (h : y (m, []) = .ok a (m', notes)) : noting y m = .ok (a, notes) m' := by
  simp only [noting, h]

/-- One that fails gives none. -/
theorem noting_of_error {y : Noted α} {m m' : Machine} {stop : Stop} {notes : List Value}
    (h : y (m, []) = .error stop (m', notes)) : noting y m = .error stop m' := by
  simp only [noting, h]

/-- A function's own values are collected into a new array. -/
theorem collect_eq (own : List Value) : collect own = newArray own.toArray := rfl

/-- A call gives what its body notes. -/
theorem given_eq {f : Closure} (hf : f.Only FunctionDef.Unreflecting) {x : Run Value}
    {y : Noted Value} (h : Tells o (f.definition.isGenerator :: calls)
      (Value.Only FunctionDef.Unreflecting) x y)
    {m : Machine} (hm : (sealing 0).Ready o calls m) : given f y m = Entering.collected f x m := by
  have hready := hm.inFrame (Entering.only_frame hf) (Entering.collects_frame f)
  obtain ⟨more, hy, hmore⟩ := h.noted (opened (Entering.frame f) m) (hready _) []
  rw [List.nil_append] at hy
  unfold given Entering.collected
  cases hx : x (opened (Entering.frame f) m) with
  | ok v m' =>
    rw [hx] at hy hmore
    -- the frame of the call has gathered exactly the notes of its body
    have hyields : (m'.frames.head?.bind (·.yields)).getD #[] = more.toArray :=
      yields_gathered rfl hmore
    rw [Run.bind_of_ok (inFrame_of_ok hx), Run.bind_of_ok (inFrame_of_ok (noting_of_ok hy)), hyields]
    simp [collect_eq]
  | error stop m' =>
    rw [hx] at hy
    rw [Run.bind_of_error (inFrame_of_error hx),
      Run.bind_of_error (inFrame_of_error (noting_of_error hy))]

/-! ## Whole runs -/

/-- What the steps at a bound do, in a program without reflection. -/
structure Agree (o : RunOptions) (bound : Nat) : Prop where
  steps : ∀ depth, Yielding.Agree o depth bound ⟨bound, exec bound, eval bound, call bound⟩
  own : ∀ calls n, n.wellFormed = true → n.Unreflecting →
    Tells.Flows o calls (BrailleScript.exec bound n) (own bound n)

/-- Functions are entered as in the program. -/
theorem Agree.enters {bound depth : Nat} (h : Agree o bound) (hdepth : depth ≤ calls.length) :
    Discipline.Safe.Enters (sealing depth) o calls
      (Run.enterFunction (Yielding.stepsWithin bound))
      (enterFunction ⟨bound, exec bound, eval bound, call bound⟩ (Noted.own bound)) := by
  intro f args hf ha hlt
  -- with one more call open, the body tells what that call gathers
  have hbody : Tells o (f.definition.isGenerator :: calls) (Value.Only FunctionDef.Unreflecting) _ _ :=
    .functionBody (h.steps _) (h.own _) hf.1
  have hcollected {scope : ScopeId} := Discipline.Safe.collected hf
    (.inScope scope ((h.steps depth).bodies hdepth f.definition hf.1 hlt))
  refine .bind (.childOf _) fun scope _ => .bind (.bindParams scope _ ha) fun _ _ => fun m hm => ?_
  exact ⟨given_eq hf (hbody.inScope scope) ⟨hm.only, hm.options, hm.calls⟩, (hcollected m hm).2⟩

/-- A run in which calls give what their bodies have noted is the run itself. -/
theorem steps (o : RunOptions) (bound : Nat) : Agree o bound := by
  -- with one bound more, calls give what their bodies have noted with the smaller one
  induction bound with
  | zero => exact ⟨fun _ => .zero, fun _ _ _ _ => .exhausted⟩
  | succ bound ih =>
    have henters {calls : List Bool} {depth : Nat} (hdepth : depth ≤ calls.length) :=
      ih.enters hdepth
    refine ⟨fun depth => ?_, fun calls n hwf hfree => (.execStep (ih.steps _) (ih.own calls) hwf hfree)⟩
    constructor
    case rounds => rfl
    case exec => exact fun _ _ hdepth hwf hfree hfits => (ih.steps depth).execStep hdepth hwf hfree hfits
    case eval =>
      intro calls n hdepth hexpr hwf hfree
      have hfits : Yielding.Fits depth calls n := .of_isExpression hwf hexpr
      -- only calls differ, the other expressions are those of the machine
      by_cases hn : ∃ callee args pos, n = .call callee args pos
      · obtain ⟨callee, args, pos, rfl⟩ := hn
        obtain ⟨hcallee, hargs⟩ := List.forall_mem_cons.1
          ((ih.steps depth).supplied hdepth hwf hfree hfits).evaluated
        refine .bind hcallee fun _ hf => .bind (.mapM hargs) fun _ ha => .located pos ?_
        rw [Entering.callValue_eq]
        exact .callThrough (henters hdepth) hf ha
      · have hstep : eval (bound + 1) n =
            Run.evalStep ⟨bound, exec bound, eval bound, call bound⟩ n := by
          cases n with
          | call callee args pos => exact absurd ⟨callee, args, pos, rfl⟩ hn
          | _ => rfl
        show (sealing depth).Safe o calls _ _ (eval (bound + 1) n)
        rw [hstep]
        exact (ih.steps depth).evalStep hdepth hexpr hwf hfree
    case call =>
      intro calls v args hdepth hv ha
      show (sealing depth).Safe o calls _ (Run.callValue (Yielding.stepsWithin bound) v args) _
      rw [Entering.callValue_eq]
      exact .callThrough (henters hdepth) hv ha

/-- In a program without reflection each call gives the array of the values that the statements of its
body have yielded, or the value of the body if there are none. -/
theorem run_eq {program : Node} (hprogram : program.isProgram = true) (hfree : program.Unreflecting)
    (bound : Nat) {m : Machine} (honly : m.Only FunctionDef.Unreflecting) (hframes : m.frames = []) :
    run bound program m = Run.sequence (BrailleScript.exec bound) .null program.statements m :=
  ((steps m.options bound).steps 0).program hprogram hfree honly hframes

/-- So does each call of a function without reflection, whatever else the machine holds. -/
theorem call_eq (bound : Nat) {m : Machine} (honly : m.Only FunctionDef.Unreflecting) {callee : Value}
    {args : List Value} (hcallee : callee.Only FunctionDef.Unreflecting)
    (hargs : ∀ v ∈ args, v.Only FunctionDef.Unreflecting) :
    call bound callee args m = BrailleScript.call bound callee args m :=
  (((steps m.options bound).steps 0).call m.collecting callee args (Nat.zero_le _) hcallee hargs m
    ⟨honly, rfl, rfl⟩).1

/-! ## Results of calls -/

/-- Entering a function is running its body, and then making the array if there is one. -/
theorem enterFunction_eq (bound : Nat) (f : Closure) (args : List Value) :
    enterFunction ⟨bound, exec bound, eval bound, call bound⟩ (own bound) f args =
      body bound f args >>= fun result =>
        if result.2.isEmpty then return result.1 else collect result.2 := by
  simp only [enterFunction, given, body, bind_assoc, pure_bind]

/-- What a function gives that was entered. -/
theorem gives_of_enterFunction {bound : Nat} {f : Closure} {args : List Value} {m last : Machine}
    {v : Value}
    (h : enterFunction ⟨bound, exec bound, eval bound, call bound⟩ (own bound) f args m = .ok v last) :
    ∃ value own ended, body bound f args m = .ok (value, own) ended ∧
      Gives ended value own v last := by
  rw [enterFunction_eq] at h
  obtain ⟨⟨value, own⟩, ended, hbody, hrest⟩ := Run.bind_eq_ok.1 h
  refine ⟨value, own, ended, hbody, ?_⟩
  -- without a yield the value is returned, and otherwise a new array of the yields
  cases own with
  | nil =>
    cases hrest
    exact ⟨fun _ => ⟨rfl, rfl⟩, fun hne => absurd rfl hne⟩
  | cons first more =>
    cases hrest
    refine ⟨nofun, fun _ => ⟨_, rfl, Nat.le_refl _, ?_, fun other hother => ?_⟩⟩
    · simp [Heap.items]
    · simp [Heap.items, Array.getElem?_push, Nat.ne_of_lt hother]

/-- A body that ends without an error gives something. -/
theorem exists_enterFunction {bound : Nat} {f : Closure} {args : List Value} {m ended : Machine}
    {result : Value × List Value} (h : body bound f args m = .ok result ended) :
    ∃ v last, enterFunction ⟨bound, exec bound, eval bound, call bound⟩ (own bound) f args m =
      .ok v last := by
  rw [enterFunction_eq, Run.bind_of_ok h]
  split
  · exact ⟨_, _, rfl⟩
  · exact ⟨_, _, rfl⟩

/-- The machine when a call has been counted. -/
def counted (m : Machine) : Machine :=
  { m with stats := { m.stats with calls := m.stats.calls + 1 } }

/-- A call that returns gives what its body leads to. -/
theorem gives_of_call {bound id : Nat} {f : Closure} {args : List Value} {m last : Machine} {v : Value}
    (h : call (bound + 1) (.function id f) args m = .ok v last) :
    ∃ value own ended, body bound f args (counted m) = .ok (value, own) ended ∧
      Gives ended value own v last := by
  have hcall : Entering.callFunction
      (enterFunction ⟨bound, exec bound, eval bound, call bound⟩ (own bound)) f args m = .ok v last := h
  unfold Entering.callFunction at hcall
  obtain ⟨_, _, hget, hcall⟩ := Run.bind_eq_ok.1 hcall
  cases hget
  split at hcall
  next => cases hcall
  next =>
    obtain ⟨_, _, hcount, hcall⟩ := Run.bind_eq_ok.1 hcall
    cases hcount
    split at hcall
    next =>
      -- recording the call leaves the heap as it is
      obtain ⟨input, m₁, hinput, hentered⟩ := Run.bind_eq_ok.1 hcall
      obtain ⟨v', entered, henter, hrecorded⟩ := Run.bind_eq_ok.1 hentered
      obtain ⟨output, m₂, houtput, hreturned⟩ := Run.bind_eq_ok.1 hrecorded
      obtain rfl : m₁ = counted m := by
        rw [mapM_json_apply] at hinput
        split at hinput <;> cases hinput
        rfl
      obtain rfl : m₂ = entered := by
        rw [json_apply] at houtput
        split at houtput <;> cases houtput
        rfl
      cases hreturned
      obtain ⟨value, own, ended, hbody, hgives⟩ := gives_of_enterFunction henter
      exact ⟨value, own, ended, hbody, hgives.of_nil, hgives.of_yielded⟩
    next => exact gives_of_enterFunction hcall

/-- A call whose body ends without an error returns, unless it is refused or recorded. -/
theorem exists_call {bound id : Nat} {f : Closure} {args : List Value} {m ended : Machine}
    {result : Value × List Value} (hdepth : m.frames.length < m.options.maxCallDepth)
    (htrace : m.options.traceDeterministic = false)
    (h : body bound f args (counted m) = .ok result ended) :
    ∃ v last, call (bound + 1) (.function id f) args m = .ok v last := by
  obtain ⟨v, last, henter⟩ := exists_enterFunction h
  refine ⟨v, last, ?_⟩
  show Entering.callFunction _ f args m = _
  have hget : (get : Run Machine) m = .ok m m := rfl
  -- the call is counted before its function is entered
  have hcount : count (fun s => { s with calls := s.calls + 1 }) m = .ok () (counted m) := rfl
  unfold Entering.callFunction
  rw [Run.bind_of_ok hget, if_neg (Nat.not_le.2 hdepth), Run.bind_of_ok hcount, htrace]
  exact henter

end Noted

end BrailleScript
