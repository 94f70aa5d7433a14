import BrailleScript.Machine.Execution
import BrailleScript.Proofs.Machine.DisciplineSteps
import BrailleScript.Proofs.Node.Parts

/-!
# Disciplined programs

A construct of the language keeps a discipline if its parts do: the expressions it evaluates, the
statements it executes, and the bodies of the functions it may call.  `Supplied` collects what a
node needs of the steps at the next smaller bound.

## Key results

- `Safe.callFunction`: a call is safe if the body of the function is, with one more call open;
  functions may be entered in other ways than a program does (`Entering`)
- `Supplied.evalStep`, `Supplied.execStep`: one step of a node whose parts are safe
- `Supplied.of_steps`: steps that are safe at every node supply every node
- `Universal.steps`, `Universal.execute`: what every step of every program keeps
-/

namespace BrailleScript

/-! ## Other ways to enter a function -/

namespace Entering

open Run

/-- A call of a function when it begins. -/
def frame (f : Closure) : Frame :=
  ⟨f.binding, if f.definition.isGenerator then some #[] else none⟩

/-- The frame of a generator collects, and no other does. -/
theorem collects_frame (f : Closure) : (frame f).yields.isSome = f.definition.isGenerator := by
  unfold frame
  cases f.definition.isGenerator <;> rfl

/-- The frame of an admitted function is admitted. -/
theorem only_frame {P : FunctionDef Node → Prop} {f : Closure} (hf : f.Only P) : (frame f).Only P := by
  refine ⟨hf.2, fun vs hvs v hv => ?_⟩
  unfold frame at hvs
  split at hvs
  · obtain rfl := Option.some.inj hvs
    exact absurd hv (Array.not_mem_empty v)
  · cases hvs

/-- Runs the body of a function and gives the values it yielded, if there are any. -/
def collected (f : Closure) (body : Run Value) : Run Value := do
  let (v, yields) ← inFrame (frame f) body
  if yields.isEmpty then return v else newArray yields

variable (enter : Closure → List Value → Run Value)

/-- Calls a function of the program. -/
def callFunction (f : Closure) (args : List Value) : Run Value := do
  let m ← get
  if m.options.maxCallDepth ≤ m.frames.length then fail (.callDepth m.options.maxCallDepth)
  else
    count fun s => { s with calls := s.calls + 1 }
    if m.options.traceDeterministic then
      let input ← args.mapM json
      let v ← enter f args
      recordCall f.definition input (← json v)
      return v
    else enter f args

/-- Makes an object of a class and runs its `init` method. -/
def instantiate (c : Class) (args : List Value) : Run Value := do
  let ref ← make (·.newInstance)
  if let some (method, owner) := c.findMethod "init" then
    let _ ← callFunction enter (bindMethod ref c method owner) args
  return .object ref c

/-- Calls a value. -/
def callValue (callee : Value) (args : List Value) : Run Value :=
  match callee with
  | .builtin b => callBuiltin b args
  | .function _ f => callFunction enter f args
  | .classValue c => instantiate enter c args
  | v => fail (.notCallable v.type)

/-- A value is called by entering its function. -/
theorem callValue_eq (r : Steps) (callee : Value) (args : List Value) :
    Run.callValue r callee args = callValue (enterFunction r) callee args := by
  cases callee <;> rfl

end Entering

namespace Discipline

variable {D : Discipline} {o : RunOptions} {calls : List Bool}

/-- A way to end that the discipline admits. -/
abbrev AdmittedFlow (D : Discipline) (flow : Flow) : Prop := flow.Only D.admits

namespace Safe

/-! ## Sequences and loops -/

/-- Statements in a row are safe. -/
theorem sequence {exec exec' : Node → Run Flow} {stmts : List Node} {last : Value}
    (hlast : D.Admitted last)
    (h : ∀ n ∈ stmts, D.Safe o calls D.AdmittedFlow (exec n) (exec' n)) :
    D.Safe o calls D.AdmittedFlow (Run.sequence exec last stmts)
      (Run.sequence exec' last stmts) := by
  induction stmts generalizing last with
  | nil => exact .pure hlast
  | cons n rest ih =>
    refine .bind (h n (.head _)) fun flow hflow => ?_
    cases flow with
    | normal v => exact ih hflow fun n hn => h n (.tail _ hn)
    | returned | broken | continued => exact .pure hflow

/-- So is a block of them. -/
theorem block {exec exec' : Node → Run Flow} {stmts : List Node}
    (h : ∀ n ∈ stmts, D.Safe o calls D.AdmittedFlow (exec n) (exec' n)) :
    D.Safe o calls D.AdmittedFlow (Run.block exec stmts) (Run.block exec' stmts) :=
  .bind .newScope fun id _ => .inScope id (.sequence trivial h)

/-- So is what follows a round of a loop. -/
theorem afterRound {flow : Flow} (hflow : D.AdmittedFlow flow) {x y : Run Flow}
    (h : D.Safe o calls D.AdmittedFlow x y) :
    D.Safe o calls D.AdmittedFlow (Run.afterRound flow x) (Run.afterRound flow y) := by
  cases flow with
  | normal | continued => exact h
  | broken => exact .pure trivial
  | returned v => exact .pure hflow

/-- So is a loop with a condition, when running out of rounds is allowed. -/
theorem whileLoop (hstop : D.stops .exhausted) {condition condition' : Run Bool}
    {body body' : Run Flow} (hc : D.Safe o calls (fun _ => True) condition condition')
    (hb : D.Safe o calls D.AdmittedFlow body body') (rounds : Nat) :
    D.Safe o calls D.AdmittedFlow (Run.whileLoop condition body rounds)
      (Run.whileLoop condition' body' rounds) := by
  induction rounds with
  | zero => exact .throw hstop
  | succ rounds ih =>
    refine .bind hc fun again _ => ?_
    cases again with
    | true => exact .bind (.count _) fun _ _ => .bind hb fun _ hflow => .afterRound hflow ih
    | false => exact .pure trivial

/-- So is a loop with a cap. -/
theorem cappedLoop {body body' : Run Flow} (cap : Nat)
    (hb : D.Safe o calls D.AdmittedFlow body body') (rounds : Nat) :
    D.Safe o calls D.AdmittedFlow (Run.cappedLoop cap body rounds)
      (Run.cappedLoop cap body' rounds) := by
  induction rounds with
  | zero => exact .bind (.printLine _) fun _ _ => .pure trivial
  | succ rounds ih =>
    exact .bind (.count _) fun _ _ => .bind hb fun _ hflow => .afterRound hflow ih

/-- So is a loop over admitted items. -/
theorem forEach {body body' : Run Flow} (var : String)
    (hb : D.Safe o calls D.AdmittedFlow body body') {items : List Value}
    (hi : ∀ v ∈ items, D.Admitted v) :
    D.Safe o calls D.AdmittedFlow (Run.forEach var body items) (Run.forEach var body' items) := by
  induction items with
  | nil => exact .pure trivial
  | cons v rest ih =>
    refine .bind (.count _) fun _ _ => .bind .newScope fun scope _ => ?_
    refine .bind (.define _ _ _ (hi v (.head _))) fun _ _ => .bind (.inScope scope hb) ?_
    exact fun flow hflow => .afterRound hflow (ih fun w hw => hi w (.tail _ hw))

/-- What the handler of a `try` does with a failure. -/
theorem handler (name : Option String) (f : Failure) {x y : Run Flow}
    (h : D.Safe o calls D.AdmittedFlow x y) :
    D.Safe o calls D.AdmittedFlow
      (do
        let scope ← Run.newScope
        if let some name := name then Run.define scope name (.text f.text) false
        Run.inScope scope x)
      (do
        let scope ← Run.newScope
        if let some name := name then Run.define scope name (.text f.text) false
        Run.inScope scope y) := by
  refine .bind .newScope fun scope _ => ?_
  cases name with
  | none => exact .inScope scope h
  | some name => exact .bind (.define _ _ _ trivial) fun _ _ => .inScope scope h

/-- So is a try statement. -/
theorem tryCatch (name : Option String) {x x' y y' : Run Flow}
    (hx : D.Safe o calls D.AdmittedFlow x x') (hy : D.Safe o calls D.AdmittedFlow y y') :
    D.Safe o calls D.AdmittedFlow (Run.tryCatch x name y) (Run.tryCatch x' name y') := by
  intro m hm
  obtain ⟨heq, hend⟩ := hx m hm
  unfold Run.tryCatch
  rw [heq]
  cases hxm : x m with
  | ok flow m' =>
    rw [hxm] at hend
    exact ⟨rfl, hend⟩
  | error stop m' =>
    rw [hxm] at hend
    cases stop with
    | conflict | exhausted => exact ⟨rfl, hend⟩
    | failed f =>
      dsimp only
      split
      · -- the handler begins in the machine that the failure left
        obtain ⟨heq', hend'⟩ := handler name f hy m' (hm.of_keeps hend.2.1 hend.1)
        exact ⟨heq', hend'.trans hend.2.1⟩
      · exact ⟨rfl, hend⟩

/-- So is the body of a switch. -/
theorem switchBody {exec exec' : Node → Run Flow} {stmts : List Node}
    (h : ∀ n ∈ stmts, D.Safe o calls D.AdmittedFlow (exec n) (exec' n)) :
    D.Safe o calls D.AdmittedFlow (Run.switchBody exec stmts) (Run.switchBody exec' stmts) := by
  refine .bind (.block h) fun flow hflow => ?_
  cases flow with
  | broken => exact .pure trivial
  | normal | returned | continued => exact .pure hflow

/-- So are its cases. -/
theorem switchCases {r r' : Steps} (subject : Value) {default : Option (List Node)}
    {cases : List (SwitchCase Node)}
    (hd : ∀ n ∈ default.getD [], D.Safe o calls D.AdmittedFlow (r.exec n) (r'.exec n))
    (hv : ∀ k ∈ cases, D.Safe o calls D.Admitted (r.eval k.value) (r'.eval k.value))
    (hb : ∀ k ∈ cases, ∀ n ∈ k.body, D.Safe o calls D.AdmittedFlow (r.exec n) (r'.exec n)) :
    D.Safe o calls D.AdmittedFlow (Run.switchCases r subject default cases)
      (Run.switchCases r' subject default cases) := by
  induction cases with
  | nil =>
    cases default with
    | none => exact .pure trivial
    | some stmts => exact .switchBody hd
  | cons k rest ih =>
    refine .bind (hv k (.head _)) fun v _ => .bind (.equal _ _) fun same _ => ?_
    cases same with
    | true => exact .switchBody (hb k (.head _))
    | false => exact ih (fun k hk => hv k (.tail _ hk)) fun k hk => hb k (.tail _ hk)

/-! ## Declarations -/

/-- An optional expression gives an admitted value. -/
theorem optionalValue {eval eval' : Node → Run Value} {value : Option Node}
    (h : ∀ n ∈ value.toList, D.Safe o calls D.Admitted (eval n) (eval' n)) :
    D.Safe o calls D.Admitted (Run.optionalValue eval value) (Run.optionalValue eval' value) := by
  cases value with
  | none => exact .pure trivial
  | some n => exact h n (.head _)

/-- A closure of an admitted definition is admitted. -/
theorem closure {d : FunctionDef Node} (hd : D.admits d) :
    D.Safe o calls D.Admitted (Run.closure d) (Run.closure d) :=
  .get_bind fun _ _ => .newFunction ⟨hd, fun _ hb => nomatch hb⟩

/-- The parent of a class is admitted. -/
theorem parentClass (className : String) (parent : Option String) :
    D.Safe o calls (fun c => ∀ p ∈ c, p.Only D.admits) (Run.parentClass className parent)
      (Run.parentClass className parent) := by
  cases parent with
  | none => exact .pure fun _ hp => nomatch hp
  | some name =>
    refine .bind (.lookup name) fun v hv => ?_
    -- only a class can be a parent
    cases v with
    | classValue c =>
      refine .pure fun p hp => ?_
      obtain rfl := Option.some.inj hp
      exact hv
    | _ => exact .fail _

/-- Declaring a class of admitted methods is safe. -/
theorem declareClass (name : String) (parent : Option String) {methods : List (FunctionDef Node)}
    (h : ∀ d ∈ methods, D.admits d) :
    D.Safe o calls (fun _ => True) (Run.declareClass name parent methods)
      (Run.declareClass name parent methods) := by
  refine .bind (.parentClass name parent) fun p hp => .get_bind fun m _ => ?_
  refine .bind (p := Class.Only D.admits) ?_ fun c hc => .declare name _ hc
  exact .make fun _ hh => ⟨.mk h hp, hh⟩

/-! ## Calls -/

/-- So is binding parameters to admitted arguments. -/
theorem bindParams (scope : ScopeId) (params : List String) {args : List Value}
    (ha : ∀ v ∈ args, D.Admitted v) :
    D.Safe o calls (fun _ => True) (Run.bindParams scope params args)
      (Run.bindParams scope params args) := by
  induction params generalizing args with
  | nil => exact .pure trivial
  | cons p params ih =>
    -- parameters without an argument are null
    cases args with
    | nil => exact .bind (.define _ _ _ trivial) fun _ _ => ih ha
    | cons v args =>
      exact .bind (.define _ _ _ (ha v (.head _))) fun _ _ => ih fun w hw => ha w (.tail _ hw)

/-- The bodies of admitted functions are safe, with one more call open. -/
def Bodies (D : Discipline) (o : RunOptions) (calls : List Bool) (r r' : Steps) : Prop :=
  ∀ d, D.admits d → calls.length < o.maxCallDepth → D.Safe o (d.isGenerator :: calls) D.Admitted
    (Run.functionBody r d.body) (Run.functionBody r' d.body)

/-- Functions are entered safely, with one more call open. -/
def Enters (D : Discipline) (o : RunOptions) (calls : List Bool)
    (enter enter' : Closure → List Value → Run Value) : Prop :=
  ∀ f args, f.Only D.admits → (∀ v ∈ args, D.Admitted v) → calls.length < o.maxCallDepth →
    D.Safe o calls D.Admitted (enter f args) (enter' f args)

variable {r r' : Steps} {enter enter' : Closure → List Value → Run Value} {args : List Value}

/-- What a call gives is admitted if the value of its body is. -/
theorem collected {f : Closure} (hf : f.Only D.admits) {x y : Run Value}
    (h : D.Safe o (f.definition.isGenerator :: calls) D.Admitted x y) :
    D.Safe o calls D.Admitted (Entering.collected f x) (Entering.collected f y) := by
  refine .bind (.inFrame (Entering.only_frame hf) (Entering.collects_frame f) h) fun e he => ?_
  dsimp only
  split
  · exact .pure he.1
  · exact .newArray he.2

/-- Safe bodies can be entered safely. -/
theorem Bodies.enters (h : Bodies D o calls r r') :
    Enters D o calls (Run.enterFunction r) (Run.enterFunction r') :=
  fun f _ hf ha hlt => .bind (.childOf _) fun scope _ => .bind (.bindParams scope _ ha) fun _ _ =>
    .collected hf (.inScope scope (h f.definition hf.1 hlt))

/-- A call of a function is safe. -/
theorem callFunction (h : Enters D o calls enter enter') {f : Closure} (hf : f.Only D.admits)
    (ha : ∀ v ∈ args, D.Admitted v) :
    D.Safe o calls D.Admitted (Entering.callFunction enter f args)
      (Entering.callFunction enter' f args) := by
  refine .get_bind fun m hm => ?_
  split
  · exact .fail _
  · rename_i hdepth
    have hlt : calls.length < o.maxCallDepth := by
      rw [hm.options] at hdepth
      rw [← hm.calls, Machine.collecting, List.length_map]
      omega
    have henter := h f args hf ha hlt
    refine .bind (.count _) fun _ _ => ?_
    split
    · -- the arguments are written before the call and the result after it
      refine .bind (.mapM fun v _ => .json v) fun input _ => .bind henter fun v hv => ?_
      refine .bind (.json v) fun result _ => .bind (p := fun _ => True) ?_ fun _ _ => .pure hv
      exact .bind (.record _) fun _ _ => .pure trivial
    · exact henter

/-- So is making an instance. -/
theorem instantiate (h : Enters D o calls enter enter') {c : Class} (hc : c.Only D.admits)
    (ha : ∀ v ∈ args, D.Admitted v) :
    D.Safe o calls D.Admitted (Entering.instantiate enter c args)
      (Entering.instantiate enter' c args) := by
  refine .bind (p := fun _ => True) (.make fun _ hh => ⟨trivial, hh.newInstance⟩) fun ref _ => ?_
  dsimp only
  cases hi : c.findMethod "init" with
  | none => exact .pure hc
  | some found =>
    obtain ⟨hd, ho⟩ := hc.findMethod hi
    exact .bind (.callFunction h (.bindMethod hc hd ho) ha) fun _ _ => .pure hc

/-- So is the call of any admitted value. -/
theorem callThrough (h : Enters D o calls enter enter') {callee : Value} (hc : D.Admitted callee)
    (ha : ∀ v ∈ args, D.Admitted v) :
    D.Safe o calls D.Admitted (Entering.callValue enter callee args)
      (Entering.callValue enter' callee args) := by
  cases callee with
  | builtin b => exact .callBuiltin b ha
  | function id f => exact .callFunction h hc ha
  | classValue c => exact .instantiate h hc ha
  | _ => exact .fail _

/-- So is that call with the bodies of the steps. -/
theorem callValue (hb : Bodies D o calls r r') {callee : Value} (hc : D.Admitted callee)
    (ha : ∀ v ∈ args, D.Admitted v) :
    D.Safe o calls D.Admitted (Run.callValue r callee args) (Run.callValue r' callee args) := by
  rw [Entering.callValue_eq, Entering.callValue_eq]
  exact .callThrough hb.enters hc ha

/-! ## Expressions -/

section Expressions

variable {eval eval' : Node → Run Value}

/-- So is an assignment, when a conflict is allowed for items. -/
theorem assignTo {target : Node} {v : Value} (hv : D.Admitted v)
    (hc : ∀ object index pos, target = .index object index pos → D.stops .conflict)
    (h : ∀ n ∈ target.targetParts, D.Safe o calls D.Admitted (eval n) (eval' n)) :
    D.Safe o calls (fun _ => True) (Run.assignTo eval target v) (Run.assignTo eval' target v) := by
  cases target with
  | identifier name pos => exact .assignName name hv
  | member object name pos =>
    exact .bind (h object (.head _)) fun _ _ => .setMember _ name hv
  | index object index pos =>
    exact .bind (h object (.head _)) fun _ _ => .bind (h index (.tail _ (.head _))) fun _ _ =>
      .setItem (hc object index pos rfl) _ _ hv
  | _ => exact .fail _

/-- The entries of a map are admitted. -/
theorem mapEntries {entries : Fields Value} {pairs : List (Node × Node)}
    (he : ∀ v ∈ entries.values, D.Admitted v)
    (h : ∀ n ∈ pairs.flatMap fun p => [p.1, p.2], D.Safe o calls D.Admitted (eval n) (eval' n)) :
    D.Safe o calls (fun fields => ∀ v ∈ fields.values, D.Admitted v)
      (Run.mapEntries eval entries pairs) (Run.mapEntries eval' entries pairs) := by
  induction pairs generalizing entries with
  | nil => exact .pure he
  | cons pair rest ih =>
    rw [List.flatMap_cons, List.forall_mem_append] at h
    refine .bind (h.1 _ (.head _)) fun k _ => .bind (.text k) fun key _ => ?_
    refine .bind (h.1 _ (.tail _ (.head _))) fun v hv => ih (fun w hw => ?_) h.2
    -- the new value is admitted, and so were those before
    rcases Heap.mem_values_insert hw with rfl | hw
    · exact hv
    · exact he w hw

/-- Printing is safe. -/
theorem printTexts {args : List Node}
    (h : ∀ n ∈ args, D.Safe o calls D.Admitted (eval n) (eval' n)) :
    D.Safe o calls (fun _ => True) (Run.printTexts eval args) (Run.printTexts eval' args) := by
  induction args with
  | nil => exact .pure trivial
  | cons n rest ih =>
    refine .bind (h n (.head _)) fun v _ => .bind (.text v) fun _ _ => ?_
    exact .bind (ih fun n hn => h n (.tail _ hn)) fun _ _ => .pure trivial

/-- A logical expression gives an admitted value. -/
theorem logical (op : LogicalOp) {left right : Node}
    (h : ∀ n ∈ [left, right], D.Safe o calls D.Admitted (eval n) (eval' n)) :
    D.Safe o calls D.Admitted (Run.logical eval op left right)
      (Run.logical eval' op left right) := by
  have hright : D.Safe o calls D.Admitted (do return .bool (← Run.truthy (← eval right)))
      (do return Value.bool (← Run.truthy (← eval' right))) :=
    .bind (h right (.tail _ (.head _))) fun _ _ => .bind (.truthy _) fun _ _ => .pure trivial
  refine .bind (h left (.head _)) fun _ _ => .bind (.truthy _) fun l _ => ?_
  -- the right operand is looked at only if the left one does not decide
  cases op <;> cases l
  · exact .pure trivial
  · exact hright
  · exact hright
  · exact .pure trivial

end Expressions

/-! ## Pipelines and reflection -/

/-- So does an observed step. -/
theorem observeValue (c : Call) {x y : Run Value} (h : D.Safe o calls D.Admitted x y) :
    D.Safe o calls D.Admitted (Run.observeValue c x) (Run.observeValue c y) :=
  .observe c (fun _ => trivial) (.bind h fun v hv => .bind (.json v) fun _ _ => .pure hv)

/-- So does a pipeline. -/
theorem pipeCompose {call call' : Value → List Value → Run Value}
    (h : ∀ v args, D.Admitted v → (∀ a ∈ args, D.Admitted a) →
      D.Safe o calls D.Admitted (call v args) (call' v args))
    (ha : ∀ v ∈ args, D.Admitted v) (pos : Pos) :
    D.Safe o calls D.Admitted (Run.pipeCompose call args pos) (Run.pipeCompose call' args pos) := by
  refine .bind (.mapM fun v _ => .json v) fun inputs _ => .observeValue _ ?_
  refine .foldlM (.getD fun v hv => ha v (List.mem_of_mem_head? hv)) fun v stage hv hs => ?_
  exact h stage [v] (ha stage (List.mem_of_mem_tail hs)) (List.forall_mem_singleton.2 hv)

/-- So does a reflected program, which was parsed from its source. -/
theorem reflectExec {run run' : List Node → Run Flow}
    (h : ∀ lenient source program, parseSource lenient source = .ok program →
      D.Safe o calls D.AdmittedFlow (run program.statements) (run' program.statements))
    (args : List Value) (pos : Pos) :
    D.Safe o calls D.Admitted (Run.reflectExec run args pos) (Run.reflectExec run' args pos) := by
  refine .bind (.argText _) fun source _ => .observeValue _ (.get_bind fun m _ => ?_)
  split
  · exact .fail _
  · split
    · exact .fail _
    · -- only a source that was parsed is run, one reflection further in
      rename_i program hp
      exact .bind (.inReflection (h _ _ program hp)) fun _ hflow => .pure hflow

end Safe

/-- Machines may hold any functions and runs may yield anywhere and stop in any way, so the discipline
is asked of the steps of every program. -/
structure Universal (D : Discipline) : Prop where
  admits : ∀ d, D.admits d
  stops : ∀ stop, D.stops stop
  yields : ∀ calls, D.yields calls

/-! ## One step -/

/-- What a node needs of the steps at the next smaller bound. -/
structure Supplied (D : Discipline) (o : RunOptions) (calls : List Bool) (r r' : Steps) (node : Node) :
    Prop where
  evaluated : ∀ n ∈ node.evaluated, D.Safe o calls D.Admitted (r.eval n) (r'.eval n)
  executed : ∀ n ∈ node.executed, D.Safe o calls D.AdmittedFlow (r.exec n) (r'.exec n)
  definitions : ∀ d ∈ node.definitions, D.admits d
  bodies : Safe.Bodies D o calls r r'
  call : ∀ v args, D.Admitted v → (∀ a ∈ args, D.Admitted a) →
    D.Safe o calls D.Admitted (r.call v args) (r'.call v args)
  /-- Only a `while` loop counts its rounds against the bound. -/
  rounds : ∀ c b, node = .whileLoop c b → r'.rounds = r.rounds ∧ D.stops .exhausted
  /-- Only reflection runs statements from elsewhere. -/
  reflected : ∀ args pos, node = .primitive .reflectExec args pos →
    ∀ lenient source program, parseSource lenient source = .ok program →
      ∀ n ∈ program.statements, D.Safe o calls D.AdmittedFlow (r.exec n) (r'.exec n)
  yields : ∀ value, node = .yieldValue value → D.yields calls
  /-- Only an assignment to an item can meet a conflict. -/
  conflict : ∀ object index pos value pos',
    node = .assign (.index object index pos) value pos' → D.stops .conflict

namespace Supplied

variable {r r' : Steps} {node : Node}

/-- Steps that are safe at every node supply every node. -/
theorem of_steps (hD : D.Universal) (hr : r'.rounds = r.rounds)
    (hexec : ∀ calls n, D.Safe o calls D.AdmittedFlow (r.exec n) (r'.exec n))
    (heval : ∀ calls n, D.Safe o calls D.Admitted (r.eval n) (r'.eval n))
    (hcall : ∀ v args, D.Safe o calls D.Admitted (r.call v args) (r'.call v args)) (node : Node) :
    D.Supplied o calls r r' node where
  evaluated n _ := heval calls n
  executed n _ := hexec calls n
  definitions d _ := hD.admits d
  bodies d _ _ := by
    cases d.body with
    | expr e => exact heval _ e
    | block stmts =>
      exact .bind (.sequence trivial fun n _ => hexec _ n) fun _ hflow => .pure hflow
  call v args _ _ := hcall v args
  rounds _ _ _ := ⟨hr, hD.stops _⟩
  reflected _ _ _ _ _ _ _ n _ := hexec calls n
  yields _ _ := hD.yields calls
  conflict _ _ _ _ _ _ := hD.stops _

/-- So does every primitive. -/
theorem callPrimitive {p : Primitive} {args : List Node} {pos : Pos}
    (h : D.Supplied o calls r r' (.primitive p args pos)) {argv : List Value}
    (ha : ∀ v ∈ argv, D.Admitted v) :
    D.Safe o calls D.Admitted
      (Run.callPrimitive r.call (Run.sequence r.exec .null) p argv pos)
      (Run.callPrimitive r'.call (Run.sequence r'.exec .null) p argv pos) := by
  refine .bind (.count _) fun _ _ => ?_
  -- only a reflection runs nodes that it was not given
  cases p with
  | infer => exact .infer argv pos
  | embed => exact .embed argv pos
  | promptTemplate => exact .promptTemplate argv pos
  | semanticSearch => exact .semanticSearch argv pos
  | pipeCompose => exact .pipeCompose h.call ha pos
  | reflectExec =>
    refine .reflectExec (fun lenient source program hp => ?_) argv pos
    exact .sequence trivial (h.reflected args pos rfl lenient source program hp)

/-- One step of an evaluation.  A node that is no expression is executed. -/
theorem evalStep (h : D.Supplied o calls r r' node)
    (hstmt : node.isExpression = false →
      D.Safe o calls D.AdmittedFlow (r.exec node) (r'.exec node)) :
    D.Safe o calls D.Admitted (Run.evalStep r node) (Run.evalStep r' node) := by
  -- one case for each kind of expression, each put together as the step is
  cases node with
  | number | text | bool | null => exact .pure trivial
  | array items =>
    exact .bind (.mapM h.evaluated) fun vs hvs => .newArray fun v hv => hvs v (List.mem_toArray.1 hv)
  | map pairs =>
    exact .bind (.mapEntries (fun _ hv => absurd hv List.not_mem_nil) h.evaluated) fun _ he =>
      .newMap he
  | identifier name pos => exact .located pos (.lookup name)
  | this pos =>
    refine .bind .currentBinding fun binding hb => ?_
    cases binding with
    | none => exact .located pos (.fail _)
    | some b => exact .pure (hb b rfl).1
  | super method pos => exact .located pos (.superMethod method)
  | assign target value pos =>
    obtain ⟨hvalue, htarget⟩ := List.forall_mem_cons.1 h.evaluated
    refine .bind hvalue fun v hv => .bind (.located pos (.assignTo hv ?_ htarget)) fun _ _ => .pure hv
    rintro object index pos' rfl
    exact h.conflict _ _ _ _ _ rfl
  | lambda d => exact .closure (h.definitions d (.head _))
  | binary op left right pos =>
    exact .bind (h.evaluated left (.head _)) fun _ _ =>
      .bind (h.evaluated right (.tail _ (.head _))) fun _ _ => .located pos (.binary _ _ _)
  | logical op left right => exact .logical op h.evaluated
  | unary op operand pos =>
    exact .bind (h.evaluated operand (.head _)) fun _ _ => .located pos (.unary _ _)
  | await operand => exact h.evaluated operand (.head _)
  | call callee args pos =>
    obtain ⟨hcallee, hargs⟩ := List.forall_mem_cons.1 h.evaluated
    exact .bind hcallee fun _ hf => .bind (.mapM hargs) fun _ ha =>
      .located pos (.callValue h.bodies hf ha)
  | member object name pos =>
    exact .bind (h.evaluated object (.head _)) fun _ hv => .located pos (.member hv name)
  | index object index pos =>
    exact .bind (h.evaluated object (.head _)) fun _ _ =>
      .bind (h.evaluated index (.tail _ (.head _))) fun _ _ => .located pos (.item _ _)
  | primitive p args pos =>
    exact .bind (.mapM h.evaluated) fun _ ha => .located pos (h.callPrimitive ha)
  | error message => exact .fail _
  | _ => exact .bind (hstmt rfl) fun _ hflow => .pure hflow

/-- One step of an execution.  A node that is no statement is evaluated. -/
theorem execStep (h : D.Supplied o calls r r' node)
    (hexpr : D.Safe o calls D.Admitted (r.eval node) (r'.eval node) ∨
      node.isExpression = false ∧ node.wellFormed = true) :
    D.Safe o calls D.AdmittedFlow (Run.execStep r node) (Run.execStep r' node) := by
  refine .bind (.count _) fun _ _ => ?_
  cases node with
  | declare name value constant pos =>
    exact .bind (.optionalValue h.evaluated) fun _ hv =>
      .bind (.located pos (.declare _ _ hv)) fun _ _ => .pure trivial
  | function d =>
    exact .bind (.closure (h.definitions d (.head _))) fun _ hf =>
      .bind (.located d.pos (.declare _ _ hf)) fun _ _ => .pure trivial
  | classDecl name parent methods pos =>
    exact .bind (.located pos (.declareClass name parent h.definitions)) fun _ _ => .pure trivial
  | importModule name pos =>
    exact .bind (.located pos (.bind (.loadModule name) fun _ hv => .declare _ _ hv)) fun _ _ =>
      .pure trivial
  | block stmts => exact .block h.executed
  | print args =>
    exact .bind (.printTexts h.evaluated) fun _ _ => .bind (.printLine _) fun _ _ => .pure trivial
  | returnValue value => exact .bind (.optionalValue h.evaluated) fun _ hv => .pure hv
  | yieldValue value =>
    exact .bind (h.evaluated value (.head _)) fun _ hv =>
      .bind (.yieldValue (h.yields value rfl) hv) fun _ _ => .pure trivial
  | breakLoop | continueLoop => exact .pure trivial
  | halt => exact .fail _
  | ifElse condition thenBranch elseBranch =>
    refine .bind (h.evaluated condition (.head _)) fun _ _ => .bind (.truthy _) fun holds _ => ?_
    cases holds with
    | true => exact h.executed thenBranch (.head _)
    | false =>
      cases elseBranch with
      | none => exact .pure trivial
      | some n => exact h.executed n (.tail _ (.head _))
  | whileLoop condition body =>
    obtain ⟨hrounds, hstop⟩ := h.rounds condition body rfl
    dsimp only
    rw [hrounds]
    refine .whileLoop hstop ?_ (h.executed body (.head _)) _
    exact .bind (h.evaluated condition (.head _)) fun _ _ => .truthy _
  | loop body => exact .get_bind fun _ _ => .cappedLoop _ (h.executed body (.head _)) _
  | forEach var iterable body =>
    exact .bind (h.evaluated iterable (.head _)) fun _ _ => .bind (.iterationItems _) fun _ hi =>
      .forEach var (h.executed body (.head _)) hi
  | tryCatch body catchName handler =>
    exact .tryCatch catchName (h.executed body (.head _)) (h.executed handler (.tail _ (.head _)))
  | switch subject cases default =>
    obtain ⟨hsubject, hvalues⟩ := List.forall_mem_cons.1 h.evaluated
    obtain ⟨hbodies, hdefault⟩ := List.forall_mem_append.1 h.executed
    refine .bind hsubject fun v _ => .switchCases v hdefault ?_ ?_
    · exact fun k hk => hvalues k.value (List.mem_map.2 ⟨k, hk, rfl⟩)
    · exact fun k hk n hn => hbodies n (List.mem_flatMap.2 ⟨k, hk, hn⟩)
  -- neither is well-formed, so it can only have been run as an expression
  | program | error =>
    rcases hexpr with hexpr | ⟨-, hwf⟩
    · exact .bind hexpr fun _ hv => .pure hv
    · simp [Node.wellFormed] at hwf
  | _ =>
    rcases hexpr with hexpr | ⟨hno, -⟩
    · exact .bind hexpr fun _ hv => .pure hv
    · cases hno

end Supplied

/-! ## What every program keeps -/

namespace Universal

variable (hD : D.Universal)

include hD

/-- Every step at every bound keeps the discipline. -/
theorem steps (bound : Nat) (o : RunOptions) :
    (∀ calls n, D.Safe o calls D.AdmittedFlow (exec bound n) (exec bound n)) ∧
    (∀ calls n, D.Safe o calls D.Admitted (eval bound n) (eval bound n)) ∧
    ∀ calls v args, D.Safe o calls D.Admitted (call bound v args) (call bound v args) := by
  induction bound with
  | zero =>
    exact ⟨fun _ _ => .throw (hD.stops _), fun _ _ => .throw (hD.stops _),
      fun _ _ _ => .throw (hD.stops _)⟩
  | succ bound ih =>
    obtain ⟨hexec, heval, hcall⟩ := ih
    have hsupplied (calls : List Bool) (n : Node) : D.Supplied o calls
        ⟨bound, exec bound, eval bound, call bound⟩ ⟨bound, exec bound, eval bound, call bound⟩ n :=
      .of_steps hD rfl hexec heval (hcall calls) n
    refine ⟨fun calls n => ?_, fun calls n => ?_, fun calls v args => ?_⟩
    · exact (hsupplied calls n).execStep (.inl (heval calls n))
    · exact (hsupplied calls n).evalStep fun _ => hexec calls n
    · -- every value is admitted
      have hall (w : Value) : D.Admitted w := .of_forall hD.admits w
      exact .callValue (hsupplied calls .null).bodies (hall v) fun w _ => hall w

/-- A safe step keeps the discipline in every machine. -/
theorem of_safe {α : Type} {post : α → Prop} {x : Run α}
    (h : ∀ o calls, D.Safe o calls post x x) (m : Machine) :
    D.keeps m (Ending.machine (x m)) := by
  have hend := (h m.options m.collecting m ⟨.of_forall hD.admits m, rfl, rfl⟩).2
  cases hx : x m with
  | ok a m' =>
    rw [hx] at hend
    exact hend.2.1
  | error stop m' =>
    rw [hx] at hend
    exact hend.2.1

/-- Executing a node keeps what the rules keep. -/
theorem exec (bound : Nat) (node : Node) (m : Machine) :
    D.keeps m (Ending.machine (exec bound node m)) :=
  hD.of_safe (fun o calls => (hD.steps bound o).1 calls node) m

/-- So does evaluating one. -/
theorem eval (bound : Nat) (node : Node) (m : Machine) :
    D.keeps m (Ending.machine (eval bound node m)) :=
  hD.of_safe (fun o calls => (hD.steps bound o).2.1 calls node) m

/-- So does calling a value. -/
theorem call (bound : Nat) (callee : Value) (args : List Value) (m : Machine) :
    D.keeps m (Ending.machine (call bound callee args m)) :=
  hD.of_safe (fun o calls => (hD.steps bound o).2.2 calls callee args) m

/-- So does a whole program, however its run ends. -/
theorem execute (bound : Nat) (program : Node) (m : Machine) :
    D.keeps m (m.execute bound program).2 := by
  have h := hD.of_safe (x := Run.sequence (BrailleScript.exec bound) .null program.statements)
    (fun o calls => .sequence trivial fun n _ => (hD.steps bound o).1 calls n) m
  unfold Machine.execute
  generalize Run.sequence (BrailleScript.exec bound) .null program.statements m = e at h
  -- however the program ends, its machine keeps the discipline
  match e with
  | .ok flow m' => exact h
  | .error .conflict m' | .error .exhausted m' => exact h
  | .error (.failed f) m' =>
    dsimp only
    split <;> exact h

end Universal

end Discipline

end BrailleScript
