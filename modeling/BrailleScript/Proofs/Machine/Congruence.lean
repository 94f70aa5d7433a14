import BrailleScript.Machine.Execution
import BrailleScript.Proofs.Ledger.Quiet
import BrailleScript.Proofs.Machine.Plain

/-!
# Congruences of runs

A congruence relates the steps of two runs of a program and is kept by every way in which the
language composes steps: one after another, in a scope, inside a recorded call, under a handler.
Then it is kept by every construct of the language, if the parts of the construct are related.  What
is left to a congruence are the calls of the program's functions, reflected source, the primitives
whose results are kept, and `halt`.

A full congruence is kept by what those primitives do as well: it may look at the surroundings of
the program and change them.

## Key results

- `StepRelation`: the ways in which the language composes steps
- `Congruence.callPrimitive`: a primitive without requests is related to itself, if what it runs is
- `StepsRelated.evalStep`, `StepsRelated.execStep`: one step of an expression or a statement
- `FullCongruence.evalStep`: with all primitives
-/

namespace BrailleScript

namespace Run

/-- What the handler of a `try` does with a failure. -/
def handle (catchName : Option String) (handler : Run Flow) (f : Failure) : Run Flow := do
  let scope ← newScope
  if let some name := catchName then define scope name (.text f.text) false
  inScope scope handler

/-- Goes on with a failure of a step that may be caught. -/
def catching (x : Run Flow) (h : Failure → Run Flow) : Run Flow := fun m =>
  match x m with
  | .error (.failed f) m' => if f.cause.kind.isCatchable then h f m' else .error (.failed f) m'
  | r => r

/-- A try statement catches the failures of its body with its handler. -/
theorem tryCatch_eq (body : Run Flow) (catchName : Option String) (handler : Run Flow) :
    tryCatch body catchName handler = catching body (handle catchName handler) := rfl

/-- A call of a function that is not refused. -/
def calling (traced : Bool) (r : Steps) (f : Closure) (args : List Value) : Run Value := do
  count fun s => { s with calls := s.calls + 1 }
  if traced then
    let input ← args.mapM json
    let v ← enterFunction r f args
    recordCall f.definition input (← json v)
    return v
  else enterFunction r f args

/-- A call is refused at the limit and entered below it. -/
theorem callFunction_eq (r : Steps) (f : Closure) (args : List Value) :
    callFunction r f args = get >>= fun m =>
      if m.options.maxCallDepth ≤ m.frames.length then fail (.callDepth m.options.maxCallDepth)
      else calling m.options.traceDeterministic r f args := rfl

/-- Calls a value, given how the functions of the program are called. -/
def callThrough (call : Closure → List Value → Run Value) (callee : Value) (args : List Value) :
    Run Value :=
  match callee with
  | .builtin b => callBuiltin b args
  | .function _ f => call f args
  | .classValue c => do
    let ref ← make (·.newInstance)
    if let some (method, owner) := c.findMethod "init" then
      let _ ← call (bindMethod ref c method owner) args
    return .object ref c
  | v => fail (.notCallable v.type)

/-- Any value is called through the calls of functions. -/
theorem callValue_eq (r : Steps) : callValue r = callThrough (callFunction r) := by
  funext callee args
  cases callee <;> rfl

/-- A reflection of source text that is not refused. -/
def reflecting (lenient : Bool) (run : List Node → Run Flow) (source : String) : Run Value :=
  match parseSource lenient (Readable.toCells source) with
  | .error e => fail (.reflectFailed e.text)
  | .ok program => return (← inReflection (run program.statements)).value

/-- A reflected program is refused at the limit and run below it. -/
theorem reflect_eq (run : List Node → Run Flow) (source : String) :
    reflect run source = get >>= fun m =>
      if m.options.maxReflectDepth ≤ m.reflectDepth then
        fail (.reflectDepth m.options.maxReflectDepth)
      else reflecting m.options.lenientLiterals run source := rfl

/-- Calls the primitive that reflects, given what becomes of the source. -/
def callReflect (reflect : String → Run Value) (args : List Value) (pos : Pos) : Run Value := do
  let source ← argText args.head?
  let request : Call :=
    { primitive := .reflectExec, args := .array [.text source], metadata := placeOf pos }
  observeValue request (reflect source)

/-- Reflecting checks its argument first. -/
theorem reflectExec_eq (run : List Node → Run Flow) (args : List Value) (pos : Pos) :
    reflectExec run args pos = callReflect (reflect run) args pos := rfl

end Run

/-- A relation between steps that the compositions of steps keep. -/
structure StepRelation where
  rel : {α : Type} → Run α → Run α → Prop
  bind : ∀ {α β : Type} {x y : Run α} {f g : α → Run β},
    rel x y → (∀ a, rel (f a) (g a)) → rel (x >>= f) (y >>= g)
  located : ∀ {α : Type} {x y : Run α} (pos : Pos),
    rel x y → rel (Run.located pos x) (Run.located pos y)
  inScope : ∀ {α : Type} {x y : Run α} (id : ScopeId),
    rel x y → rel (Run.inScope id x) (Run.inScope id y)
  catching : ∀ {x y : Run Flow} {h h' : Failure → Run Flow},
    rel x y → (∀ f, rel (h f) (h' f)) → rel (Run.catching x h) (Run.catching y h')

/-- Such a relation that also relates steps on the program's own state and quiet records to
themselves. -/
structure Congruence extends StepRelation where
  of_plain : ∀ {α : Type} {x : Run α}, Run.Plain x → rel x x
  /-- A step that looks at the program's own state before it goes on. -/
  get_bind : ∀ {α : Type} {f g : Machine → Run α}, (∀ m s, g (m.within s) = g m) →
    (∀ m, rel (f m) (g m)) → rel (get >>= f) (get >>= g)
  /-- Something that is recorded without a request. -/
  record : ∀ {α γ : Type} {f : Ledger → Instant → γ × Ledger} (a : α),
    (∀ (l : Ledger) t, l.Quiet (f l t).2) →
      rel (Run.record f >>= fun _ => pure a) (Run.record f >>= fun _ => pure a)
  /-- A call whose results are never kept. -/
  observe : ∀ {α : Type} {c : Call} {x y : Run (α × Json)} (replay : Json → α),
    c.primitive.isCacheable = false → rel x y →
      rel (Run.observe c replay x) (Run.observe c replay y)

namespace Congruence

variable {C : Congruence} {α β : Type}

/-- A result is related to itself. -/
theorem pure (a : α) : C.rel (Pure.pure a) (Pure.pure a) := C.of_plain (.pure a)

/-- So is every ordinary failure. -/
theorem fail {c : Cause} (h : c.isOrdinary = true) : C.rel (Run.fail c : Run α) (Run.fail c) :=
  C.of_plain (.fail h)

/-- Related steps are related over a list. -/
theorem mapM {f g : α → Run β} (h : ∀ a, C.rel (f a) (g a)) (l : List α) :
    C.rel (l.mapM f) (l.mapM g) := by
  induction l with
  | nil => exact pure []
  | cons a l ih =>
    rw [List.mapM_cons, List.mapM_cons]
    exact C.bind (h a) fun b => C.bind ih fun bs => pure (b :: bs)

/-- They are related when each takes the result of the one before. -/
theorem foldlM {f g : β → α → Run β} (h : ∀ b a, C.rel (f b a) (g b a)) (l : List α) (b : β) :
    C.rel (l.foldlM f b) (l.foldlM g b) := by
  induction l generalizing b with
  | nil => exact pure b
  | cons a l ih =>
    rw [List.foldlM_cons, List.foldlM_cons]
    exact C.bind (h b a) ih

/-! ## Primitives -/

/-- Filling a template is related to itself. -/
theorem promptTemplate (args : List Value) (pos : Pos) :
    C.rel (Run.promptTemplate args pos) (Run.promptTemplate args pos) := by
  refine C.bind (C.of_plain (Run.plain_argText _)) fun template => ?_
  refine C.bind (C.of_plain (Run.plain_json _)) fun j => ?_
  refine C.bind (C.observe _ rfl ?_) fun _ => C.of_plain (.make _)
  exact C.bind (C.of_plain (Run.plain_fillTemplate _ _)) fun _ => pure _

/-- A step of a primitive without a cache is observed alike. -/
theorem observeValue {c : Call} (hc : c.primitive.isCacheable = false) {x y : Run Value}
    (h : C.rel x y) : C.rel (Run.observeValue c x) (Run.observeValue c y) :=
  C.observe _ hc (C.bind h fun _ => C.bind (C.of_plain (Run.plain_json _)) fun _ => pure _)

/-- A pipeline is related when the calls in it are. -/
theorem pipeCompose {call call' : Value → List Value → Run Value}
    (h : ∀ v args, C.rel (call v args) (call' v args)) (args : List Value) (pos : Pos) :
    C.rel (Run.pipeCompose call args pos) (Run.pipeCompose call' args pos) :=
  C.bind (C.of_plain (.mapM Run.plain_json _)) fun _ =>
    observeValue rfl (foldlM (fun v stage => h stage [v]) _ _)

/-- Reflecting is related if running the statements of the source one level deeper is. -/
theorem reflecting {run run' : List Node → Run Flow}
    (h : ∀ stmts, C.rel (Run.inReflection (run stmts)) (Run.inReflection (run' stmts)))
    (lenient : Bool) (source : String) :
    C.rel (Run.reflecting lenient run source) (Run.reflecting lenient run' source) := by
  unfold Run.reflecting
  split
  · exact fail rfl
  · exact C.bind (h _) fun _ => pure _

/-- So it is for source that may be refused, if refusing it is related. -/
theorem reflect {run run' : List Node → Run Flow}
    (hrefuse : ∀ n, C.rel (Run.fail (.reflectDepth n) : Run Value) (Run.fail (.reflectDepth n)))
    (h : ∀ stmts, C.rel (Run.inReflection (run stmts)) (Run.inReflection (run' stmts)))
    (source : String) : C.rel (Run.reflect run source) (Run.reflect run' source) := by
  rw [Run.reflect_eq, Run.reflect_eq]
  refine C.get_bind (fun _ _ => rfl) fun m => ?_
  split
  · exact hrefuse _
  · exact reflecting h _ source

/-- Reflecting is when running the program is. -/
theorem callReflect {reflect reflect' : String → Run Value}
    (h : ∀ source, C.rel (reflect source) (reflect' source)) (args : List Value) (pos : Pos) :
    C.rel (Run.callReflect reflect args pos) (Run.callReflect reflect' args pos) :=
  C.bind (C.of_plain (Run.plain_argText _)) fun source => observeValue rfl (h source)

/-- The primitives without requests run more of the program in the stages of a pipeline and in
reflected text. -/
theorem callPrimitive {call call' : Value → List Value → Run Value}
    {run run' : List Node → Run Flow} (hcall : ∀ v args, C.rel (call v args) (call' v args))
    {p : Primitive}
    (hreflect : p = .reflectExec → ∀ source, C.rel (Run.reflect run source) (Run.reflect run' source))
    (hp : p.isCacheable = false) (args : List Value) (pos : Pos) :
    C.rel (Run.callPrimitive call run p args pos) (Run.callPrimitive call' run' p args pos) := by
  refine C.bind (C.of_plain (.count fun _ => rfl)) fun _ => ?_
  -- primitives with requests are excluded, and a template runs nothing
  cases p with
  | infer | embed | semanticSearch => exact nomatch hp
  | promptTemplate => exact promptTemplate args pos
  | pipeCompose => exact pipeCompose hcall args pos
  | reflectExec =>
    show C.rel (Run.reflectExec run args pos) (Run.reflectExec run' args pos)
    rw [Run.reflectExec_eq, Run.reflectExec_eq]
    exact callReflect (hreflect rfl) args pos

/-! ## Sequences and loops -/

/-- Statements in a row are related. -/
theorem sequence {exec exec' : Node → Run Flow} (h : ∀ n, C.rel (exec n) (exec' n)) (last : Value)
    (stmts : List Node) : C.rel (Run.sequence exec last stmts) (Run.sequence exec' last stmts) := by
  induction stmts generalizing last with
  | nil => exact pure _
  | cons n rest ih =>
    refine C.bind (h n) fun flow => ?_
    cases flow with
    | normal v => exact ih v
    | returned | broken | continued => exact pure _

/-- So is a block. -/
theorem block {exec exec' : Node → Run Flow} (h : ∀ n, C.rel (exec n) (exec' n))
    (stmts : List Node) : C.rel (Run.block exec stmts) (Run.block exec' stmts) :=
  C.bind (C.of_plain Run.plain_newScope) fun id => C.inScope id (sequence h .null stmts)

/-- So is what follows a round of a loop. -/
theorem afterRound (flow : Flow) {x y : Run Flow} (h : C.rel x y) :
    C.rel (Run.afterRound flow x) (Run.afterRound flow y) := by
  cases flow with
  | normal | continued => exact h
  | broken | returned => exact pure _

/-- So is a loop with a condition. -/
theorem whileLoop {condition condition' : Run Bool} {body body' : Run Flow}
    (hc : C.rel condition condition') (hb : C.rel body body') (rounds : Nat) :
    C.rel (Run.whileLoop condition body rounds) (Run.whileLoop condition' body' rounds) := by
  -- the bound of the rounds is the same on both sides
  induction rounds with
  | zero => exact C.of_plain .exhausted
  | succ rounds ih =>
    refine C.bind hc fun again => ?_
    cases again with
    | true => exact C.bind (C.of_plain (.count fun _ => rfl)) fun _ => C.bind hb fun flow => afterRound flow ih
    | false => exact pure _

/-- So is a loop with a cap. -/
theorem cappedLoop {body body' : Run Flow} (cap : Nat) (hb : C.rel body body') (rounds : Nat) :
    C.rel (Run.cappedLoop cap body rounds) (Run.cappedLoop cap body' rounds) := by
  induction rounds with
  | zero => exact C.bind (C.of_plain (.printLine _)) fun _ => pure _
  | succ rounds ih =>
    exact C.bind (C.of_plain (.count fun _ => rfl)) fun _ => C.bind hb fun flow => afterRound flow ih

/-- So is a loop over items. -/
theorem forEach {body body' : Run Flow} (var : String) (hb : C.rel body body')
    (items : List Value) : C.rel (Run.forEach var body items) (Run.forEach var body' items) := by
  induction items with
  | nil => exact pure _
  | cons v rest ih =>
    refine C.bind (C.of_plain (.count fun _ => rfl)) fun _ => ?_
    refine C.bind (C.of_plain Run.plain_newScope) fun scope => ?_
    refine C.bind (C.of_plain (Run.plain_define _ _ _ _)) fun _ => ?_
    exact C.bind (C.inScope scope hb) fun flow => afterRound flow ih

/-- So is a handler. -/
theorem handle (name : Option String) (f : Failure) {x y : Run Flow} (h : C.rel x y) :
    C.rel (Run.handle name x f) (Run.handle name y f) := by
  refine C.bind (C.of_plain Run.plain_newScope) fun scope => ?_
  cases name with
  | none => exact C.inScope scope h
  | some name => exact C.bind (C.of_plain (Run.plain_define _ _ _ _)) fun _ => C.inScope scope h

/-- So is a try statement. -/
theorem tryCatch {x x' y y' : Run Flow} (name : Option String) (hx : C.rel x x')
    (hy : C.rel y y') : C.rel (Run.tryCatch x name y) (Run.tryCatch x' name y') :=
  C.catching hx fun f => handle name f hy

/-- So is the body of a switch. -/
theorem switchBody {exec exec' : Node → Run Flow} (h : ∀ n, C.rel (exec n) (exec' n))
    (stmts : List Node) : C.rel (Run.switchBody exec stmts) (Run.switchBody exec' stmts) := by
  refine C.bind (block h stmts) fun flow => ?_
  cases flow <;> exact pure _

/-! ## Calls -/

/-- Recording a call is related to itself. -/
theorem recordCall (d : FunctionDef Node) (args : List Json) (result : Json) :
    C.rel (Run.recordCall d args result) (Run.recordCall d args result) :=
  C.record _ fun _ _ => .recorded _ _ _ _ _

/-- Entering a function is related if running its body in a frame is. -/
theorem enterFunction {r r' : Steps} {f : Closure} (args : List Value)
    (h : ∀ frame scope, frame.binding = f.binding → C.rel
      (Run.inFrame frame (Run.inScope scope (Run.functionBody r f.definition.body)))
      (Run.inFrame frame (Run.inScope scope (Run.functionBody r' f.definition.body)))) :
    C.rel (Run.enterFunction r f args) (Run.enterFunction r' f args) := by
  refine C.bind (C.of_plain (Run.plain_childOf _)) fun scope => ?_
  refine C.bind (C.of_plain (Run.plain_bindParams _ _ _)) fun _ => ?_
  refine C.bind (h _ scope rfl) fun p => ?_
  obtain ⟨v, yields⟩ := p
  dsimp only
  split
  · exact pure _
  · exact C.of_plain (.make _)

/-- A call that is not refused is related if entering the function is. -/
theorem calling {r r' : Steps} {f : Closure} {args : List Value} (traced : Bool)
    (h : C.rel (Run.enterFunction r f args) (Run.enterFunction r' f args)) :
    C.rel (Run.calling traced r f args) (Run.calling traced r' f args) := by
  refine C.bind (C.of_plain (.count fun _ => rfl)) fun _ => ?_
  split
  · -- both runs record the call: the arguments before it, the result after it
    refine C.bind (C.of_plain (.mapM Run.plain_json _)) fun input => C.bind h fun v => ?_
    refine C.bind (C.of_plain (Run.plain_json _)) fun j => ?_
    exact C.bind (recordCall _ _ _) fun _ => pure _
  · exact h

/-- A call of a function is related if refusing it is, and entering the function.  Whether calls are
recorded is not the program's own state. -/
theorem callFunction {r r' : Steps} {f : Closure} {args : List Value}
    (hget : ∀ {g h : Machine → Run Value},
      (∀ m s, s.traced = m.options.traceDeterministic → h (m.within s) = h m) →
        (∀ m, C.rel (g m) (h m)) → C.rel (get >>= g) (get >>= h))
    (hrefuse : ∀ n, C.rel (Run.fail (.callDepth n) : Run Value) (Run.fail (.callDepth n)))
    (h : C.rel (Run.enterFunction r f args) (Run.enterFunction r' f args)) :
    C.rel (Run.callFunction r f args) (Run.callFunction r' f args) := by
  rw [Run.callFunction_eq, Run.callFunction_eq]
  refine hget (fun m s hs => ?_) fun m => ?_
  · -- the options differ in what is recorded only, which the call does not look at
    have ht : (m.within s).options = m.options := by
      show { m.options with traceDeterministic := s.traced } = _
      rw [hs]
    simp only [ht]
    rfl
  · split
    · exact hrefuse _
    · exact calling _ h

/-- So is noting a boundary. -/
theorem boundary (args : List Value) : C.rel (Run.boundary args) (Run.boundary args) := by
  cases args with
  | nil => exact fail rfl
  | cons v rest =>
    refine C.bind (C.of_plain (Run.plain_text _)) fun label => ?_
    refine C.bind (C.of_plain (Run.plain_boundaryDomain _)) fun domain => ?_
    exact C.record _ fun _ _ => .marked _ _ _

/-- So is the call of a builtin. -/
theorem callBuiltin (b : Builtin) (args : List Value) :
    C.rel (Run.callBuiltin b args) (Run.callBuiltin b args) := by
  have hb : C.rel (Run.applyBuiltin b args) (Run.applyBuiltin b args) := by
    -- only the mark of a boundary goes to the ledger
    by_cases hb : b = .boundary
    · subst hb
      exact boundary args
    · exact C.of_plain (Run.plain_applyBuiltin hb args)
  unfold Run.callBuiltin
  split
  · split
    · exact hb
    · exact fail rfl
  · exact hb

/-- Calling a value is related if calls of the program's functions are. -/
theorem callThrough {call call' : Closure → List Value → Run Value}
    (h : ∀ f args, C.rel (call f args) (call' f args)) (callee : Value) (args : List Value) :
    C.rel (Run.callThrough call callee args) (Run.callThrough call' callee args) := by
  -- a class is called by making an instance
  cases callee with
  | builtin b => exact callBuiltin b args
  | function id f => exact h f args
  | classValue c =>
    refine C.bind (C.of_plain (.make _)) fun ref => ?_
    dsimp only
    cases c.findMethod "init" with
    | none => exact pure _
    | some found => exact C.bind (h _ args) fun _ => pure _
  | _ => exact fail rfl

end Congruence

/-! ## Steps over smaller bounds -/

/-- The parts of two runs at a smaller bound are related. -/
structure Congruence.StepsRelated (C : Congruence) (r r' : Steps) : Prop where
  rounds : r'.rounds = r.rounds
  exec : ∀ n, C.rel (r.exec n) (r'.exec n)
  eval : ∀ n, C.rel (r.eval n) (r'.eval n)
  call : ∀ v args, C.rel (r.call v args) (r'.call v args)

namespace Congruence.StepsRelated

variable {C : Congruence} {r r' : Steps}

/-- An optional expression is related. -/
theorem optionalValue (h : C.StepsRelated r r') (value : Option Node) :
    C.rel (Run.optionalValue r.eval value) (Run.optionalValue r'.eval value) := by
  cases value with
  | none => exact pure _
  | some n => exact h.eval n

/-- So is the body of a function. -/
theorem functionBody (h : C.StepsRelated r r') (body : FunctionBody Node) :
    C.rel (Run.functionBody r body) (Run.functionBody r' body) := by
  cases body with
  | expr e => exact h.eval e
  | block stmts => exact C.bind (sequence h.exec .null stmts) fun _ => pure _

/-- So are the cases of a switch. -/
theorem switchCases (h : C.StepsRelated r r') (subject : Value) (default : Option (List Node))
    (cases : List (SwitchCase Node)) :
    C.rel (Run.switchCases r subject default cases) (Run.switchCases r' subject default cases) := by
  induction cases with
  | nil =>
    cases default with
    | none => exact pure _
    | some stmts => exact switchBody h.exec stmts
  | cons c rest ih =>
    refine C.bind (h.eval c.value) fun v => C.bind (C.of_plain (Run.plain_equal _ _)) fun same => ?_
    cases same with
    | true => exact switchBody h.exec c.body
    | false => exact ih

/-- So is an assignment to any target. -/
theorem assignTo (h : C.StepsRelated r r') (target : Node) (v : Value) :
    C.rel (Run.assignTo r.eval target v) (Run.assignTo r'.eval target v) := by
  cases target with
  | identifier name pos => exact C.of_plain (Run.plain_assignName name v)
  | member object name pos =>
    exact C.bind (h.eval object) fun _ => C.of_plain (Run.plain_setMember _ _ _)
  | index object index pos =>
    exact C.bind (h.eval object) fun _ => C.bind (h.eval index) fun _ =>
      C.of_plain (Run.plain_setItem _ _ _)
  | _ => exact fail rfl

/-- So are the entries of a map. -/
theorem mapEntries (h : C.StepsRelated r r') (entries : Fields Value) (pairs : List (Node × Node)) :
    C.rel (Run.mapEntries r.eval entries pairs) (Run.mapEntries r'.eval entries pairs) := by
  induction pairs generalizing entries with
  | nil => exact pure _
  | cons pair rest ih =>
    exact C.bind (h.eval pair.1) fun _ => C.bind (C.of_plain (Run.plain_text _)) fun _ =>
      C.bind (h.eval pair.2) fun _ => ih _

/-- So are the texts to be printed. -/
theorem printTexts (h : C.StepsRelated r r') (args : List Node) :
    C.rel (Run.printTexts r.eval args) (Run.printTexts r'.eval args) := by
  induction args with
  | nil => exact pure _
  | cons n rest ih =>
    exact C.bind (h.eval n) fun _ => C.bind (C.of_plain (Run.plain_text _)) fun _ =>
      C.bind ih fun _ => pure _

/-- So is a logical expression. -/
theorem logical (h : C.StepsRelated r r') (op : LogicalOp) (left right : Node) :
    C.rel (Run.logical r.eval op left right) (Run.logical r'.eval op left right) := by
  have hright : C.rel (do return .bool (← Run.truthy (← r.eval right)))
      (do return Value.bool (← Run.truthy (← r'.eval right))) :=
    C.bind (h.eval right) fun _ => C.bind (C.of_plain (Run.plain_truthy _)) fun _ => pure _
  refine C.bind (h.eval left) fun _ => C.bind (C.of_plain (Run.plain_truthy _)) fun l => ?_
  -- the right operand is looked at only if the left one does not decide
  cases op <;> cases l <;> first | exact pure _ | exact hright

/-- One step of an expression that calls nothing. -/
theorem evalStep (h : C.StepsRelated r r') {node : Node}
    (hcall : ∀ callee args pos, node ≠ .call callee args pos)
    (hprimitive : ∀ p args pos, node ≠ .primitive p args pos) :
    C.rel (Run.evalStep r node) (Run.evalStep r' node) := by
  -- one case for each kind of expression, and statements are executed
  cases node with
  | call => exact absurd rfl (hcall _ _ _)
  | primitive => exact absurd rfl (hprimitive _ _ _)
  | number | text | bool | null => exact pure _
  | array items => exact C.bind (mapM h.eval items) fun _ => C.of_plain (.make _)
  | map pairs => exact C.bind (h.mapEntries [] pairs) fun _ => C.of_plain (.make _)
  | identifier name pos => exact C.located pos (C.of_plain (Run.plain_lookup name))
  | this pos =>
    refine C.bind (C.of_plain Run.plain_currentBinding) fun binding => ?_
    cases binding with
    | none => exact C.located pos (fail rfl)
    | some b => exact pure _
  | super method pos => exact C.located pos (C.of_plain (Run.plain_superMethod method))
  | lambda d => exact C.of_plain (Run.plain_closure d)
  | assign target value pos =>
    exact C.bind (h.eval value) fun v => C.bind (C.located pos (h.assignTo target v)) fun _ =>
      pure _
  | binary op left right pos =>
    exact C.bind (h.eval left) fun _ => C.bind (h.eval right) fun _ =>
      C.located pos (C.of_plain (Run.plain_binary _ _ _))
  | logical op left right => exact h.logical op left right
  | unary op operand pos =>
    exact C.bind (h.eval operand) fun _ => C.located pos (C.of_plain (Run.plain_unary _ _))
  | await operand => exact h.eval operand
  | member object name pos =>
    exact C.bind (h.eval object) fun _ => C.located pos (C.of_plain (Run.plain_member _ _))
  | index object index pos =>
    exact C.bind (h.eval object) fun _ => C.bind (h.eval index) fun _ =>
      C.located pos (C.of_plain (Run.plain_item _ _))
  | error message => exact fail rfl
  | _ => exact C.bind (h.exec _) fun _ => pure _

/-- One step of a statement that is no `halt`. -/
theorem execStep (h : C.StepsRelated r r') {node : Node} (hn : node ≠ .halt) :
    C.rel (Run.execStep r node) (Run.execStep r' node) := by
  refine C.bind (C.of_plain (.count fun _ => rfl)) fun _ => ?_
  -- one case for each kind of statement, and expressions are evaluated
  cases node with
  | halt => exact absurd rfl hn
  | function d =>
    refine C.bind (C.of_plain (Run.plain_closure d)) fun f => ?_
    exact C.bind (C.located d.pos (C.of_plain (Run.plain_declare _ _ _))) fun _ => pure _
  | declare name value constant pos =>
    exact C.bind (h.optionalValue value) fun _ =>
      C.bind (C.located pos (C.of_plain (Run.plain_declare _ _ _))) fun _ => pure _
  | classDecl name parent methods pos =>
    exact C.bind (C.located pos (C.of_plain (Run.plain_declareClass _ _ _))) fun _ => pure _
  | importModule name pos =>
    refine C.bind (C.located pos (C.of_plain ?_)) fun _ => pure _
    exact .bind (Run.plain_loadModule name) fun _ => Run.plain_declare _ _ _
  | block stmts => exact block h.exec stmts
  | print args =>
    exact C.bind (h.printTexts args) fun _ => C.bind (C.of_plain (.printLine _)) fun _ => pure _
  | returnValue value => exact C.bind (h.optionalValue value) fun _ => pure _
  | yieldValue value =>
    exact C.bind (h.eval value) fun _ => C.bind (C.of_plain (Run.plain_yieldValue _)) fun _ =>
      pure _
  | breakLoop | continueLoop => exact pure _
  | ifElse condition thenBranch elseBranch =>
    refine C.bind (h.eval condition) fun _ => ?_
    refine C.bind (C.of_plain (Run.plain_truthy _)) fun holds => ?_
    cases holds with
    | true => exact h.exec thenBranch
    | false =>
      cases elseBranch with
      | none => exact pure _
      | some n => exact h.exec n
  | whileLoop condition body =>
    dsimp only
    -- the bound of the rounds is the same on both sides
    rw [h.rounds]
    refine whileLoop ?_ (h.exec body) _
    exact C.bind (h.eval condition) fun _ => C.of_plain (Run.plain_truthy _)
  | loop body => exact C.get_bind (fun _ _ => rfl) fun m => cappedLoop _ (h.exec body) _
  | forEach var iterable body =>
    exact C.bind (h.eval iterable) fun _ =>
      C.bind (C.of_plain (Run.plain_iterationItems _)) fun _ => forEach var (h.exec body) _
  | tryCatch body catchName handler =>
    exact tryCatch catchName (h.exec body) (h.exec handler)
  | switch subject cases default =>
    exact C.bind (h.eval subject) fun v => h.switchCases v default cases
  | _ => exact C.bind (h.eval _) fun _ => pure _

end Congruence.StepsRelated

/-! ## Congruences with surroundings -/

/-- A relation that also relates what looks at the surroundings and changes them to itself. -/
structure FullCongruence extends StepRelation where
  /-- A stop that is no halt and refuses no call. -/
  throw : ∀ {α : Type} {stop : Stop}, (∀ f, stop = .failed f → f.cause.isOrdinary = true) →
    rel (throw stop : Run α) (throw stop)
  /-- A change that opens or closes no call and no reflection. -/
  change : ∀ {α : Type} {f : Machine → α × Machine}, (∀ m, (f m).2.standing = m.standing) →
    rel (modifyGet f : Run α) (modifyGet f)
  get_bind : ∀ {α : Type} {f g : Machine → Run α},
    (∀ m, rel (f m) (g m)) → rel (get >>= f) (get >>= g)
  closing : ∀ {α : Type} {x y : Run (α × Json)} (started : Instant) (id : Nat) (c : Call),
    rel x y → rel (Run.closing started id c x) (Run.closing started id c y)

namespace FullCongruence

variable {C : FullCongruence} {α : Type}

/-- A plain step is related to itself, as are the steps that follow. -/
theorem of_plain {x : Run α} (h : Run.Plain x) : C.rel x x := by
  -- a plain step is put together from the five kinds
  induction h with
  | fail hc =>
    refine C.throw fun f hf => ?_
    cases hf
    exact hc
  | conflict | exhausted => exact C.throw fun _ h => nomatch h
  | bind _ _ hx hf => exact C.bind hx hf
  | get_bind _ _ h => exact C.get_bind h
  | modifyGet _ hb => exact C.change hb

/-- Reading the clock. -/
theorem now : C.rel Run.now Run.now :=
  C.get_bind fun _ => C.bind (C.change fun _ => rfl) fun _ => of_plain (.pure _)

/-- Recording in the ledger. -/
theorem record (f : Ledger → Instant → α × Ledger) : C.rel (Run.record f) (Run.record f) :=
  C.bind now fun _ => C.change fun _ => rfl

/-- Asking the backend. -/
theorem ask (f : Backend → Nat → Except String α) : C.rel (Run.ask f) (Run.ask f) :=
  C.get_bind fun _ => C.bind (C.change fun _ => rfl) fun _ => of_plain (.pure _)

/-- A call is observed alike when its steps are related. -/
theorem observe (c : Call) (replay : Json → α) {x y : Run (α × Json)} (h : C.rel x y) :
    C.rel (Run.observe c replay x) (Run.observe c replay y) := by
  refine C.bind (record _) fun opening => ?_
  cases opening with
  | hit output node => exact of_plain (.pure _)
  | pending id => exact C.bind now fun started => C.closing started id c h

/-- A full congruence is a congruence. -/
def toCongruence (C : FullCongruence) : Congruence where
  toStepRelation := C.toStepRelation
  of_plain := of_plain
  get_bind _ := C.get_bind
  record _ _ := C.bind (record _) fun _ => of_plain (.pure _)
  observe replay _ := observe _ replay

/-- So is a call with a JSON result. -/
theorem observeJson (c : Call) {x y : Run Json} (h : C.rel x y) :
    C.rel (Run.observeJson c x) (Run.observeJson c y) :=
  C.bind (observe c id (C.bind h fun _ => of_plain (.pure _))) fun _ => of_plain (.make _)

/-! ## Primitives with requests -/

/-- An inference is related to itself. -/
theorem infer (args : List Value) (pos : Pos) :
    C.rel (Run.infer args pos) (Run.infer args pos) := by
  refine C.bind (of_plain (Run.plain_argText _)) fun prompt => ?_
  refine C.bind (C.get_bind fun _ => of_plain (.pure _)) fun settings => observeJson _ ?_
  refine C.bind (ask _) fun answer => ?_
  cases answer with
  | ok answer => exact of_plain (.pure _)
  | error reason => exact of_plain (.fail rfl)

/-- So is an embedding. -/
theorem embed (args : List Value) (pos : Pos) :
    C.rel (Run.embed args pos) (Run.embed args pos) := by
  refine C.bind (of_plain (Run.plain_argText _)) fun source => observeJson _ ?_
  refine C.bind (ask _) fun answer => ?_
  cases answer with
  | ok vector => exact of_plain (.pure _)
  | error reason => exact of_plain (.fail rfl)

/-- So is every request of a search. -/
theorem askSearch {α : Type} (f : Backend → Nat → Except String α) :
    C.rel (Run.askSearch f) (Run.askSearch f) := by
  refine C.bind (ask _) fun answer => ?_
  cases answer with
  | ok a => exact of_plain (.pure _)
  | error reason => exact of_plain (.fail rfl)

/-- So is the ranking of the documents. -/
theorem rankDocuments (query : String) (docs : List Value) (k : Nat) :
    C.rel (Run.rankDocuments query docs k) (Run.rankDocuments query docs k) := by
  refine C.bind (askSearch _) fun q => ?_
  refine C.bind (C.toCongruence.mapM (fun doc => ?_) docs) fun ranked => ?_
  · exact C.bind (of_plain (Run.plain_text doc)) fun _ => C.bind (askSearch _) fun _ =>
      of_plain (.pure _)
  · exact C.bind (of_plain (.mapM Run.plain_json _)) fun _ => of_plain (.pure _)

/-- So is the search. -/
theorem semanticSearch (args : List Value) (pos : Pos) :
    C.rel (Run.semanticSearch args pos) (Run.semanticSearch args pos) :=
  C.bind (of_plain (Run.plain_argText _)) fun _ =>
    C.bind (of_plain (Run.plain_searchDocuments _)) fun _ =>
      C.bind (of_plain (.mapM Run.plain_json _)) fun _ => observeJson _ (rankDocuments _ _ _)

/-- The call of a primitive is related when the calls in it and the programs it reflects are. -/
theorem callPrimitive {call call' : Value → List Value → Run Value}
    {run run' : List Node → Run Flow} (hcall : ∀ v args, C.rel (call v args) (call' v args))
    {p : Primitive}
    (hreflect : p = .reflectExec → ∀ source, C.rel (Run.reflect run source) (Run.reflect run' source))
    (args : List Value) (pos : Pos) :
    C.rel (Run.callPrimitive call run p args pos) (Run.callPrimitive call' run' p args pos) := by
  cases p with
  | infer => exact C.bind (of_plain (.count fun _ => rfl)) fun _ => infer args pos
  | embed => exact C.bind (of_plain (.count fun _ => rfl)) fun _ => embed args pos
  | semanticSearch => exact C.bind (of_plain (.count fun _ => rfl)) fun _ => semanticSearch args pos
  | promptTemplate | pipeCompose | reflectExec =>
    exact C.toCongruence.callPrimitive hcall hreflect rfl args pos

/-- A call is related when refusing it and entering its function are. -/
theorem callFunction {r r' : Steps} {f : Closure} {args : List Value}
    (hrefuse : ∀ n, C.rel (Run.fail (.callDepth n) : Run Value) (Run.fail (.callDepth n)))
    (h : C.rel (Run.enterFunction r f args) (Run.enterFunction r' f args)) :
    C.rel (Run.callFunction r f args) (Run.callFunction r' f args) :=
  C.toCongruence.callFunction (fun _ => C.get_bind) hrefuse h

/-- One step of an expression that is no call. -/
theorem evalStep {r r' : Steps} (h : C.toCongruence.StepsRelated r r')
    (hreflect : ∀ source, C.rel (Run.reflect (Run.sequence r.exec .null) source)
      (Run.reflect (Run.sequence r'.exec .null) source)) {node : Node}
    (hn : ∀ callee args pos, node ≠ .call callee args pos) :
    C.rel (Run.evalStep r node) (Run.evalStep r' node) := by
  cases node with
  | call => exact absurd rfl (hn _ _ _)
  | primitive p args pos =>
    exact C.bind (C.toCongruence.mapM h.eval args) fun _ => C.located pos
      (callPrimitive h.call (fun _ => hreflect) _ pos)
  | _ => exact h.evalStep nofun nofun

end FullCongruence

end BrailleScript
