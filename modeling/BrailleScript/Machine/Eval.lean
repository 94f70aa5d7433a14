import BrailleScript.Machine.Access
import BrailleScript.Machine.Builtins
import BrailleScript.Machine.Operation
import BrailleScript.Machine.Primitives
import BrailleScript.Node.Outline

/-!
# Running programs

`exec`, `eval` and `call` execute statements, evaluate expressions and call values.  Each of them
is one step over the three at the next smaller bound (`Steps`), so the bound limits how deep they
nest; it also limits how often a `while` loop goes round.  A run that meets the bound ends as
`exhausted`, which is no failure of the program.
-/

namespace BrailleScript

/-- Executing, evaluating and calling within a bound. -/
structure Steps where
  /-- How often a `while` loop may go round. -/
  rounds : Nat
  exec : Node → Run Flow
  eval : Node → Run Value
  call : Value → List Value → Run Value

namespace Run

/-! ## Sequences and loops -/

/-- Executes statements one after another; `last` is the value so far. -/
def sequence (exec : Node → Run Flow) (last : Value) : List Node → Run Flow
  | [] => return .normal last
  | s :: rest => do
    match ← exec s with
    | .normal v => sequence exec v rest
    -- a jump or a `return` leaves out the statements behind it
    | flow => return flow

/-- Executes statements in a scope of their own. -/
def block (exec : Node → Run Flow) (stmts : List Node) : Run Flow := do
  inScope (← newScope) (sequence exec .null stmts)

/-- What a round of a loop leads to: the end of the loop, or another round. -/
def afterRound (flow : Flow) (again : Run Flow) : Run Flow :=
  match flow with
  | .broken => return .normal .null
  | .returned v => return .returned v
  | .normal _ | .continued => again

/-- Goes round while the condition holds. -/
def whileLoop (condition : Run Bool) (body : Run Flow) : (rounds : Nat) → Run Flow
  | 0 => throw Stop.exhausted
  | rounds + 1 => do
    if ← condition then
      countIteration
      afterRound (← body) (whileLoop condition body rounds)
    else return .normal .null

/-- Goes round a number of times; reaching it is reported in the output. -/
def cappedLoop (cap : Nat) (body : Run Flow) : (rounds : Nat) → Run Flow
  | 0 => do
    -- the cap ends the loop and not the program
    printLine ("[loop] iteration cap of " ++ toString cap ++ " reached, exiting loop")
    return .normal .null
  | rounds + 1 => do
    countIteration
    afterRound (← body) (cappedLoop cap body rounds)

/-- Goes round once for each item, in a scope that binds the item. -/
def forEach (var : String) (body : Run Flow) : List Value → Run Flow
  | [] => return .normal .null
  | v :: rest => do
    countIteration
    -- a scope for each round, so functions that are made in it keep the item of their round
    let scope ← newScope
    define scope var v false
    afterRound (← inScope scope body) (forEach var body rest)

/-- Runs the handler if the body fails, unless the program was halted. -/
def tryCatch (body : Run Flow) (catchName : Option String) (handler : Run Flow) : Run Flow := fun m =>
  match body m with
  | .error (.failed f) m' =>
    if f.cause.kind.isCatchable then
      -- what the body did before it failed stays done
      (do
        let scope ← newScope
        if let some name := catchName then define scope name (.text f.text) false
        inScope scope handler) m'
    else .error (.failed f) m'
  | r => r

/-- A `break` ends the switch it stands in. -/
def switchBody (exec : Node → Run Flow) (stmts : List Node) : Run Flow := do
  match ← block exec stmts with
  | .broken => return .normal .null
  | flow => return flow

/-- Executes the first case whose value equals the subject, or else the default. -/
def switchCases (r : Steps) (subject : Value) (default : Option (List Node)) :
    List (SwitchCase Node) → Run Flow
  | [] =>
    match default with
    | some stmts => switchBody r.exec stmts
    | none => return .normal .null
  | c :: rest => do
    if ← equal (← r.eval c.value) subject then switchBody r.exec c.body
    else switchCases r subject default rest

/-! ## Declarations -/

/-- The value of an expression, or `null` if there is none. -/
def optionalValue (eval : Node → Run Value) : Option Node → Run Value
  | some n => eval n
  | none => return .null

/-- The class that a class extends. -/
def parentClass (className : String) : Option String → Run (Option Class)
  | none => return none
  | some name => do
    match ← lookup name with
    | .classValue c => return some c
    | v => fail (.cannotExtend className v.type)

/-- Declares a class in the current scope. -/
def declareClass (name : String) (parent : Option String) (methods : List (FunctionDef Node)) :
    Run Unit := do
  let parent ← parentClass name parent
  let scope := (← get).scope
  let c ← make fun h => (Class.mk h.made name methods parent scope, { h with made := h.made + 1 })
  declare name (.classValue c) false

/-- A function of the current scope. -/
def closure (d : FunctionDef Node) : Run Value := do
  newFunction ⟨d, (← get).scope, none⟩

/-! ## Calls -/

/-- Runs the body of a function. -/
def functionBody (r : Steps) : FunctionBody Node → Run Value
  | .expr e => r.eval e
  | .block stmts => do return (← sequence r.exec .null stmts).value

/-- Binds parameters; missing arguments are `null` and further ones are dropped. -/
def bindParams (scope : ScopeId) : List String → List Value → Run Unit
  | [], _ => return ()
  | p :: params, [] => do
    define scope p .null false
    bindParams scope params []
  | p :: params, v :: args => do
    define scope p v false
    bindParams scope params args

/-- Records a call of a function of the program. -/
def recordCall (d : FunctionDef Node) (args : List Json) (result : Json) : Run Unit := do
  let _ ← record fun l t =>
    l.recordStep mainThread t ("call:" ++ d.displayName) (.array args) result

/-- Runs a function on its arguments; a function that yields values gives the array of them. -/
def enterFunction (r : Steps) (f : Closure) (args : List Value) : Run Value := do
  -- the scope lies in that of the definition, not in that of the call
  let scope ← childOf f.scope
  bindParams scope f.definition.params args
  let frame : Frame := ⟨f.binding, if f.definition.isGenerator then some #[] else none⟩
  let (v, yields) ← inFrame frame (inScope scope (functionBody r f.definition.body))
  -- a function that has yielded nothing gives the value of its body
  if yields.isEmpty then return v else newArray yields

/-- Calls a function of the program. -/
def callFunction (r : Steps) (f : Closure) (args : List Value) : Run Value := do
  let m ← get
  if m.options.maxCallDepth ≤ m.frames.length then fail (.callDepth m.options.maxCallDepth)
  else
    count fun s => { s with calls := s.calls + 1 }
    if m.options.traceDeterministic then
      -- the arguments are recorded as they were before the body could change them
      let input ← args.mapM json
      let v ← enterFunction r f args
      recordCall f.definition input (← json v)
      return v
    else enterFunction r f args

/-- Makes an object of a class and runs its `init` method. -/
def instantiate (r : Steps) (c : Class) (args : List Value) : Run Value := do
  let ref ← make (·.newInstance)
  if let some (method, owner) := c.findMethod "init" then
    -- what `init` gives is dropped
    let _ ← callFunction r (bindMethod ref c method owner) args
  return .object ref c

/-- Calls a built-in function with the right number of arguments. -/
def callBuiltin (b : Builtin) (args : List Value) : Run Value :=
  match b.arity? with
  | some n =>
    if n = args.length then applyBuiltin b args else fail (.arity b.name n args.length)
  | none => applyBuiltin b args

/-- Calls a value. -/
def callValue (r : Steps) (callee : Value) (args : List Value) : Run Value :=
  match callee with
  | .builtin b => callBuiltin b args
  | .function _ f => callFunction r f args
  | .classValue c => instantiate r c args
  | v => fail (.notCallable v.type)

/-! ## Expressions -/

/-- Gives a value to a name, a member or an item. -/
def assignTo (eval : Node → Run Value) (target : Node) (v : Value) : Run Unit :=
  match target with
  | .identifier name _ => assignName name v
  | .member object name _ => do setMember (← eval object) name v
  | .index object index _ => do
    let o ← eval object
    setItem o (← eval index) v
  | other => fail (.invalidTarget other.outline.compact)

/-- The entries of a map literal; a later key replaces an earlier one. -/
def mapEntries (eval : Node → Run Value) (entries : Fields Value) :
    List (Node × Node) → Run (Fields Value)
  | [] => return entries
  | (k, n) :: rest => do
    let key ← text (← eval k)
    let v ← eval n
    mapEntries eval (entries.insert key v) rest

/-- The texts of the arguments of a `print`. -/
def printTexts (eval : Node → Run Value) : List Node → Run (List String)
  | [] => return []
  | n :: rest => do
    let s ← text (← eval n)
    return s :: (← printTexts eval rest)

/-- Two conditions, the second only if it matters. -/
def logical (eval : Node → Run Value) (op : LogicalOp) (left right : Node) : Run Value := do
  let l ← truthy (← eval left)
  match op with
  | .and => if l then return .bool (← truthy (← eval right)) else return .bool false
  | .or => if l then return .bool true else return .bool (← truthy (← eval right))

/-- One step of an evaluation. -/
def evalStep (r : Steps) (node : Node) : Run Value :=
  match node with
  | .number x => return .number x
  | .text s => return .text s
  | .bool b => return .bool b
  | .null => return .null
  | .array items => do newArray (← items.mapM r.eval).toArray
  | .map pairs => do newMap (← mapEntries r.eval [] pairs)
  | .identifier name pos => located pos (lookup name)
  | .this pos => do
    match ← currentBinding with
    | some b => return b.this
    | none => located pos (fail .thisOutside)
  | .super method pos => located pos (superMethod method)
  | .assign target value pos => do
    -- the value comes first, then the parts of the target
    let v ← r.eval value
    located pos (assignTo r.eval target v)
    return v
  | .lambda d => closure d
  | .binary op left right pos => do
    let l ← r.eval left
    let v ← r.eval right
    located pos (binary op l v)
  | .logical op left right => logical r.eval op left right
  | .unary op operand pos => do
    let v ← r.eval operand
    located pos (unary op v)
  | .await operand => r.eval operand
  | .call callee args pos => do
    let f ← r.eval callee
    let argv ← args.mapM r.eval
    located pos (callValue r f argv)
  | .member object name pos => do
    let v ← r.eval object
    located pos (member v name)
  | .index object index pos => do
    let v ← r.eval object
    let i ← r.eval index
    located pos (item v i)
  | .primitive p args pos => do
    let argv ← args.mapM r.eval
    located pos (callPrimitive r.call (sequence r.exec .null) p argv pos)
  | .error message => fail (.malformed message)
  -- a statement in the place of an expression is executed for its value
  | .program _ | .declare .. | .function _ | .classDecl .. | .importModule .. | .block _ | .print _
  | .returnValue _ | .yieldValue _ | .breakLoop | .continueLoop | .halt | .ifElse .. | .whileLoop ..
  | .loop _ | .forEach .. | .tryCatch .. | .switch .. => do
    return (← r.exec node).value

/-! ## Statements -/

/-- One step of an execution. -/
def execStep (r : Steps) (node : Node) : Run Flow := do
  count fun s => { s with statements := s.statements + 1 }
  match node with
  | .declare name value constant pos =>
    let v ← optionalValue r.eval value
    located pos (declare name v constant)
    return .normal .null
  | .function d =>
    let f ← closure d
    located d.pos (declare d.displayName f false)
    return .normal .null
  | .classDecl name parent methods pos =>
    located pos (declareClass name parent methods)
    return .normal .null
  | .importModule name pos =>
    located pos do declare name (← loadModule name) false
    return .normal .null
  | .block stmts => block r.exec stmts
  | .print args =>
    printLine (" ".intercalate (← printTexts r.eval args))
    return .normal .null
  | .returnValue value => return .returned (← optionalValue r.eval value)
  | .yieldValue value =>
    yieldValue (← r.eval value)
    return .normal .null
  | .breakLoop => return .broken
  | .continueLoop => return .continued
  | .halt => fail .halted
  | .ifElse condition thenBranch elseBranch =>
    if ← truthy (← r.eval condition) then r.exec thenBranch
    else
      match elseBranch with
      | some n => r.exec n
      | none => return .normal .null
  | .whileLoop condition body =>
    whileLoop (do truthy (← r.eval condition)) (r.exec body) r.rounds
  | .loop body =>
    let cap := (← get).options.maxLoopIterations
    cappedLoop cap (r.exec body) cap
  | .forEach var iterable body =>
    let v ← r.eval iterable
    forEach var (r.exec body) (← iterationItems v)
  | .tryCatch body catchName handler => tryCatch (r.exec body) catchName (r.exec handler)
  | .switch subject cases default =>
    let v ← r.eval subject
    switchCases r v default cases
  -- what is left are expressions in the place of statements
  | _ => return .normal (← r.eval node)

end Run

/-! ## Bounded runs -/

mutual

/-- Executes a statement. -/
def exec : (bound : Nat) → Node → Run Flow
  | 0, _ => throw Stop.exhausted
  | n + 1, node => Run.execStep ⟨n, exec n, eval n, call n⟩ node

/-- Evaluates an expression. -/
def eval : (bound : Nat) → Node → Run Value
  | 0, _ => throw Stop.exhausted
  | n + 1, node => Run.evalStep ⟨n, exec n, eval n, call n⟩ node

/-- Calls a value. -/
def call : (bound : Nat) → Value → List Value → Run Value
  | 0, _, _ => throw Stop.exhausted
  | n + 1, callee, args => Run.callValue ⟨n, exec n, eval n, call n⟩ callee args

end

end BrailleScript
