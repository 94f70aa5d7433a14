import BrailleScript.Error
import BrailleScript.JavaScript.Name
import BrailleScript.JavaScript.Preamble
import BrailleScript.Json.Printer
import BrailleScript.Node.Outline
import BrailleScript.Number

/-!
# From program trees to JavaScript

Each node becomes one construct of the host language; where the meanings differ, the emitted code
calls its support code.  What surrounds a node (indentation, the construct that a `break` leaves,
whether yields are collected) is passed down in a `Context`.  Only two things are threaded through:
the names declared so far in the current block, which turn a second declaration into an assignment,
and the count of labels.

A tree that no program has, such as a statement inside an expression, has no counterpart; a
placeholder stands for it.  What the placeholder looks like is a parameter of the emission
(`compileWith`), so that what does not depend on it can be said to contain none.
-/

namespace BrailleScript.JavaScript

/-- How code is emitted. -/
structure EmitOptions where
  /-- The iteration cap that is built into `loop`. -/
  maxLoopIterations : Nat := 100000
  includePreamble : Bool := true
  deriving Repr

/-- What surrounds a node. -/
structure Context where
  indent : Nat
  /-- The label of the innermost construct that `break` leaves, if that is a switch. -/
  breakLabel : Option Nat
  /-- Whether the enclosing function collects yielded values. -/
  generator : Bool
  cap : Nat

namespace Context

/-- The place one level further in. -/
def deeper (ctx : Context) : Context :=
  { ctx with indent := ctx.indent + 1 }

/-- Inside a loop, `break` needs no label. -/
def inLoop (ctx : Context) : Context :=
  { ctx with breakLabel := none }

/-- Inside a switch, `break` leaves its label. -/
def inSwitch (ctx : Context) (label : Nat) : Context :=
  { ctx with breakLabel := some label }

/-- Inside a function, no construct around the function can be left. -/
def inFunction (ctx : Context) (generator : Bool) : Context :=
  { ctx with breakLabel := none, generator := generator }

/-- The spaces in front of a line. -/
def indentation (ctx : Context) : String :=
  String.ofList (List.replicate (2 * ctx.indent) ' ')

/-- A text on a line of its own. -/
def line (ctx : Context) (text : String) : String :=
  ctx.indentation ++ text ++ "\n"

end Context

/-- What is threaded through the emission. -/
structure EmitState where
  /-- Names declared in the current block. -/
  declared : List String := []
  labels : Nat := 0

/-- A step of the emitter. -/
abbrev Emit := StateM EmitState

/-- Declares a name in the current block; tells whether it is new there. -/
def declareName (name : String) : Emit Bool := do
  let s ← get
  if s.declared.contains name then return false
  else
    set { s with declared := name :: s.declared }
    return true

/-- A label not used before. -/
def newLabel : Emit Nat := do
  let s ← get
  set { s with labels := s.labels + 1 }
  return s.labels + 1

/-- Emits in a block of its own, where `names` are declared from the start. -/
def withNames {α : Type} (names : List String) (x : Emit α) : Emit α := do
  let outer := (← get).declared
  modify fun s => { s with declared := names }
  let a ← x
  modify fun s => { s with declared := outer }
  return a

/-- Statements between braces. -/
def braces (ctx : Context) (body : String) : String :=
  "\x7b\n" ++ body ++ ctx.indentation ++ "\x7d"

/-- Statements between braces in a block of their own. -/
def inBlock (ctx : Context) (names : List String) (emit : Context → Emit String) :
    Emit String := do
  let inner ← withNames names (emit ctx.deeper)
  return braces ctx inner

/-- Puts a space into every end mark of a comment. -/
def guardComment : List Char → List Char
  | '*' :: '/' :: rest => '*' :: ' ' :: '/' :: guardComment rest
  | c :: rest => c :: guardComment rest
  | [] => []

/-- A placeholder for what has no counterpart. -/
def unsupported (what : String) : String :=
  "/* unsupported: " ++ String.ofList (guardComment what.toList) ++ " */"

/-- Where a node stands: on lines of its own, as the body of a construct, behind `else`, or inside
an expression. -/
inductive Form where
  | standing | body | chained | expression
  deriving DecidableEq

/-- Some texts with commas between them. -/
def commaList (texts : List String) : String :=
  ", ".intercalate texts

/-- The parameters of a function under their emitted names. -/
def paramList (params : List String) : String :=
  commaList (params.map sanitize)

/-- The code of a conjunction. -/
def bothText (l r : String) : String :=
  "(__truthy(" ++ l ++ ") && __truthy(" ++ r ++ "))"

/-- The code of a disjunction. -/
def eitherText (l r : String) : String :=
  "(__truthy(" ++ l ++ ") || __truthy(" ++ r ++ "))"

/-- The code of a logical operation. -/
def logicalText (op : LogicalOp) (l r : String) : String :=
  match op with
  | .and => bothText l r
  | .or => eitherText l r

/-- The code of an operation with one operand. -/
def unaryText (op : UnaryOp) (v : String) : String :=
  match op with
  | .not => "!__truthy(" ++ v ++ ")"
  | .negate => "(-" ++ v ++ ")"

/-- The guard at the start of a capped loop. -/
def loopGuard (cap : Nat) : String :=
  let message := "[loop] iteration cap of " ++ toString cap ++ " reached, exiting loop"
  "if (__n >= " ++ toString cap ++ ") \x7b console.log(" ++ Json.quote message ++ "); break; \x7d"

/-- The body of a function that collects its yields around the block that produces them. -/
def collecting (ctx : Context) (inner : String) : String :=
  braces ctx
    (ctx.deeper.line "const __y = [];" ++
      ctx.deeper.line ("const __r = await (async () => " ++ inner ++ ")();") ++
      ctx.deeper.line "return __y.length ? __y : __r;")

section

variable (placeholder : String → String)

/-- Emits lines in the place of a statement; a body gets braces and a block of its own. -/
def asLines (form : Form) (ctx : Context) (emit : Context → Emit String) : Emit String :=
  match form with
  | .standing => emit ctx
  | .body | .chained => inBlock ctx [] emit
  | .expression => return placeholder "statement in expression position" ++ " null"

/-- Emits an expression, which ends with a semicolon where a statement is wanted. -/
def asExpression (form : Form) (ctx : Context) (emit : Context → Emit String) : Emit String :=
  match form with
  | .expression => emit ctx
  | _ => asLines placeholder form ctx fun ctx => do return ctx.line ((← emit ctx) ++ ";")

/-- The emitted form of an operator between two emitted operands. -/
def binaryText (op : Operator) (l r : String) : String :=
  match op with
  | .plus => "__add(" ++ l ++ ", " ++ r ++ ")"
  | .slash => "__div(" ++ l ++ ", " ++ r ++ ")"
  | .percent => "__mod(" ++ l ++ ", " ++ r ++ ")"
  | .equal => "__eq(" ++ l ++ ", " ++ r ++ ")"
  | .notEqual => "!__eq(" ++ l ++ ", " ++ r ++ ")"
  | .both => bothText l r
  | .either => eitherText l r
  | .minus | .star | .less | .lessEqual | .greater | .greaterEqual =>
    "(" ++ l ++ " " ++ op.lexeme ++ " " ++ r ++ ")"
  -- these stand between no operands in a parsed program
  | .bang | .assign | .arrow | .pipe | .dot => placeholder op.lexeme ++ " null"

variable (reflect : Context → String → Emit String)

mutual

/-- The emitted code of a node in its place. -/
def emit (form : Form) (ctx : Context) : Node → Emit String
  | .declare name value constant _ => asLines placeholder form ctx fun ctx => do
    let js := sanitize name
    let v ← emitOption ctx value
    -- a name that the block has already is assigned instead
    if ← declareName js then
      return ctx.line ((if constant then "const " else "let ") ++ js ++ " = " ++ v ++ ";")
    else return ctx.line (js ++ " = " ++ v ++ ";")
  | .function d => asLines placeholder form ctx fun ctx => do
    let js := sanitize d.displayName
    -- whether the name is new is not looked at for a function
    let _ ← declareName js
    let body ← emitFunction ctx false d
    return ctx.line ("async function " ++ js ++ "(" ++ paramList d.params ++ ") " ++ body)
  | .classDecl name parent methods _ => asLines placeholder form ctx fun ctx => do
    let js := sanitize name
    let head :=
      match parent with
      | some p => "class " ++ js ++ " extends " ++ sanitize p ++ " \x7b"
      | none => "class " ++ js ++ " \x7b"
    let first := if ← declareName js then ctx.line head else ctx.line (js ++ " = " ++ head)
    let body ← emitMethods ctx.deeper methods
    return first ++ body ++ ctx.line "\x7d"
  | .importModule module _ => asLines placeholder form ctx fun ctx => do
    let js := sanitize module
    let keyword := if ← declareName js then "const " else ""
    return ctx.line (keyword ++ js ++ " = __module(" ++ Json.quote module ++ ");")
  | .block items =>
    match form with
    | .standing => do return ctx.line (← inBlock ctx [] fun ctx => emitLines ctx items)
    | .body | .chained => inBlock ctx [] fun ctx => emitLines ctx items
    | .expression => asLines placeholder form ctx fun _ => return ""
  | .print args => asLines placeholder form ctx fun ctx => do
    let args ← emitAll ctx args
    return ctx.line ("__print(" ++ commaList args ++ ");")
  | .returnValue value => asLines placeholder form ctx fun ctx => do
    let v ← emitOption ctx value
    return ctx.line ("return " ++ v ++ ";")
  | .yieldValue value => asLines placeholder form ctx fun ctx => do
    let v ← emit .expression ctx value
    -- outside of a function that collects, a yield fails when it runs
    if ctx.generator then return ctx.line ("__y.push(" ++ v ++ ");")
    else return ctx.line "__fail(\"TypeMismatch\", \"yield outside of a function\");"
  | .breakLoop => asLines placeholder form ctx fun ctx => do
    match ctx.breakLabel with
    | some n => return ctx.line ("break __sw" ++ toString n ++ ";")
    | none => return ctx.line "break;"
  | .continueLoop => asLines placeholder form ctx fun ctx => return ctx.line "continue;"
  | .halt => asLines placeholder form ctx fun ctx => return ctx.line "throw new __Halt();"
  | .ifElse condition thenBranch elseBranch =>
    let chain (ctx : Context) : Emit String := do
      let c ← emit .expression ctx condition
      let t ← emit .body ctx thenBranch
      let e ← emitElse ctx elseBranch
      return "if (__truthy(" ++ c ++ ")) " ++ t ++ e
    match form with
    | .chained => chain ctx
    | _ => asLines placeholder form ctx fun ctx => do return ctx.line (← chain ctx)
  | .whileLoop condition body => asLines placeholder form ctx fun ctx => do
    let c ← emit .expression ctx condition
    let b ← emit .body ctx.inLoop body
    return ctx.line ("while (__truthy(" ++ c ++ ")) " ++ b)
  | .loop body => asLines placeholder form ctx fun ctx => do
    let inner ← withNames [] (emit .standing ctx.inLoop.deeper body)
    let b := braces ctx (ctx.deeper.line (loopGuard ctx.cap) ++ inner)
    return ctx.line ("for (let __n = 0; ; __n++) " ++ b)
  | .forEach var iterable body => asLines placeholder form ctx fun ctx => do
    let js := sanitize var
    let it ← emit .expression ctx iterable
    let inner ← withNames [js] (emit .body ctx.inLoop.deeper body)
    return ctx.line ("for (const " ++ js ++ " of __iter(" ++ it ++ ")) " ++
      braces ctx (ctx.deeper.line inner))
  | .tryCatch body catchName handler => asLines placeholder form ctx fun ctx => do
    let b ← emit .body ctx body
    let names := catchName.toList.map sanitize
    let prologue := "if (__e instanceof __Halt) throw __e;" ::
      names.map fun n => "let " ++ n ++ " = __errText(__e);"
    let inner ← withNames names (emit .body ctx.deeper handler)
    let h := braces ctx (String.join (prologue.map ctx.deeper.line) ++ ctx.deeper.line inner)
    return ctx.line ("try " ++ b ++ " catch (__e) " ++ h)
  | .switch subject cases default => asLines placeholder form ctx fun ctx => do
    let n ← newLabel
    let s ← emit .expression ctx subject
    let inside := ctx.deeper.inSwitch n
    let branches ← emitCases inside n cases
    let last ← emitDefault inside default
    let chain := " else ".intercalate (branches ++ last)
    return ctx.line ("__sw" ++ toString n ++ ": \x7b") ++
      ctx.deeper.line ("const __s" ++ toString n ++ " = " ++ s ++ ";") ++
      (if chain.isEmpty then "" else ctx.deeper.line chain) ++
      ctx.line "\x7d"
  | .program items => asLines placeholder form ctx fun ctx => emitLines ctx items
  | .error message =>
    match form with
    | .expression => return placeholder message ++ " null"
    | _ => asLines placeholder form ctx fun ctx => return ctx.line (placeholder message)
  | .number x => asExpression placeholder form ctx fun _ => return Number.text x
  | .text s => asExpression placeholder form ctx fun _ => return Json.quote s
  | .bool b => asExpression placeholder form ctx fun _ => return if b then "true" else "false"
  | .null => asExpression placeholder form ctx fun _ => return "null"
  | .array items => asExpression placeholder form ctx fun ctx => do
    return "[" ++ commaList (← emitAll ctx items) ++ "]"
  | .map pairs => asExpression placeholder form ctx fun ctx => do
    return "(\x7b" ++ commaList (← emitPairs ctx pairs) ++ "\x7d)"
  | .identifier name _ => asExpression placeholder form ctx fun _ => return sanitize name
  | .this _ => asExpression placeholder form ctx fun _ => return "this"
  | .super method _ => asExpression placeholder form ctx fun _ =>
    return "super[" ++ Json.quote method ++ "].bind(this)"
  | .assign target value _ => asExpression placeholder form ctx fun ctx => do
    let v ← emit .expression ctx value
    match target with
    | .identifier name _ => return "(" ++ sanitize name ++ " = " ++ v ++ ")"
    | .member object name _ =>
      let o ← emit .expression ctx object
      return "(" ++ o ++ "[" ++ Json.quote name ++ "] = " ++ v ++ ")"
    | .index object index _ =>
      let o ← emit .expression ctx object
      let i ← emit .expression ctx index
      return "__setIndex(" ++ o ++ ", " ++ i ++ ", " ++ v ++ ")"
    | _ => return placeholder "assignment target" ++ " null"
  | .lambda d => asExpression placeholder form ctx fun ctx => do
    return "(async (" ++ paramList d.params ++ ") => " ++ (← emitFunction ctx true d) ++ ")"
  | .binary op left right _ => asExpression placeholder form ctx fun ctx => do
    let l ← emit .expression ctx left
    let r ← emit .expression ctx right
    return binaryText placeholder op l r
  | .logical op left right => asExpression placeholder form ctx fun ctx => do
    let l ← emit .expression ctx left
    let r ← emit .expression ctx right
    return logicalText op l r
  | .unary op operand _ => asExpression placeholder form ctx fun ctx => do
    return unaryText op (← emit .expression ctx operand)
  | .await operand => asExpression placeholder form ctx fun ctx => do
    return "(await " ++ (← emit .expression ctx operand) ++ ")"
  | .call (.member object name _) args _ => asExpression placeholder form ctx fun ctx => do
    let a := commaList (← emitAll ctx args)
    let o ← emit .expression ctx object
    return "(await __callm(" ++ o ++ ", " ++ Json.quote name ++ ", [" ++ a ++ "]))"
  | .call (.super method _) args _ => asExpression placeholder form ctx fun ctx => do
    let a := commaList (← emitAll ctx args)
    return "(await super[" ++ Json.quote method ++ "](" ++ a ++ "))"
  | .call callee args _ => asExpression placeholder form ctx fun ctx => do
    let a := commaList (← emitAll ctx args)
    let c ← emit .expression ctx callee
    return "(await __call(" ++ c ++ ", [" ++ a ++ "]))"
  | .member object name _ => asExpression placeholder form ctx fun ctx => do
    return (← emit .expression ctx object) ++ "[" ++ Json.quote name ++ "]"
  | .index object index _ => asExpression placeholder form ctx fun ctx => do
    let o ← emit .expression ctx object
    let i ← emit .expression ctx index
    return o ++ "[" ++ i ++ "]"
  | .primitive p args _ => asExpression placeholder form ctx fun ctx => do
    match p, args with
    | .reflectExec, .text source :: _ => reflect ctx source
    | _, _ => return "(await __prim." ++ p.name ++ "(" ++ commaList (← emitAll ctx args) ++ "))"

/-- An expression that may be missing. -/
def emitOption (ctx : Context) : Option Node → Emit String
  | none => return "null"
  | some n => emit .expression ctx n

/-- Expressions one by one. -/
def emitAll (ctx : Context) : List Node → Emit (List String)
  | [] => return []
  | n :: rest => do
    let text ← emit .expression ctx n
    let texts ← emitAll ctx rest
    return text :: texts

/-- The entries of a map. -/
def emitPairs (ctx : Context) : List (Node × Node) → Emit (List String)
  | [] => return []
  | (.text s, value) :: rest => do
    let v ← emit .expression ctx value
    let texts ← emitPairs ctx rest
    return (Json.quote s ++ ": " ++ v) :: texts
  | (.number x, value) :: rest => do
    let v ← emit .expression ctx value
    let texts ← emitPairs ctx rest
    return (Json.quote (Number.text x) ++ ": " ++ v) :: texts
  -- other keys are made into texts when the program runs
  | (key, value) :: rest => do
    let k ← emit .expression ctx key
    let v ← emit .expression ctx value
    let texts ← emitPairs ctx rest
    return ("[__key(" ++ k ++ ")]: " ++ v) :: texts

/-- Statements one after the other in the current block. -/
def emitLines (ctx : Context) : List Node → Emit String
  | [] => return ""
  | n :: rest => do
    let text ← emit .standing ctx n
    let texts ← emitLines ctx rest
    return text ++ texts

/-- Statements of which the last, if it is an expression, is the value returned. -/
def emitReturning (ctx : Context) : List Node → Emit String
  | [] => return ""
  | [n] =>
    if n.isExpression then do return ctx.line ("return " ++ (← emit .expression ctx n) ++ ";")
    else emit .standing ctx n
  | n :: rest => do
    let text ← emit .standing ctx n
    let texts ← emitReturning ctx rest
    return text ++ texts

/-- What follows the first branch of a conditional. -/
def emitElse (ctx : Context) : Option Node → Emit String
  | none => return ""
  | some n => do return " else " ++ (← emit .chained ctx n)

/-- The branches of a switch. -/
def emitCases (ctx : Context) (label : Nat) : List (SwitchCase Node) → Emit (List String)
  | [] => return []
  | ⟨value, body⟩ :: rest => do
    let v ← emit .expression ctx value
    let b ← inBlock ctx [] fun ctx => emitLines ctx body
    let texts ← emitCases ctx label rest
    return ("if (__eq(__s" ++ toString label ++ ", " ++ v ++ ")) " ++ b) :: texts

/-- The default branch of a switch, if there is one. -/
def emitDefault (ctx : Context) : Option (List Node) → Emit (List String)
  | none => return []
  | some items => do return [← inBlock ctx [] fun ctx => emitLines ctx items]

/-- The body of a function in braces.  Behind an arrow, a single expression needs no braces unless
it yields. -/
def emitFunction (ctx : Context) (arrow : Bool) : FunctionDef Node → Emit String
  | ⟨_, params, body, _, _⟩ => emitBody ctx arrow (params.map sanitize) body

/-- The body of a function with the given parameters. -/
def emitBody (ctx : Context) (arrow : Bool) (names : List String) :
    FunctionBody Node → Emit String
  | .block stmts =>
    -- a body that yields is wrapped in the lines that collect
    if anyYield stmts then do
      let inner ← inBlock (ctx.inFunction true).deeper names fun ctx => emitReturning ctx stmts
      return collecting ctx inner
    else inBlock (ctx.inFunction false) names fun ctx => emitReturning ctx stmts
  | .expr value =>
    let returned (ctx : Context) : Emit String := do
      return ctx.line ("return " ++ (← emit .expression ctx value) ++ ";")
    if value.containsYield then do
      return collecting ctx (← inBlock (ctx.inFunction true).deeper names returned)
    -- only an arrow may have an expression for its body
    else if arrow then do
      return "(" ++ (← emit .expression { ctx with generator := false } value) ++ ")"
    else inBlock (ctx.inFunction false) names returned

/-- The methods of a class. -/
def emitMethods (ctx : Context) : List (FunctionDef Node) → Emit String
  | [] => return ""
  | d :: rest => do
    let body ← emitFunction ctx false d
    let texts ← emitMethods ctx rest
    return ctx.line ("async [" ++ Json.quote d.displayName ++ "](" ++ paramList d.params ++ ") " ++
      body) ++ texts

end

/-- The code of a literal source that is run by `reflect`, compiled in place; literals inside it are
compiled too, at most `fuel` deep. -/
def reflectLiteral : Nat → Context → String → Emit String
  | 0, _, _ => return placeholder "reflect source" ++ " null"
  | fuel + 1, ctx, source => do
    match parseSource false (Readable.toCells source) with
    | .ok (.program items) =>
      -- a `break` does not leave the program that is reflected
      let inside := { ctx with breakLabel := none }
      let body ← inBlock inside [] fun ctx =>
        emitReturning placeholder (reflectLiteral fuel) ctx items
      return "(await (async () => " ++ body ++ ")())"
    | .ok other => return placeholder ("reflect source " ++ other.outline.compact) ++ " null"
    | .error e =>
      let reason :=
        match e with
        | .lexing e => e.message
        | .parsing e => e.text
        | .running e => e.text
      return "__fail(\"PrimitiveExecution\", " ++ Json.quote ("reflect: " ++ reason) ++ ")"

/-- The code of a literal source.  A literal inside a source is shorter than the source, so its
length bounds the depth. -/
def reflectText (ctx : Context) (source : String) : Emit String :=
  reflectLiteral placeholder (source.length + 1) ctx source

/-- The statements of a program inside the main function, without the support code. -/
def emitProgram (cap : Nat) (program : Node) : String :=
  let ctx : Context := { indent := 1, breakLabel := none, generator := false, cap }
  let (body, _) := (emitLines placeholder (reflectText placeholder) ctx program.statements).run {}
  "__main(async () => \x7b\n" ++ body ++ "\x7d);\n"

/-- The emitted code of a program, with placeholders of the given form. -/
def compileWith (options : EmitOptions) (program : Node) : String :=
  let code := emitProgram placeholder options.maxLoopIterations program
  if options.includePreamble then preamble ++ "\n" ++ code else code

end

/-- The emitted code of a program. -/
def compile (options : EmitOptions) (program : Node) : String :=
  compileWith unsupported options program

end BrailleScript.JavaScript
