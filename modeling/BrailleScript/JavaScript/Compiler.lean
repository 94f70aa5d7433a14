import BrailleScript.JavaScript.Emitter

/-!
# The compiler and its stacks

The compiler goes over a program once and emits as it goes.  What surrounds the node that it is at
(the indentation, the names declared block by block, what a `break` leaves, which functions collect
their yields) it keeps in stacks.  Every construct pushes there what it stands for and takes it off
again behind its parts.  `context` is what the tops of the stacks say, and `line` and the templates
look at nothing else.

The templates themselves are those of `emit`, which is handed its context instead of keeping it.
-/

namespace BrailleScript.JavaScript

/-- A compiler between two nodes.  The innermost entry of a stack comes first. -/
structure Compiler where
  options : EmitOptions
  indent : Nat := 0
  /-- The names declared in each open block. -/
  scopes : List (List String) := []
  /-- The constructs that `break` leaves; a switch has a label. -/
  breaks : List (Option Nat) := []
  /-- For each enclosing function, whether it collects what it yields. -/
  generators : List Bool := []
  labels : Nat := 0

/-- A step of the compiler. -/
abbrev Compiling := StateM Compiler

namespace Compiler

/-- What surrounds the next node. -/
def context (c : Compiler) : Context where
  indent := c.indent
  breakLabel := c.breaks.head?.join
  generator := c.generators.head?.getD false
  cap := c.options.maxLoopIterations

/-- What the emitter has to know at this place. -/
def here : Compiling Context := do
  return (← get).context

/-- A line of code at the present indentation. -/
def line (text : String) : Compiling String := do
  return (← here).line text

/-! ## The stacks -/

/-- Indents what follows by one level more. -/
def deepen : Compiling Unit :=
  modify fun c => { c with indent := c.indent + 1 }

/-- Goes back by one level of indentation. -/
def rise : Compiling Unit :=
  modify fun c => { c with indent := c.indent - 1 }

/-- Opens a block in which `names` are declared from the start. -/
def openScope (names : List String) : Compiling Unit :=
  modify fun c => { c with scopes := names :: c.scopes }

/-- Forgets the names of the innermost block. -/
def closeScope : Compiling Unit :=
  modify fun c => { c with scopes := c.scopes.tail }

/-- Enters a statement that a break may leave. -/
def pushBreak (label : Option Nat) : Compiling Unit :=
  modify fun c => { c with breaks := label :: c.breaks }

/-- Leaves it again. -/
def popBreak : Compiling Unit :=
  modify fun c => { c with breaks := c.breaks.tail }

/-- Enters a function, which collects what it yields or does not. -/
def pushGenerator (generator : Bool) : Compiling Unit :=
  modify fun c => { c with generators := generator :: c.generators }

/-- Leaves it again. -/
def popGenerator : Compiling Unit :=
  modify fun c => { c with generators := c.generators.tail }

/-- Takes off all constructs that `break` leaves, since a function cannot leave them. -/
def takeBreaks : Compiling (List (Option Nat)) :=
  modifyGet fun c => (c.breaks, { c with breaks := [] })

/-- Takes up the breaks of the place around a function. -/
def restoreBreaks (breaks : List (Option Nat)) : Compiling Unit :=
  modify fun c => { c with breaks }

/-- Declares a name in the innermost block; tells whether it is new there.  Outside of all blocks
nothing is declared, and every name is new. -/
def declare (name : String) : Compiling Bool := do
  let c ← get
  match c.scopes with
  | [] => return true
  | scope :: outer =>
    set { c with scopes := scope.insert name :: outer }
    return !scope.contains name

/-- A label not used before. -/
def nextLabel : Compiling Nat :=
  modifyGet fun c => (c.labels + 1, { c with labels := c.labels + 1 })

/-! ## Blocks and functions -/

/-- A block with a scope of its own, where `names` are declared, that begins with the lines of the
`prologue`. -/
def blockWith (names prologue : List String) (body : Compiling String) : Compiling String := do
  deepen
  let first := String.join (prologue.map (← here).line)
  openScope names
  let rest ← body
  closeScope
  rise
  return braces (← here) (first ++ rest)

/-- A block in which `names` are bound around another block, which may shadow them. -/
def bindingBlock (names prologue : List String) (block : Compiling String) : Compiling String :=
  blockWith names prologue do line (← block)

/-- The lines of a function that collects its yields around the block that produces them. -/
def collectingLines (block : Compiling String) : Compiling String := do
  let first ← line "const __y = [];"
  let inner ← block
  let second ← line ("const __r = await (async () => " ++ inner ++ ")();")
  let third ← line "return __y.length ? __y : __r;"
  return first ++ second ++ third

/-- The body of such a function in braces. -/
def collectingBlock (block : Compiling String) : Compiling String := do
  deepen
  let lines ← collectingLines block
  rise
  return braces (← here) lines

/-- The body of a function: the block of its statements, collected around if it is a generator. -/
def functionOf (generator : Bool) (block : Compiling String) : Compiling String := do
  let saved ← takeBreaks
  pushGenerator generator
  let body ← (if generator then collectingBlock block else block)
  popGenerator
  restoreBreaks saved
  return body

/-- What stands between the braces of a switch, whose `branches` come one behind the other. -/
def switchLines (label : Nat) (subject : String) (branches : Compiling (List String)) :
    Compiling String := do
  let first ← line ("const __s" ++ toString label ++ " = " ++ subject ++ ";")
  pushBreak (some label)
  let chain := " else ".intercalate (← branches)
  popBreak
  if chain.isEmpty then return first else return first ++ (← line chain)

/-! ## Nodes -/

/-- Lines in the place of a statement; a body gets braces and a block of its own. -/
def asLines (form : Form) (lines : Compiling String) : Compiling String :=
  match form with
  | .standing => lines
  | .body | .chained => blockWith [] [] lines
  | .expression => return unsupported "statement in expression position" ++ " null"

/-- A value, which ends with a semicolon where a statement is wanted. -/
def asExpression (form : Form) (value : Compiling String) : Compiling String :=
  match form with
  | .expression => value
  | _ => asLines form do line ((← value) ++ ";")

section

variable (reflect : String → Compiling String)

mutual

/-- The code of a node in its place. -/
def write (form : Form) : Node → Compiling String
  | .declare name value constant _ => asLines form do
    let js := sanitize name
    let v ← writeOption value
    if ← declare js then line ((if constant then "const " else "let ") ++ js ++ " = " ++ v ++ ";")
    else line (js ++ " = " ++ v ++ ";")
  | .function d => asLines form do
    let js := sanitize d.displayName
    -- a function is emitted alike whether or not its name is new
    let _ ← declare js
    let body ← writeFunction false d
    line ("async function " ++ js ++ "(" ++ paramList d.params ++ ") " ++ body)
  | .classDecl name parent methods _ => asLines form do
    let js := sanitize name
    let head :=
      match parent with
      | some p => "class " ++ js ++ " extends " ++ sanitize p ++ " \x7b"
      | none => "class " ++ js ++ " \x7b"
    let isNew ← declare js
    let first ← line (if isNew then head else js ++ " = " ++ head)
    deepen
    let body ← writeMethods methods
    rise
    return first ++ body ++ (← line "\x7d")
  | .importModule module _ => asLines form do
    let js := sanitize module
    let keyword := if ← declare js then "const " else ""
    line (keyword ++ js ++ " = __module(" ++ Json.quote module ++ ");")
  | .block items =>
    match form with
    | .standing => do line (← blockWith [] [] (writeLines items))
    | .body | .chained => blockWith [] [] (writeLines items)
    | .expression => asLines form (return "")
  | .print args => asLines form do
    line ("__print(" ++ commaList (← writeAll args) ++ ");")
  | .returnValue value => asLines form do
    line ("return " ++ (← writeOption value) ++ ";")
  | .yieldValue value => asLines form do
    let v ← write .expression value
    if (← here).generator then line ("__y.push(" ++ v ++ ");")
    else line "__fail(\"TypeMismatch\", \"yield outside of a function\");"
  | .breakLoop => asLines form do
    match (← here).breakLabel with
    | some n => line ("break __sw" ++ toString n ++ ";")
    | none => line "break;"
  | .continueLoop => asLines form do line "continue;"
  | .halt => asLines form do line "throw new __Halt();"
  | .ifElse condition thenBranch elseBranch =>
    let chain : Compiling String := do
      let c ← write .expression condition
      let t ← write .body thenBranch
      let e ← writeElse elseBranch
      return "if (__truthy(" ++ c ++ ")) " ++ t ++ e
    match form with
    | .chained => chain
    | _ => asLines form do line (← chain)
  | .whileLoop condition body => asLines form do
    let c ← write .expression condition
    pushBreak none
    let b ← write .body body
    popBreak
    line ("while (__truthy(" ++ c ++ ")) " ++ b)
  | .loop body => asLines form do
    -- the guard stands in the block of the body, in front of its statements
    let cap := (← here).cap
    pushBreak none
    let b ← blockWith [] [loopGuard cap] (write .standing body)
    popBreak
    line ("for (let __n = 0; ; __n++) " ++ b)
  | .forEach var iterable body => asLines form do
    let js := sanitize var
    let it ← write .expression iterable
    pushBreak none
    let b ← bindingBlock [js] [] (write .body body)
    popBreak
    line ("for (const " ++ js ++ " of __iter(" ++ it ++ ")) " ++ b)
  | .tryCatch body catchName handler => asLines form do
    let b ← write .body body
    let names := catchName.toList.map sanitize
    -- a `halt` goes through every handler
    let prologue := "if (__e instanceof __Halt) throw __e;" ::
      names.map fun n => "let " ++ n ++ " = __errText(__e);"
    let h ← bindingBlock names prologue (write .body handler)
    line ("try " ++ b ++ " catch (__e) " ++ h)
  | .switch subject cases default => asLines form do
    let n ← nextLabel
    let s ← write .expression subject
    let first ← line ("__sw" ++ toString n ++ ": \x7b")
    deepen
    let inside ← switchLines n s do return (← writeCases n cases) ++ (← writeDefault default)
    rise
    return first ++ inside ++ (← line "\x7d")
  | .program items => asLines form (writeLines items)
  | .error message =>
    match form with
    | .expression => return unsupported message ++ " null"
    | _ => asLines form do line (unsupported message)
  | .number x => asExpression form (return Number.text x)
  | .text s => asExpression form (return Json.quote s)
  | .bool b => asExpression form (return if b then "true" else "false")
  | .null => asExpression form (return "null")
  | .array items => asExpression form do
    return "[" ++ commaList (← writeAll items) ++ "]"
  | .map pairs => asExpression form do
    return "(\x7b" ++ commaList (← writePairs pairs) ++ "\x7d)"
  | .identifier name _ => asExpression form (return sanitize name)
  | .this _ => asExpression form (return "this")
  | .super method _ => asExpression form (return "super[" ++ Json.quote method ++ "].bind(this)")
  | .assign target value _ => asExpression form do
    let v ← write .expression value
    match target with
    | .identifier name _ => return "(" ++ sanitize name ++ " = " ++ v ++ ")"
    | .member object name _ =>
      let o ← write .expression object
      return "(" ++ o ++ "[" ++ Json.quote name ++ "] = " ++ v ++ ")"
    | .index object index _ =>
      let o ← write .expression object
      let i ← write .expression index
      return "__setIndex(" ++ o ++ ", " ++ i ++ ", " ++ v ++ ")"
    | _ => return unsupported "assignment target" ++ " null"
  | .lambda d => asExpression form do
    return "(async (" ++ paramList d.params ++ ") => " ++ (← writeFunction true d) ++ ")"
  | .binary op left right _ => asExpression form do
    let l ← write .expression left
    let r ← write .expression right
    return binaryText unsupported op l r
  | .logical op left right => asExpression form do
    let l ← write .expression left
    let r ← write .expression right
    return logicalText op l r
  | .unary op operand _ => asExpression form do
    return unaryText op (← write .expression operand)
  | .await operand => asExpression form do
    return "(await " ++ (← write .expression operand) ++ ")"
  -- the receiver is evaluated once, both to find the method and to bind it
  | .call (.member object name _) args _ => asExpression form do
    let a := commaList (← writeAll args)
    let o ← write .expression object
    return "(await __callm(" ++ o ++ ", " ++ Json.quote name ++ ", [" ++ a ++ "]))"
  | .call (.super method _) args _ => asExpression form do
    let a := commaList (← writeAll args)
    return "(await super[" ++ Json.quote method ++ "](" ++ a ++ "))"
  | .call callee args _ => asExpression form do
    let a := commaList (← writeAll args)
    let c ← write .expression callee
    return "(await __call(" ++ c ++ ", [" ++ a ++ "]))"
  | .member object name _ => asExpression form do
    return (← write .expression object) ++ "[" ++ Json.quote name ++ "]"
  | .index object index _ => asExpression form do
    let o ← write .expression object
    let i ← write .expression index
    return o ++ "[" ++ i ++ "]"
  | .primitive p args _ => asExpression form do
    match p, args with
    -- a literal source is compiled in place; any other is left to the support code
    | .reflectExec, .text source :: _ => reflect source
    | _, _ => return "(await __prim." ++ p.name ++ "(" ++ commaList (← writeAll args) ++ "))"

/-- An expression that may be missing. -/
def writeOption : Option Node → Compiling String
  | none => return "null"
  | some n => write .expression n

/-- Expressions one by one. -/
def writeAll : List Node → Compiling (List String)
  | [] => return []
  | n :: rest => do
    let text ← write .expression n
    let texts ← writeAll rest
    return text :: texts

/-- The entries of a map. -/
def writePairs : List (Node × Node) → Compiling (List String)
  | [] => return []
  | (.text s, value) :: rest => do
    let v ← write .expression value
    let texts ← writePairs rest
    return (Json.quote s ++ ": " ++ v) :: texts
  | (.number x, value) :: rest => do
    let v ← write .expression value
    let texts ← writePairs rest
    return (Json.quote (Number.text x) ++ ": " ++ v) :: texts
  -- other keys are made into texts when the program runs
  | (key, value) :: rest => do
    let k ← write .expression key
    let v ← write .expression value
    let texts ← writePairs rest
    return ("[__key(" ++ k ++ ")]: " ++ v) :: texts

/-- Statements one after the other in the current block. -/
def writeLines : List Node → Compiling String
  | [] => return ""
  | n :: rest => do
    let text ← write .standing n
    let texts ← writeLines rest
    return text ++ texts

/-- Statements of which the last, if it is an expression, is the value returned. -/
def writeReturning : List Node → Compiling String
  | [] => return ""
  | [n] =>
    -- a function gives the value of its last statement
    if n.isExpression then do line ("return " ++ (← write .expression n) ++ ";")
    else write .standing n
  | n :: rest => do
    let text ← write .standing n
    let texts ← writeReturning rest
    return text ++ texts

/-- What follows the first branch of a conditional. -/
def writeElse : Option Node → Compiling String
  | none => return ""
  | some n => do return " else " ++ (← write .chained n)

/-- The branches of a switch. -/
def writeCases (label : Nat) : List (SwitchCase Node) → Compiling (List String)
  | [] => return []
  | ⟨value, body⟩ :: rest => do
    let v ← write .expression value
    let b ← blockWith [] [] (writeLines body)
    let texts ← writeCases label rest
    return ("if (__eq(__s" ++ toString label ++ ", " ++ v ++ ")) " ++ b) :: texts

/-- The default branch of a switch, if there is one. -/
def writeDefault : Option (List Node) → Compiling (List String)
  | none => return []
  | some items => do return [← blockWith [] [] (writeLines items)]

/-- The body of a function in braces.  Behind an arrow, a single expression needs no braces unless
it yields. -/
def writeFunction (arrow : Bool) : FunctionDef Node → Compiling String
  | ⟨_, params, body, _, _⟩ => writeBody arrow (params.map sanitize) body

/-- The body of a function with the given parameters. -/
def writeBody (arrow : Bool) (names : List String) : FunctionBody Node → Compiling String
  | .block stmts => functionOf (anyYield stmts) (blockWith names [] (writeReturning stmts))
  | .expr value =>
    -- behind an arrow the breaks around the function stay on their stack: a value has none of its
    -- own
    if arrow && !value.containsYield then do
      pushGenerator false
      let text ← write .expression value
      popGenerator
      return "(" ++ text ++ ")"
    else functionOf value.containsYield
      (blockWith names [] do line ("return " ++ (← write .expression value) ++ ";"))

/-- The methods of a class. -/
def writeMethods : List (FunctionDef Node) → Compiling String
  | [] => return ""
  | d :: rest => do
    let body ← writeFunction false d
    let text ← line ("async [" ++ Json.quote d.displayName ++ "](" ++ paramList d.params ++ ") " ++
      body)
    let texts ← writeMethods rest
    return text ++ texts

end

end

/-! ## Literal sources and programs -/

/-- The code of a literal source that is run by `reflect`; literals inside it are compiled too, at
most `fuel` deep. -/
def writeLiteral : Nat → String → Compiling String
  | 0, _ => return unsupported "reflect source" ++ " null"
  | fuel + 1, source =>
    match parseSource false (Readable.toCells source) with
    | .ok (.program items) => do
      -- the literal becomes a function, which no `break` leaves
      let saved ← takeBreaks
      let body ← blockWith [] [] (writeReturning (writeLiteral fuel) items)
      restoreBreaks saved
      return "(await (async () => " ++ body ++ ")())"
    | .ok other => return unsupported ("reflect source " ++ other.outline.compact) ++ " null"
    | .error e =>
      let reason :=
        match e with
        | .lexing e => e.message
        | .parsing e => e.text
        | .running e => e.text
      return "__fail(\"PrimitiveExecution\", " ++ Json.quote ("reflect: " ++ reason) ++ ")"

/-- The code of a literal source.  A literal inside a source is shorter than the source, so its
length bounds the depth. -/
def literal (source : String) : Compiling String :=
  writeLiteral (source.length + 1) source

/-- The code of a statement. -/
def statement (n : Node) : Compiling String := write literal .standing n

/-- The code of some statements. -/
def statements (items : List Node) : Compiling String := writeLines literal items

/-- The code of an expression. -/
def expression (n : Node) : Compiling String := write literal .expression n

/-- The code of a block with a scope of its own. -/
def block (items : List Node) : Compiling String := blockWith [] [] (statements items)

/-- The code of the body of a function. -/
def functionBody (d : FunctionDef Node) : Compiling String := writeFunction literal false d

/-- The code of a function that is a value; it keeps the `this` of the place around it. -/
def lambda (d : FunctionDef Node) : Compiling String := do
  return "(async (" ++ paramList d.params ++ ") => " ++ (← writeFunction literal true d) ++ ")"

/-- The code of a program inside the main function.  The stacks begin anew, and the labels go on. -/
def program (tree : Node) : Compiling String := do
  modify fun c => { c with indent := 1, scopes := [[]], breaks := [], generators := [] }
  let body ← statements tree.statements
  modify fun c => { c with indent := 0 }
  return "__main(async () => \x7b\n" ++ body ++ "\x7d);\n"

/-- The code of a program from a new compiler, behind the support code if that is wanted. -/
def compile (options : EmitOptions) (tree : Node) : String :=
  let (code, _) := (program tree).run { options }
  if options.includePreamble then preamble ++ "\n" ++ code else code

end Compiler

end BrailleScript.JavaScript
