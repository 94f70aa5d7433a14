import BrailleScript.Position
import BrailleScript.Primitive

/-!
# Program trees

One type of nodes for whole programs, statements and expressions.  Function definitions and switch
cases are parametrised by the type of their parts, so that they nest inside `Node`.
-/

namespace BrailleScript

/-- The body of a function: statements, or the one expression of a short lambda. -/
inductive FunctionBody (α : Type) where
  | block (stmts : List α)
  | expr (value : α)
  deriving Repr, Inhabited

/-- A function as it is written; `α` are the nodes of its body. -/
structure FunctionDef (α : Type) where
  name : Option String
  params : List String
  body : FunctionBody α
  isAsync : Bool
  pos : Pos
  deriving Repr, Inhabited

/-- A case of a `switch`: a value, and what is done if it matches. -/
structure SwitchCase (α : Type) where
  value : α
  body : List α
  deriving Repr

/-- The operations that may leave out their second operand. -/
inductive LogicalOp where
  | and | or
  deriving Repr, DecidableEq

/-- The operations with one operand. -/
inductive UnaryOp where
  | not | negate
  deriving Repr, DecidableEq

/-- The syntax tree. -/
inductive Node where
  | program (items : List Node)
  | declare (name : String) (value : Option Node) (constant : Bool) (pos : Pos)
  | function (definition : FunctionDef Node)
  | classDecl (name : String) (parent : Option String) (methods : List (FunctionDef Node))
      (pos : Pos)
  | importModule (module : String) (pos : Pos)
  | block (items : List Node)
  | print (args : List Node)
  | returnValue (value : Option Node)
  | yieldValue (value : Node)
  | breakLoop
  | continueLoop
  | halt
  | ifElse (condition thenBranch : Node) (elseBranch : Option Node)
  | whileLoop (condition body : Node)
  | loop (body : Node)
  | forEach (var : String) (iterable body : Node)
  | tryCatch (body : Node) (catchName : Option String) (handler : Node)
  | switch (subject : Node) (cases : List (SwitchCase Node)) (default : Option (List Node))
  | assign (target value : Node) (pos : Pos)
  | lambda (definition : FunctionDef Node)
  | binary (op : Operator) (left right : Node) (pos : Pos)
  | logical (op : LogicalOp) (left right : Node)
  | unary (op : UnaryOp) (operand : Node) (pos : Pos)
  | await (operand : Node)
  | call (callee : Node) (args : List Node) (pos : Pos)
  | member (object : Node) (name : String) (pos : Pos)
  | index (object index : Node) (pos : Pos)
  | primitive (primitive : Primitive) (args : List Node) (pos : Pos)
  | identifier (name : String) (pos : Pos)
  | this (pos : Pos)
  | super (method : String) (pos : Pos)
  | number (x : Float)
  | text (s : String)
  | bool (b : Bool)
  | null
  | array (items : List Node)
  | map (pairs : List (Node × Node))
  | error (message : String)
  deriving Repr, Inhabited

mutual

/-- Whether a `yield` of the enclosing function stands in the tree; definitions of other functions
and classes are not searched. -/
def Node.containsYield : Node → Bool
  | .yieldValue _ => true
  | .program items | .block items | .print items | .array items => anyYield items
  | .declare _ value _ _ | .returnValue value => optionYield value
  | .ifElse c t e => c.containsYield || t.containsYield || optionYield e
  | .whileLoop c b => c.containsYield || b.containsYield
  | .loop b | .await b | .unary _ b _ | .member b _ _ => b.containsYield
  | .forEach _ i b => i.containsYield || b.containsYield
  | .tryCatch b _ h => b.containsYield || h.containsYield
  | .switch s cases d => s.containsYield || casesYield cases || defaultYield d
  | .assign a b _ | .binary _ a b _ | .logical _ a b | .index a b _ =>
    a.containsYield || b.containsYield
  | .call c args _ => c.containsYield || anyYield args
  | .primitive _ args _ => anyYield args
  | .map pairs => pairsYield pairs
  | .function _ | .lambda _ | .classDecl .. | .importModule .. | .breakLoop | .continueLoop | .halt
  | .identifier .. | .this _ | .super .. | .number _ | .text _ | .bool _ | .null | .error _ => false

/-- Whether one of some nodes yields a value. -/
def anyYield : List Node → Bool
  | [] => false
  | n :: rest => n.containsYield || anyYield rest

/-- Whether an optional node yields a value. -/
def optionYield : Option Node → Bool
  | none => false
  | some n => n.containsYield

/-- Whether the default of a `switch` yields a value. -/
def defaultYield : Option (List Node) → Bool
  | none => false
  | some items => anyYield items

/-- Whether a case of a `switch` yields a value. -/
def casesYield : List (SwitchCase Node) → Bool
  | [] => false
  | ⟨value, body⟩ :: rest => value.containsYield || anyYield body || casesYield rest

/-- Whether an entry of a map literal yields a value. -/
def pairsYield : List (Node × Node) → Bool
  | [] => false
  | (k, v) :: rest => k.containsYield || v.containsYield || pairsYield rest

end

namespace FunctionDef

/-- The name, or a mark for functions without one. -/
def displayName {α : Type} (d : FunctionDef α) : String :=
  d.name.getD "<lambda>"

/-- Whether the function collects the values it yields. -/
def isGenerator (d : FunctionDef Node) : Bool :=
  match d.body with
  | .block stmts => anyYield stmts
  | .expr value => value.containsYield

end FunctionDef

/-- The statements of a program or block; any other node is a single statement. -/
def Node.statements : Node → List Node
  | .program items | .block items => items
  | n => [n]

/-- Whether the node is an expression, that is, no statement and no declaration. -/
def Node.isExpression : Node → Bool
  | .assign .. | .lambda _ | .binary .. | .logical .. | .unary .. | .await _ | .call .. | .member ..
  | .index .. | .primitive .. | .identifier .. | .this _ | .super .. | .number _ | .text _ | .bool _
  | .null | .array _ | .map _ => true
  | _ => false

end BrailleScript
