import BrailleScript.Node
import BrailleScript.Decimal.Layout
import BrailleScript.Text.Quoted

/-!
# Outlines of program trees

A tree can be shown on one line or with one part per line.  Both forms come from an `Outline`,
which names the constructors and fields of the tree.
-/

namespace BrailleScript

/-- A structured value to be shown. -/
inductive Outline where
  | atom (s : String)
  | tuple (name : String) (parts : List Outline)
  | record (name : String) (fields : List (String × Outline))
  | list (items : List Outline)
  deriving Inhabited

namespace Outline

mutual

/-- On one line. -/
def compact : Outline → String
  | atom s => s
  | tuple name parts => name ++ "(" ++ ", ".intercalate (compactAll parts) ++ ")"
  | record name fields => name ++ " \x7b " ++ ", ".intercalate (compactFields fields) ++ " \x7d"
  | list items => "[" ++ ", ".intercalate (compactAll items) ++ "]"

/-- Some outlines, each in a line of text. -/
def compactAll : List Outline → List String
  | [] => []
  | o :: rest => compact o :: compactAll rest

/-- The fields of a record, with their names. -/
def compactFields : List (String × Outline) → List String
  | [] => []
  | (name, o) :: rest => (name ++ ": " ++ compact o) :: compactFields rest

end

/-- A line break and an indentation of four spaces for each level. -/
def newline (level : Nat) : String :=
  String.ofList ('\n' :: List.replicate (4 * level) ' ')

mutual

/-- With each part on a line of its own, indented by its level and followed by a comma. -/
def expanded (level : Nat) : Outline → String
  | atom s => s
  | tuple name parts => name ++ "(" ++ expandedAll (level + 1) parts ++ newline level ++ ")"
  | record name fields =>
    name ++ " \x7b" ++ expandedFields (level + 1) fields ++ newline level ++ "\x7d"
  | list [] => "[]"
  | list (o :: rest) =>
    "[" ++ newline (level + 1) ++ expanded (level + 1) o ++ "," ++ expandedAll (level + 1) rest ++
      newline level ++ "]"

/-- Some outlines, each on lines of its own. -/
def expandedAll (level : Nat) : List Outline → String
  | [] => ""
  | o :: rest => newline level ++ expanded level o ++ "," ++ expandedAll level rest

/-- The fields of a record, each on lines of its own. -/
def expandedFields (level : Nat) : List (String × Outline) → String
  | [] => ""
  | (name, o) :: rest =>
    newline level ++ name ++ ": " ++ expanded level o ++ "," ++ expandedFields level rest

end

/-- A text in quotes. -/
def text (s : String) : Outline :=
  .atom (Text.quoted s)

/-- A boolean. -/
def bool (b : Bool) : Outline :=
  .atom (if b then "true" else "false")

/-- A value that may be missing. -/
def option (o : Option Outline) : Outline :=
  match o with
  | none => .atom "None"
  | some x => .tuple "Some" [x]

/-- A place in the source. -/
def pos (p : Pos) : Outline :=
  .record "Pos" [("line", .atom (toString p.line)), ("col", .atom (toString p.col))]

end Outline

/-- The name of an operator in outlines. -/
def Operator.outlineName : Operator → String
  | plus => "Plus"
  | minus => "Minus"
  | star => "Star"
  | slash => "Slash"
  | percent => "Percent"
  | equal => "EqEq"
  | notEqual => "NotEq"
  | less => "Less"
  | lessEqual => "LessEq"
  | greater => "Greater"
  | greaterEqual => "GreaterEq"
  | both => "AndAnd"
  | either => "OrOr"
  | bang => "Bang"
  | assign => "Assign"
  | arrow => "Arrow"
  | pipe => "PipeForward"
  | dot => "Dot"

/-- The name of a primitive in outlines. -/
def Primitive.outlineName : Primitive → String
  | infer => "Infer"
  | embed => "Embed"
  | promptTemplate => "PromptTemplate"
  | pipeCompose => "PipeCompose"
  | reflectExec => "ReflectExec"
  | semanticSearch => "SemanticSearch"

open Outline in
mutual

/-- The outline of a tree. -/
def Node.outline : Node → Outline
  | .program items => .tuple "Program" [.list (outlines items)]
  | .declare name value constant p =>
    .record "Let" [("name", .text name), ("value", .option (outlineOption value)),
      ("constant", .bool constant), ("pos", .pos p)]
  | .function d => .tuple "FunctionDecl" [outlineDef d]
  | .classDecl name parent methods p =>
    .record "ClassDecl" [("name", .text name), ("parent", .option (parent.map Outline.text)),
      ("methods", .list (outlineDefs methods)), ("pos", .pos p)]
  | .importModule module p => .record "Import" [("module", .text module), ("pos", .pos p)]
  | .block items => .tuple "Block" [.list (outlines items)]
  | .print args => .tuple "Print" [.list (outlines args)]
  | .returnValue value => .tuple "Return" [.option (outlineOption value)]
  | .yieldValue value => .tuple "Yield" [value.outline]
  | .breakLoop => .atom "Break"
  | .continueLoop => .atom "Continue"
  | .halt => .atom "Halt"
  | .ifElse c t e =>
    .record "If" [("condition", c.outline), ("then_branch", t.outline),
      ("else_branch", .option (outlineOption e))]
  | .whileLoop c b => .record "While" [("condition", c.outline), ("body", b.outline)]
  | .loop b => .tuple "Loop" [b.outline]
  | .forEach var i b =>
    .record "ForEach" [("var", .text var), ("iterable", i.outline), ("body", b.outline)]
  | .tryCatch b name h =>
    .record "Try" [("body", b.outline), ("catch_name", .option (name.map Outline.text)),
      ("handler", h.outline)]
  | .switch s cases d =>
    .record "Switch" [("subject", s.outline), ("cases", .list (outlineCases cases)),
      ("default", .option (outlineDefault d))]
  | .assign t v p => .record "Assign" [("target", t.outline), ("value", v.outline), ("pos", .pos p)]
  | .lambda d => .tuple "Lambda" [outlineDef d]
  | .binary op l r p =>
    .record "Binary" [("op", .atom op.outlineName), ("left", l.outline), ("right", r.outline),
      ("pos", .pos p)]
  | .logical op l r =>
    .record "Logical" [("op", .atom (match op with | .and => "And" | .or => "Or")),
      ("left", l.outline), ("right", r.outline)]
  | .unary op v p =>
    .record "Unary" [("op", .atom (match op with | .not => "Not" | .negate => "Negate")),
      ("operand", v.outline), ("pos", .pos p)]
  | .await v => .tuple "Await" [v.outline]
  | .call c args p =>
    .record "Call" [("callee", c.outline), ("args", .list (outlines args)), ("pos", .pos p)]
  | .member o name p =>
    .record "Member" [("object", o.outline), ("name", .text name), ("pos", .pos p)]
  | .index o i p => .record "Index" [("object", o.outline), ("index", i.outline), ("pos", .pos p)]
  | .primitive prim args p =>
    .record "Primitive" [("primitive", .atom prim.outlineName), ("args", .list (outlines args)),
      ("pos", .pos p)]
  | .identifier name p => .record "Identifier" [("name", .text name), ("pos", .pos p)]
  | .this p => .tuple "This" [.pos p]
  | .super method p => .record "Super" [("method", .text method), ("pos", .pos p)]
  | .number x => .tuple "Number" [.atom (Decimal.powered.write x)]
  | .text s => .tuple "Str" [.text s]
  | .bool b => .tuple "Bool" [.bool b]
  | .null => .atom "Null"
  | .array items => .tuple "Array" [.list (outlines items)]
  | .map pairs => .tuple "Map" [.list (outlinePairs pairs)]
  | .error message => .tuple "Error" [.text message]

/-- The outlines of some nodes. -/
def outlines : List Node → List Outline
  | [] => []
  | n :: rest => n.outline :: outlines rest

/-- The outline of an optional node. -/
def outlineOption : Option Node → Option Outline
  | none => none
  | some n => some n.outline

/-- The outline of the default of a `switch`. -/
def outlineDefault : Option (List Node) → Option Outline
  | none => none
  | some items => some (.list (outlines items))

/-- The outlines of the cases of a `switch`. -/
def outlineCases : List (SwitchCase Node) → List Outline
  | [] => []
  | ⟨value, body⟩ :: rest =>
    .record "SwitchCase" [("value", value.outline), ("body", .list (outlines body))] ::
      outlineCases rest

/-- The outlines of the entries of a map literal. -/
def outlinePairs : List (Node × Node) → List Outline
  | [] => []
  | (k, v) :: rest => .tuple "" [k.outline, v.outline] :: outlinePairs rest

/-- The outline of the body of a function. -/
def outlineBody : FunctionBody Node → Outline
  | .block stmts => .tuple "Block" [.list (outlines stmts)]
  | .expr value => .tuple "Expr" [value.outline]

/-- The outline of a function. -/
def outlineDef : FunctionDef Node → Outline
  | ⟨name, params, body, isAsync, p⟩ =>
    .record "FunctionDef" [("name", .option (name.map Outline.text)),
      ("params", .list (params.map Outline.text)), ("body", outlineBody body),
      ("is_async", .bool isAsync), ("pos", .pos p)]

/-- The outlines of some functions. -/
def outlineDefs : List (FunctionDef Node) → List Outline
  | [] => []
  | d :: rest => outlineDef d :: outlineDefs rest

end

/-- The tree with one part per line. -/
def Node.tree (n : Node) : String :=
  n.outline.expanded 0

end BrailleScript
