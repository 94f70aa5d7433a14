import BrailleScript.Node.Parser

/-!
# Well-formed program trees

`Node` is one type for whole programs, statements and expressions, so it has trees that are no
program.  `Node.wellFormed` says of a statement or expression that everything below it stands where
it may stand; a whole program is a `Node.program` of well-formed statements (`Node.isProgram`).

Two trees that differ only in the positions they carry are the same program: `Node.erasePos` puts
one fixed position everywhere.

## Key results

- `eraseAll_eq_map`, `eraseDefs_eq_map`: erasing goes through lists item by item
- `statementsWellFormed_mem`, `expressionsWellFormed_mem`: the items of a well-formed list are
  well-formed
-/

namespace BrailleScript

/-- The operators of binary nodes: arithmetic, equality and order. -/
def Operator.isBinary : Operator → Bool
  | plus | minus | star | slash | percent | equal | notEqual | less | lessEqual | greater
  | greaterEqual => true
  | _ => false

namespace Node

/-- Is the node a block? -/
def isBlock : Node → Bool
  | .block _ => true
  | _ => false

/-- Then it has a list of statements. -/
theorem eq_block_of_isBlock {n : Node} (h : n.isBlock = true) : ∃ items, n = .block items := by
  cases n with
  | block items => exact ⟨items, rfl⟩
  | _ => cases h

/-- Is the node a condition? -/
def isConditional : Node → Bool
  | .ifElse .. => true
  | _ => false

/-- Whether the node may be the key of a map entry. -/
def isKey : Node → Bool
  | .text _ | .number _ => true
  | _ => false

end Node

/-! ## Well-formed trees -/

mutual

/-- Whether everything below the node stands where it may stand. -/
def Node.wellFormed : Node → Bool
  | .program _ | .error _ => false
  | .declare _ value constant _ => (!constant || value.isSome) && valueWellFormed value
  | .function ⟨name, _, body, _, _⟩ => name.isSome && bodyWellFormed body
  | .classDecl _ _ methods _ => methodsWellFormed methods
  | .block items => statementsWellFormed items
  | .print args | .primitive _ args _ | .array args => expressionsWellFormed args
  | .returnValue value => valueWellFormed value
  | .ifElse c t e =>
    (c.isExpression && c.wellFormed) && (t.isBlock && t.wellFormed) && elseWellFormed e
  | .whileLoop c b | .forEach _ c b =>
    (c.isExpression && c.wellFormed) && (b.isBlock && b.wellFormed)
  | .loop b => b.isBlock && b.wellFormed
  | .tryCatch b _ h => (b.isBlock && b.wellFormed) && (h.isBlock && h.wellFormed)
  | .switch s cases d =>
    (s.isExpression && s.wellFormed) && casesWellFormed cases && defaultWellFormed d
  | .assign t v _ =>
    (Parser.isTarget t && t.wellFormed) && (v.isExpression && v.wellFormed)
  | .lambda ⟨name, _, .block stmts, _, _⟩ => name.isNone && statementsWellFormed stmts
  | .lambda ⟨name, _, .expr value, isAsync, _⟩ =>
    name.isNone && !isAsync && (value.isExpression && value.wellFormed)
  | .binary op a b _ =>
    op.isBinary && (a.isExpression && a.wellFormed) && (b.isExpression && b.wellFormed)
  | .logical _ a b | .index a b _ =>
    (a.isExpression && a.wellFormed) && (b.isExpression && b.wellFormed)
  | .yieldValue e | .unary _ e _ | .await e | .member e _ _ => e.isExpression && e.wellFormed
  | .call c args _ => (c.isExpression && c.wellFormed) && expressionsWellFormed args
  | .map pairs => pairsWellFormed pairs
  | .importModule .. | .breakLoop | .continueLoop | .halt | .identifier .. | .this _ | .super ..
  | .number _ | .text _ | .bool _ | .null => true

/-- Statements in a row. -/
def statementsWellFormed : List Node → Bool
  | [] => true
  | s :: rest => s.wellFormed && statementsWellFormed rest

/-- Expressions in a row. -/
def expressionsWellFormed : List Node → Bool
  | [] => true
  | e :: rest => (e.isExpression && e.wellFormed) && expressionsWellFormed rest

/-- An expression that may be missing. -/
def valueWellFormed : Option Node → Bool
  | none => true
  | some e => e.isExpression && e.wellFormed

/-- Behind `else` stands a block or the next conditional. -/
def elseWellFormed : Option Node → Bool
  | none => true
  | some e => (e.isBlock || e.isConditional) && e.wellFormed

/-- The body of a declared function. -/
def bodyWellFormed : FunctionBody Node → Bool
  | .block stmts => statementsWellFormed stmts
  | .expr _ => false

/-- Methods have names and well-formed bodies. -/
def methodsWellFormed : List (FunctionDef Node) → Bool
  | [] => true
  | ⟨name, _, body, _, _⟩ :: rest =>
    (name.isSome && bodyWellFormed body) && methodsWellFormed rest

/-- Cases have well-formed values and bodies. -/
def casesWellFormed : List (SwitchCase Node) → Bool
  | [] => true
  | ⟨value, body⟩ :: rest =>
    (value.isExpression && value.wellFormed) && statementsWellFormed body && casesWellFormed rest

/-- The default is well-formed when it is there. -/
def defaultWellFormed : Option (List Node) → Bool
  | none => true
  | some body => statementsWellFormed body

/-- Entries have keys and well-formed values. -/
def pairsWellFormed : List (Node × Node) → Bool
  | [] => true
  | (k, v) :: rest => k.isKey && (v.isExpression && v.wellFormed) && pairsWellFormed rest

end

/-- Whether the node is a whole program. -/
def Node.isProgram : Node → Bool
  | .program items => statementsWellFormed items
  | _ => false

/-- Each of some well-formed statements is well-formed. -/
theorem statementsWellFormed_mem {items : List Node} (h : statementsWellFormed items = true)
    {s : Node} (hs : s ∈ items) : s.wellFormed = true := by
  induction items with
  | nil => exact absurd hs List.not_mem_nil
  | cons t rest ih =>
    rw [statementsWellFormed, Bool.and_eq_true] at h
    rcases List.mem_cons.mp hs with rfl | hs
    · exact h.1
    · exact ih h.2 hs

/-- So is each of some expressions. -/
theorem expressionsWellFormed_mem {items : List Node} (h : expressionsWellFormed items = true)
    {e : Node} (he : e ∈ items) : e.isExpression = true ∧ e.wellFormed = true := by
  induction items with
  | nil => exact absurd he List.not_mem_nil
  | cons t rest ih =>
    rw [expressionsWellFormed, Bool.and_eq_true, Bool.and_eq_true] at h
    rcases List.mem_cons.mp he with rfl | he
    · exact h.1
    · exact ih h.2 he

/-- Each of some well-formed methods has a name and a well-formed body. -/
theorem methodsWellFormed_mem {methods : List (FunctionDef Node)}
    (h : methodsWellFormed methods = true) {d : FunctionDef Node} (hd : d ∈ methods) :
    d.name.isSome = true ∧ bodyWellFormed d.body = true := by
  induction methods with
  | nil => exact absurd hd List.not_mem_nil
  | cons t rest ih =>
    rw [methodsWellFormed, Bool.and_eq_true, Bool.and_eq_true] at h
    rcases List.mem_cons.mp hd with rfl | hd
    · exact h.1
    · exact ih h.2 hd

/-! ## Trees up to positions -/

/-- Stands for every position; no character has it. -/
def Pos.nowhere : Pos := ⟨0, 0⟩

mutual

/-- The tree with the same position everywhere. -/
def Node.erasePos : Node → Node
  | .program items => .program (eraseAll items)
  | .declare name value constant _ => .declare name (eraseValue value) constant .nowhere
  | .function ⟨name, params, body, isAsync, _⟩ =>
    .function ⟨name, params, eraseBody body, isAsync, .nowhere⟩
  | .classDecl name parent methods _ => .classDecl name parent (eraseDefs methods) .nowhere
  | .importModule module _ => .importModule module .nowhere
  | .block items => .block (eraseAll items)
  | .print args => .print (eraseAll args)
  | .returnValue value => .returnValue (eraseValue value)
  | .yieldValue value => .yieldValue value.erasePos
  | .breakLoop => .breakLoop
  | .continueLoop => .continueLoop
  | .halt => .halt
  | .ifElse c t e => .ifElse c.erasePos t.erasePos (eraseValue e)
  | .whileLoop c b => .whileLoop c.erasePos b.erasePos
  | .loop b => .loop b.erasePos
  | .forEach var i b => .forEach var i.erasePos b.erasePos
  | .tryCatch b name h => .tryCatch b.erasePos name h.erasePos
  | .switch s cases d => .switch s.erasePos (eraseCases cases) (eraseDefault d)
  | .assign t v _ => .assign t.erasePos v.erasePos .nowhere
  | .lambda ⟨name, params, body, isAsync, _⟩ =>
    .lambda ⟨name, params, eraseBody body, isAsync, .nowhere⟩
  | .binary op a b _ => .binary op a.erasePos b.erasePos .nowhere
  | .logical op a b => .logical op a.erasePos b.erasePos
  | .unary op e _ => .unary op e.erasePos .nowhere
  | .await e => .await e.erasePos
  | .call c args _ => .call c.erasePos (eraseAll args) .nowhere
  | .member e name _ => .member e.erasePos name .nowhere
  | .index e i _ => .index e.erasePos i.erasePos .nowhere
  | .primitive p args _ => .primitive p (eraseAll args) .nowhere
  | .identifier name _ => .identifier name .nowhere
  | .this _ => .this .nowhere
  | .super method _ => .super method .nowhere
  | .number x => .number x
  | .text s => .text s
  | .bool b => .bool b
  | .null => .null
  | .array items => .array (eraseAll items)
  | .map pairs => .map (erasePairs pairs)
  | .error message => .error message

/-- Nodes without their positions. -/
def eraseAll : List Node → List Node
  | [] => []
  | n :: rest => n.erasePos :: eraseAll rest

/-- An optional node without its positions. -/
def eraseValue : Option Node → Option Node
  | none => none
  | some n => some n.erasePos

/-- The body of a function without its positions. -/
def eraseBody : FunctionBody Node → FunctionBody Node
  | .block stmts => .block (eraseAll stmts)
  | .expr value => .expr value.erasePos

/-- Function definitions without their positions. -/
def eraseDefs : List (FunctionDef Node) → List (FunctionDef Node)
  | [] => []
  | ⟨name, params, body, isAsync, _⟩ :: rest =>
    ⟨name, params, eraseBody body, isAsync, .nowhere⟩ :: eraseDefs rest

/-- Cases without their positions. -/
def eraseCases : List (SwitchCase Node) → List (SwitchCase Node)
  | [] => []
  | ⟨value, body⟩ :: rest => ⟨value.erasePos, eraseAll body⟩ :: eraseCases rest

/-- A default without its positions. -/
def eraseDefault : Option (List Node) → Option (List Node)
  | none => none
  | some body => some (eraseAll body)

/-- Entries without their positions. -/
def erasePairs : List (Node × Node) → List (Node × Node)
  | [] => []
  | (k, v) :: rest => (k.erasePos, v.erasePos) :: erasePairs rest

end

/-- A definition without its position and those of its body. -/
def FunctionDef.erasePos (d : FunctionDef Node) : FunctionDef Node :=
  { d with body := eraseBody d.body, pos := .nowhere }

/-- Positions are erased node by node. -/
theorem eraseAll_eq_map (items : List Node) : eraseAll items = items.map Node.erasePos := by
  induction items with
  | nil => rw [eraseAll, List.map_nil]
  | cons n rest ih => rw [eraseAll, ih, List.map_cons]

/-- So they are in definitions. -/
theorem eraseDefs_eq_map (defs : List (FunctionDef Node)) :
    eraseDefs defs = defs.map FunctionDef.erasePos := by
  induction defs with
  | nil => rw [eraseDefs, List.map_nil]
  | cons d rest ih => rw [eraseDefs, ih, List.map_cons, FunctionDef.erasePos]

/-- So they are in cases in a row. -/
theorem eraseCases_append (xs ys : List (SwitchCase Node)) :
    eraseCases (xs ++ ys) = eraseCases xs ++ eraseCases ys := by
  induction xs with
  | nil => rw [eraseCases, List.nil_append, List.nil_append]
  | cons c xs ih => rw [List.cons_append, eraseCases, eraseCases, ih, List.cons_append]

end BrailleScript
