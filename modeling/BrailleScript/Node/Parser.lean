import BrailleScript.Node
import BrailleScript.Token

/-!
# From tokens to program trees

Statements are parsed by their first token and expressions by the binding strength of their
operators.  Nesting is limited: a `Level` holds the parsers for the constructs one level further
in, and `Level.at` builds it by recursion on the number of levels that are left, so the recursion
of the grammar is a recursion on that number.  Everything that repeats on one level (lists,
operator chains, chains of assignments and of `else if`) is bounded by the tokens that are left,
since each repetition takes at least one.
-/

namespace BrailleScript

/-- Why tokens are no program, and where. -/
structure SyntaxError where
  message : String
  pos : Pos
  deriving Repr, DecidableEq

/-- The message with its position. -/
def SyntaxError.text (e : SyntaxError) : String :=
  e.message ++ " at " ++ e.pos.text

/-- A parser takes tokens off the front of the list, which ends with the end of input. -/
abbrev Parser (α : Type) := StateT (List Token) (Except SyntaxError) α

namespace Parser

/-- The deepest nesting of statements and expressions. -/
def maxNesting : Nat := 256

/-- The next token. -/
def peek : Parser Token := do
  match ← get with
  | t :: _ => return t
  | [] => return { kind := .endOfInput, raw := "", offset := 0, pos := ⟨1, 1⟩ }

/-- The kind of the token `n` places further on. -/
def peekAt (n : Nat) : Parser TokenKind := do
  match (← get)[n]? with
  | some t => return t.kind
  | none => return .endOfInput

/-- Takes the next token; the end of input stays. -/
def next : Parser Token := do
  let t ← peek
  if !t.kind.isEndOfInput then modify List.tail
  return t

/-- Fails with a message at a place. -/
def fail {α : Type} (message : String) (pos : Pos) : Parser α :=
  throw ⟨message, pos⟩

/-- Fails at the next token and names it. -/
def failHere {α : Type} (message : String) : Parser α := do
  let t ← peek
  fail (message ++ ", found " ++ t.kind.short) t.pos

/-- Whether the end of the input is next. -/
def atEnd : Parser Bool := do
  return (← peek).kind.isEndOfInput

/-- Whether the next token is of the given kind. -/
def check (p : TokenKind → Bool) : Parser Bool := do
  return p (← peek).kind

/-- Takes the next token if it is of the given kind. -/
def accept (p : TokenKind → Bool) : Parser Bool := do
  if ← check p then
    let _ ← next
    return true
  else return false

/-- Takes the next token, which must be of the given kind. -/
def expect (p : TokenKind → Bool) (message : String) : Parser Token := do
  if ← check p then next else failHere message

/-- Whether a delimiter is next. -/
def checkDelim (d : Delimiter) : Parser Bool :=
  check (TokenKind.isDelimiter d)

/-- Takes a delimiter if it is next. -/
def acceptDelim (d : Delimiter) : Parser Bool :=
  accept (TokenKind.isDelimiter d)

/-- Takes a delimiter, or fails with a message. -/
def expectDelim (d : Delimiter) (message : String) : Parser Token :=
  expect (TokenKind.isDelimiter d) message

/-- Takes an operator if it is next. -/
def acceptOp (o : Operator) : Parser Bool :=
  accept (TokenKind.isOperator o)

/-- Takes an operator, or fails with a message. -/
def expectOp (o : Operator) (message : String) : Parser Token :=
  expect (TokenKind.isOperator o) message

/-- Whether a keyword is next. -/
def checkKeyword (k : Keyword) : Parser Bool :=
  check (TokenKind.isKeyword k)

/-- Takes a keyword if it is next. -/
def acceptKeyword (k : Keyword) : Parser Bool :=
  accept (TokenKind.isKeyword k)

/-- Takes a keyword, or fails with a message. -/
def expectKeyword (k : Keyword) (message : String) : Parser Token :=
  expect (TokenKind.isKeyword k) message

/-- The name of the next token, which must be an identifier. -/
def expectIdentifier (message : String) : Parser String := do
  match (← peek).kind with
  | .identifier name =>
    let _ ← next
    return name
  | _ => failHere message

/-- The name after a dot, which may also be spelled like a keyword. -/
def expectMemberName : Parser String := do
  match (← peek).kind with
  | .identifier name =>
    let _ ← next
    return name
  | .keyword k =>
    let _ ← next
    return k.name
  | _ => failHere "Expected member name after '.'"

/-- A repetition that takes no token; see `repeatWhile`. -/
def stalled {α : Type} : Parser α :=
  failHere "Parser made no progress"

/-- Items as long as `more` holds, at most `fuel` of them. -/
def repeatFuel {α : Type} (more : Parser Bool) (item : Parser α) : Nat → Parser (List α)
  | 0 => stalled
  | fuel + 1 => do
    if ← more then
      let x ← item
      let xs ← repeatFuel more item fuel
      return x :: xs
    else return []

/-- Items as long as `more` holds.  Each item takes a token, so there are no more items than
tokens. -/
def repeatWhile {α : Type} (more : Parser Bool) (item : Parser α) : Parser (List α) := do
  repeatFuel more item ((← get).length + 1)

/-- Items with commas between them, at least one and at most `fuel`. -/
def separatedFuel {α : Type} (item : Parser α) : Nat → Parser (List α)
  | 0 => stalled
  | fuel + 1 => do
    let x ← item
    if ← acceptDelim .comma then
      let xs ← separatedFuel item fuel
      return x :: xs
    else return [x]

/-- Items with commas between them up to the closing delimiter, which is taken too. -/
def listUntil {α : Type} (close : Delimiter) (message : String) (item : Parser α) :
    Parser (List α) := do
  let items ←
    if ← checkDelim close then pure []
    else separatedFuel item ((← get).length + 1)
  let _ ← expectDelim close message
  return items

/-- The parsers for constructs one level further in. -/
structure Level where
  statement : Parser Node
  expression : Parser Node
  /-- The operand of a unary operator. -/
  operand : Parser Node

/-- Past the last level nothing can be parsed. -/
def Level.none : Level :=
  let refuse := failHere ("nesting deeper than " ++ toString maxNesting ++ " levels")
  { statement := refuse, expression := refuse, operand := refuse }

section

variable (inner : Level)

/-- Statements between braces. -/
def blockItems : Parser (List Node) := do
  let _ ← expectDelim .braceOpen "Expected '\x7b' to start block"
  let items ← repeatWhile (do return !(← checkDelim .braceClose) && !(← atEnd)) inner.statement
  let _ ← expectDelim .braceClose "Expected '\x7d' after block"
  return items

/-- A block, which has a scope of its own. -/
def block : Parser Node := do
  return .block (← blockItems inner)

/-- Parameter names between parentheses. -/
def params : Parser (List String) := do
  let _ ← expectDelim .parenOpen "Expected '(' before parameters"
  listUntil .parenClose "Expected ')' after parameters" (expectIdentifier "Expected parameter name")

/-- Arguments behind the opening parenthesis. -/
def arguments : Parser (List Node) :=
  listUntil .parenClose "Expected ')' after arguments" inner.expression

/-- A definition from `fn` on. -/
def functionDef (named isAsync : Bool) : Parser (FunctionDef Node) := do
  let start ← expectKeyword .fnKw "Expected 'fn'"
  let name ←
    if named then some <$> expectIdentifier "Expected function name" else pure none
  let params ← params
  let body ← blockItems inner
  return { name, params, body := .block body, isAsync, pos := start.pos }

/-! ### Expressions -/

/-- Whether `name (, name)* ) =>` follows. -/
def namesThenArrow : List Token → Bool
  | t :: u :: rest =>
    t.kind.isIdentifier &&
      (if u.kind.isDelimiter .comma then namesThenArrow rest
       else u.kind.isDelimiter .parenClose && (rest.head?.any (·.kind.isOperator .arrow)))
  | _ => false

/-- Whether the parameter list of a lambda and its arrow follow. -/
def looksLikeLambda : List Token → Bool
  | t :: u :: rest =>
    t.kind.isDelimiter .parenOpen &&
      (if u.kind.isDelimiter .parenClose then rest.head?.any (·.kind.isOperator .arrow)
       else namesThenArrow (u :: rest))
  | _ => false

/-- Whether a brace, a key and a colon follow. -/
def looksLikeMap : List Token → Bool
  | _ :: key :: colon :: _ =>
    (match key.kind with
     | .identifier _ | .text _ | .number _ => true
     | _ => false) && colon.kind.isDelimiter .colon
  | _ => false

/-- The parameters of a lambda, if one starts here. -/
def lambdaParams? : Parser (Option (List String)) := do
  let tokens ← get
  if (← peek).kind.isIdentifier && (← peekAt 1).isOperator .arrow then
    return some [← expectIdentifier "Expected parameter name"]
  else if looksLikeLambda tokens then
    return some (← params)
  else return none

/-- A call of a primitive behind its keyword. -/
def primitiveCall (k : Keyword) (p : Primitive) (pos : Pos) : Parser Node := do
  let _ ← expectDelim .parenOpen ("Expected '(' after '" ++ k.name ++ "'")
  return .primitive p (← arguments inner) pos

/-- The key of a map entry; `before` is the token in front of it, named at the end of input. -/
def mapKey (before : Token) : Parser Node := do
  let t ← if ← atEnd then pure before else next
  match t.kind with
  | .identifier name => return .text name
  | .text s => return .text s
  | .number x => return .number x
  -- a keyword is a key as it is spelled
  | .keyword k => return .text k.name
  | other => fail ("Expected map key, found " ++ other.short) t.pos

/-- Entries of a map, at most `fuel`; a comma may stand after the last one. -/
def mapEntries (before : Token) : Nat → Parser (List (Node × Node))
  | 0 => stalled
  | fuel + 1 => do
    let key ← mapKey before
    let _ ← expectDelim .colon "Expected ':' after map key"
    let value ← inner.expression
    let separator ← peek
    if ← acceptDelim .comma then
      -- a comma may stand behind the last entry
      if ← checkDelim .braceClose then return [(key, value)]
      else
        let rest ← mapEntries separator fuel
        return (key, value) :: rest
    else return [(key, value)]

/-- A map literal. -/
def mapLiteral : Parser Node := do
  let start ← expectDelim .braceOpen "Expected '\x7b'"
  let pairs ←
    if ← checkDelim .braceClose then pure []
    else mapEntries inner start ((← get).length + 1)
  let _ ← expectDelim .braceClose "Expected '\x7d' after map literal"
  return .map pairs

/-- An expression without operators around it. -/
def primary : Parser Node := do
  let t ← peek
  match t.kind with
  | .number x =>
    let _ ← next
    return .number x
  | .text s =>
    let _ ← next
    return .text s
  | .identifier name =>
    let _ ← next
    return .identifier name t.pos
  | .keyword .trueKw =>
    let _ ← next
    return .bool true
  | .keyword .falseKw =>
    let _ ← next
    return .bool false
  | .keyword .nullKw =>
    let _ ← next
    return .null
  | .keyword .thisKw =>
    let _ ← next
    return .this t.pos
  | .keyword .superKw =>
    let _ ← next
    let _ ← expectOp .dot "Expected '.' after 'super'"
    return .super (← expectMemberName) t.pos
  | .keyword .fnKw => return .lambda (← functionDef inner false false)
  | .keyword k =>
    -- `async` is only a part of an expression in front of `fn`
    if k = .asyncKw && (← peekAt 1).isKeyword .fnKw then
      let _ ← next
      return .lambda (← functionDef inner false true)
    else
      match Primitive.ofKeyword? k with
      | some p =>
        let _ ← next
        primitiveCall inner k p t.pos
      | none => fail ("Unexpected token " ++ t.kind.short) t.pos
  | .delimiter .parenOpen =>
    let _ ← next
    let e ← inner.expression
    let _ ← expectDelim .parenClose "Expected ')'"
    return e
  | .delimiter .bracketOpen =>
    let _ ← next
    return .array (← listUntil .bracketClose "Expected ']' after array items" inner.expression)
  | .delimiter .braceOpen => mapLiteral inner
  | _ => fail ("Unexpected token " ++ t.kind.short) t.pos

/-- Calls, members and indices behind an expression, at most `fuel`. -/
def postfixFuel (e : Node) : Nat → Parser Node
  | 0 => stalled
  | fuel + 1 => do
    let t ← peek
    if ← acceptDelim .parenOpen then
      let args ← arguments inner
      postfixFuel (.call e args t.pos) fuel
    else if ← acceptOp .dot then
      let name ← expectMemberName
      postfixFuel (.member e name t.pos) fuel
    else if ← acceptDelim .bracketOpen then
      let i ← inner.expression
      let _ ← expectDelim .bracketClose "Expected ']' after index"
      postfixFuel (.index e i t.pos) fuel
    else return e

/-- An operand with the calls, members and items behind it. -/
def postfixed : Parser Node := do
  let e ← primary inner
  postfixFuel inner e ((← get).length + 1)

/-- An expression with its unary operators. -/
def unary : Parser Node := do
  let t ← peek
  match t.kind with
  | .operator .bang =>
    let _ ← next
    -- the operand is one level further in
    return .unary .not (← inner.operand) t.pos
  | .operator .minus =>
    let _ ← next
    return .unary .negate (← inner.operand) t.pos
  | .keyword .awaitKw =>
    let _ ← next
    return .await (← inner.operand)
  | _ => postfixed inner

/-- The node of an infix operator. -/
def infixNode (op : Operator) (left right : Node) (pos : Pos) : Node :=
  match op with
  -- a pipe calls its right side on its left side
  | .pipe => .call right [left] pos
  | .both => .logical .and left right
  | .either => .logical .or left right
  | _ => .binary op left right pos

/-- The infix operator that comes next, if it binds at least as tight as `min`. -/
def infixAtLeast? (min : Nat) (t : Token) : Option Operator :=
  match t.kind with
  | .operator op => if op.isInfix && min ≤ op.precedence then some op else none
  | _ => none

/-- Extends `left` by operators that bind at least as tight as `min` and their right operands,
which `right` parses for the strength above the operator's; at most `fuel` of them. -/
def climbFuel (right : Nat → Parser Node) (min : Nat) (left : Node) : Nat → Parser Node
  | 0 => stalled
  | fuel + 1 => do
    let t ← peek
    match infixAtLeast? min t with
    | none => return left
    | some op =>
      let _ ← next
      -- operators of one strength chain to the left
      let r ← right (op.precedence + 1)
      climbFuel right min (infixNode op left r t.pos) fuel

/-- An expression whose operators bind at least as tight as `min`; `levels` strengths are left
above it, and with none left there are no operators. -/
def climb : Nat → Nat → Parser Node
  | 0, _ => unary inner
  | levels + 1, min => do
    let left ← unary inner
    climbFuel (climb levels) min left ((← get).length + 1)

/-- An expression with infix operators. -/
def operators : Parser Node :=
  climb inner 7 2

/-- Whether a value can be assigned to the expression. -/
def isTarget : Node → Bool
  | .identifier .. | .member .. | .index .. => true
  | _ => false

/-- A lambda, an assignment or an expression with operators; at most `fuel` lambdas and
assignments in a row. -/
def assignmentFuel : Nat → Parser Node
  | 0 => stalled
  | fuel + 1 => do
    let start ← peek
    match ← lambdaParams? with
    | some params =>
      let _ ← expectOp .arrow "Expected '=>' in lambda"
      let body ←
        if ← checkDelim .braceOpen then FunctionBody.block <$> blockItems inner
        else FunctionBody.expr <$> assignmentFuel fuel
      return .lambda { name := none, params, body, isAsync := false, pos := start.pos }
    | none =>
      let e ← operators inner
      let t ← peek
      if ← acceptOp .assign then
        if isTarget e then
          -- assignments chain to the right
          let value ← assignmentFuel fuel
          return .assign e value t.pos
        else fail "Invalid assignment target" t.pos
      else return e

/-- An assignment, or an expression without one. -/
def assignment : Parser Node := do
  assignmentFuel inner ((← get).length + 1)

/-! ### Statements -/

/-- A declaration of a variable or a constant. -/
def declaration (constant : Bool) : Parser Node := do
  let t ← next
  let name ← expectIdentifier "Expected variable name"
  if ← acceptOp .assign then
    return .declare name (some (← inner.expression)) constant t.pos
  else if constant then failHere "Expected '=' after constant name"
  else return .declare name none constant t.pos

/-- A method of a class. -/
def method : Parser (FunctionDef Node) := do
  let isAsync ← acceptKeyword .asyncKw
  let d ← functionDef inner true isAsync
  let _ ← acceptDelim .semicolon
  return d

/-- A declaration of a class. -/
def classDecl : Parser Node := do
  let t ← next
  let name ← expectIdentifier "Expected class name"
  let parent ←
    if ← acceptKeyword .extendsKw then
      some <$> expectIdentifier "Expected parent class name after 'extends'"
    else pure none
  let _ ← expectDelim .braceOpen "Expected '\x7b' to start class body"
  let methods ← repeatWhile (do return !(← checkDelim .braceClose) && !(← atEnd)) (method inner)
  let _ ← expectDelim .braceClose "Expected '\x7d' after class body"
  return .classDecl name parent methods t.pos

/-- A conditional and the conditionals chained behind `else`, at most `fuel`. -/
def conditionalFuel : Nat → Parser Node
  | 0 => stalled
  | fuel + 1 => do
    let _ ← next
    let condition ← inner.expression
    let thenBranch ← block inner
    if ← acceptKeyword .elseKw then
      let elseBranch ←
        -- a chain of conditions is no deeper than the first one
        if ← checkKeyword .ifKw then conditionalFuel fuel else block inner
      return .ifElse condition thenBranch (some elseBranch)
    else return .ifElse condition thenBranch none

/-- An `if`, with the conditions behind it. -/
def conditional : Parser Node := do
  conditionalFuel inner ((← get).length + 1)

/-- A `while` loop. -/
def whileLoop : Parser Node := do
  let _ ← next
  let condition ← inner.expression
  let body ← block inner
  return .whileLoop condition body

/-- A `for` loop over the items of a value. -/
def forLoop : Parser Node := do
  let _ ← next
  -- a parenthesis belongs to the clause only if a name and `in` follow it
  let parenthesized :=
    (← checkDelim .parenOpen) && (← peekAt 1).isIdentifier && (← peekAt 2).isKeyword .inKw
  if parenthesized then let _ ← next
  let var ← expectIdentifier "Expected loop variable after 'for'"
  let _ ← expectKeyword .inKw "Expected 'in' after loop variable"
  let iterable ← inner.expression
  if parenthesized then let _ ← expectDelim .parenClose "Expected ')' after for clause"
  let body ← block inner
  return .forEach var iterable body

/-- The name in a catch clause, with or without parentheses, or none. -/
def catchName : Parser (Option String) := do
  if ← acceptDelim .parenOpen then
    let name ← expectIdentifier "Expected name in catch clause"
    let _ ← expectDelim .parenClose "Expected ')' after catch name"
    return some name
  else
    match (← peek).kind with
    | .identifier name =>
      let _ ← next
      return some name
    | _ => return none

/-- A `try` with its handler. -/
def tryStatement : Parser Node := do
  let _ ← next
  let body ← block inner
  let _ ← expectKeyword .catchKw "Expected 'catch' after try block"
  let name ← catchName
  let handler ← block inner
  return .tryCatch body name handler

/-- A `print` with its arguments, in parentheses or not. -/
def print : Parser Node := do
  let _ ← next
  if ← acceptDelim .parenOpen then
    return .print (← arguments inner)
  else
    return .print [← inner.expression]

/-- Cases and at most one default up to the closing brace, at most `fuel` of them. -/
def switchFuel (cases : List (SwitchCase Node)) (default : Option (List Node)) :
    Nat → Parser (List (SwitchCase Node) × Option (List Node))
  | 0 => stalled
  | fuel + 1 => do
    if (← checkDelim .braceClose) || (← atEnd) then return (cases.reverse, default)
    else if ← acceptKeyword .caseKw then
      let value ← inner.expression
      let _ ← acceptDelim .colon
      let body ← blockItems inner
      switchFuel (⟨value, body⟩ :: cases) default fuel
    else if ← acceptKeyword .defaultKw then
      -- the default may stand anywhere, but only once
      if default.isSome then failHere "Duplicate 'default' in switch"
      else
        let _ ← acceptDelim .colon
        let body ← blockItems inner
        switchFuel cases (some body) fuel
    else failHere "Expected 'case' or 'default' in switch"

/-- A `switch` with its cases. -/
def switchStatement : Parser Node := do
  let _ ← next
  let subject ← inner.expression
  let _ ← expectDelim .braceOpen "Expected '\x7b' after switch subject"
  let (cases, default) ← switchFuel inner [] none ((← get).length + 1)
  let _ ← expectDelim .braceClose "Expected '\x7d' after switch"
  return .switch subject cases default

/-- Whether a `return` has no value. -/
def atStatementEnd : Parser Bool := do
  return (← atEnd) || (← checkDelim .braceClose) || (← checkDelim .semicolon)

/-- A `return`, with a value unless the statement ends there. -/
def returnStatement : Parser Node := do
  let _ ← next
  if ← atStatementEnd then return .returnValue none
  else return .returnValue (some (← inner.expression))

/-- An import of a module. -/
def importStatement : Parser Node := do
  let t ← next
  return .importModule (← expectIdentifier "Expected module name after 'import'") t.pos

/-- The token alone is the statement. -/
def single (n : Node) : Parser Node := do
  let _ ← next
  return n

/-- A statement without its terminator. -/
def bareStatement : Parser Node := do
  match (← peek).kind with
  | .keyword .letKw => declaration inner false
  | .keyword .constKw => declaration inner true
  | .keyword .classKw => classDecl inner
  | .keyword .ifKw => conditional inner
  | .keyword .whileKw => whileLoop inner
  | .keyword .loopKw =>
    let _ ← next
    return .loop (← block inner)
  | .keyword .forKw => forLoop inner
  | .keyword .tryKw => tryStatement inner
  | .keyword .returnKw => returnStatement inner
  | .keyword .yieldKw =>
    let _ ← next
    return .yieldValue (← inner.expression)
  | .keyword .printKw => print inner
  | .keyword .importKw => importStatement
  | .keyword .haltKw => single .halt
  | .keyword .breakKw => single .breakLoop
  | .keyword .continueKw => single .continueLoop
  | .keyword .switchKw => switchStatement inner
  | .keyword .fnKw =>
    -- without a name it is a lambda
    if (← peekAt 1).isIdentifier then return .function (← functionDef inner true false)
    else inner.expression
  | .keyword .asyncKw =>
    if (← peekAt 1).isKeyword .fnKw && (← peekAt 2).isIdentifier then
      let _ ← next
      return .function (← functionDef inner true true)
    else inner.expression
  | .delimiter .braceOpen =>
    -- empty braces are a block
    if looksLikeMap (← get) then inner.expression else block inner
  | _ => inner.expression

/-- A statement with its optional semicolon. -/
def statement : Parser Node := do
  let s ← bareStatement inner
  let _ ← acceptDelim .semicolon
  return s

end

/-- The parsers with `depth` levels left. -/
def Level.at : Nat → Level
  | 0 => .none
  | depth + 1 =>
    let inner := Level.at depth
    { statement := Parser.statement inner
      expression := assignment inner
      operand := unary inner }

/-- Comments are dropped, and an end of input is put at the end if there is none. -/
def prepare (tokens : List Token) : List Token :=
  let kept := tokens.filter (!·.kind.isComment)
  match kept.getLast? with
  | some t =>
    if t.kind.isEndOfInput then kept
    else kept ++ [{ kind := .endOfInput, raw := "", offset := 0, pos := t.pos }]
  | none => [{ kind := .endOfInput, raw := "", offset := 0, pos := ⟨1, 1⟩ }]

/-- Statements up to the end of input. -/
def program : Parser Node := do
  return .program (← repeatWhile (do return !(← atEnd)) (Level.at maxNesting).statement)

end Parser

/-- The program of a token list. -/
def parse (tokens : List Token) : Except SyntaxError Node :=
  (Parser.program.run (Parser.prepare tokens)).map Prod.fst

/-- The expression at the start of a token list. -/
def parseExpression (tokens : List Token) : Except SyntaxError Node :=
  ((Parser.Level.at Parser.maxNesting).expression.run (Parser.prepare tokens)).map Prod.fst

end BrailleScript
