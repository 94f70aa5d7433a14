import BrailleScript.Proofs.Node.WellFormed

/-!
# Programs as tokens

`Node.tokens` writes a program tree as the kinds of its tokens.  Every expression below another
node stands in parentheses, also one that is a statement of its own, and every statement has a
semicolon behind it; a lambda is written with an arrow, or from `async fn` on.

`Node.levels` is how deep the written form nests: the levels that the parser goes down in it, one
for each statement, each expression and each operand of a unary operator.

## Key results

- `statementTokens_eq_flatMap`, `expressionTokens_eq_map`: lists are written item by item
- `tokens_of_isExpression`: an expression is a single identifier, or begins with neither an
  identifier nor a closing delimiter
- `Node.noComment_tokens`: no comment is written
- `levels_pos`: statements and expressions take at least one level
-/

namespace BrailleScript

/-- The keyword that calls a primitive. -/
def Primitive.keyword : Primitive → Keyword
  | infer => .inferKw
  | embed => .embedKw
  | promptTemplate => .promptKw
  | pipeCompose => .composeKw
  | reflectExec => .reflectKw
  | semanticSearch => .searchKw

/-- The operator between the operands. -/
def LogicalOp.operator : LogicalOp → Operator
  | and => .both
  | or => .either

/-- The operator in front of the operand. -/
def UnaryOp.operator : UnaryOp → Operator
  | not => .bang
  | negate => .minus

namespace TokenKind

/-- Tokens in round brackets. -/
def parenthesized (ks : List TokenKind) : List TokenKind :=
  .delimiter .parenOpen :: (ks ++ [.delimiter .parenClose])

/-- Tokens in braces. -/
def braced (ks : List TokenKind) : List TokenKind :=
  .delimiter .braceOpen :: (ks ++ [.delimiter .braceClose])

/-- Tokens in square brackets. -/
def bracketed (ks : List TokenKind) : List TokenKind :=
  .delimiter .bracketOpen :: (ks ++ [.delimiter .bracketClose])

/-- The lists with commas between them. -/
def separated : List (List TokenKind) → List TokenKind
  | [] => []
  | [ks] => ks
  | ks :: ks' :: rest => ks ++ .delimiter .comma :: separated (ks' :: rest)

/-- A list with commas begins with its first entry. -/
theorem separated_cons (k : TokenKind) (ks : List TokenKind) (rest : List (List TokenKind)) :
    ∃ ks', separated ((k :: ks) :: rest) = k :: ks' := by
  cases rest with
  | nil => exact ⟨ks, rfl⟩
  | cons ks' rest => exact ⟨_, rfl⟩

/-- A parameter list. -/
def ofParams (params : List String) : List TokenKind :=
  parenthesized (separated (params.map fun p => [.identifier p]))

/-- A declared function with its body. -/
def ofFunction (name : Option String) (params : List String) (isAsync : Bool)
    (body : List TokenKind) : List TokenKind :=
  (if isAsync then [.keyword .asyncKw] else []) ++
    .keyword .fnKw :: .identifier (name.getD "") :: (ofParams params ++ body)

/-- What follows the name of a class. -/
def ofParent : Option String → List TokenKind
  | none => []
  | some name => [.keyword .extendsKw, .identifier name]

/-- What follows `catch`. -/
def ofCatchName : Option String → List TokenKind
  | none => []
  | some name => parenthesized [.identifier name]

/-- The key of a map entry. -/
def ofKey : Node → TokenKind
  | .number x => .number x
  | .text s => .text s
  | _ => .endOfInput

end TokenKind

open TokenKind

/-- A statement with its semicolon; `ks` is the node as tokens. -/
def Node.asStatement (n : Node) (ks : List TokenKind) : List TokenKind :=
  (if n.isExpression then parenthesized ks else ks) ++ [.delimiter .semicolon]

/-! ## Writing -/

mutual

/-- An expression without parentheses around it, a statement without its semicolon, or a whole
program. -/
def Node.tokens : Node → List TokenKind
  | .program items => statementTokens items
  | .declare name value constant _ =>
    .keyword (if constant then .constKw else .letKw) :: .identifier name :: initialTokens value
  | .function ⟨name, params, body, isAsync, _⟩ =>
    ofFunction name params isAsync (bodyTokens body)
  | .classDecl name parent methods _ =>
    .keyword .classKw :: .identifier name :: (ofParent parent ++ braced (methodTokens methods))
  | .importModule module _ => [.keyword .importKw, .identifier module]
  | .block items => braced (statementTokens items)
  | .print args => .keyword .printKw :: parenthesized (separated (expressionTokens args))
  | .returnValue value => .keyword .returnKw :: valueTokens value
  | .yieldValue value => .keyword .yieldKw :: parenthesized value.tokens
  | .breakLoop => [.keyword .breakKw]
  | .continueLoop => [.keyword .continueKw]
  | .halt => [.keyword .haltKw]
  | .ifElse c t e => .keyword .ifKw :: (parenthesized c.tokens ++ (t.tokens ++ elseTokens e))
  | .whileLoop c b => .keyword .whileKw :: (parenthesized c.tokens ++ b.tokens)
  | .loop b => .keyword .loopKw :: b.tokens
  | .forEach var i b =>
    .keyword .forKw :: .identifier var :: .keyword .inKw :: (parenthesized i.tokens ++ b.tokens)
  | .tryCatch b name h =>
    .keyword .tryKw :: (b.tokens ++ .keyword .catchKw :: (ofCatchName name ++ h.tokens))
  | .switch s cases d =>
    .keyword .switchKw :: (parenthesized s.tokens ++ braced (caseTokens cases ++ defaultTokens d))
  | .assign t v _ => parenthesized t.tokens ++ .operator .assign :: parenthesized v.tokens
  | .lambda ⟨_, params, body, isAsync, _⟩ =>
    if isAsync then .keyword .asyncKw :: .keyword .fnKw :: (ofParams params ++ bodyTokens body)
    else ofParams params ++ .operator .arrow :: bodyTokens body
  | .binary op a b _ => parenthesized a.tokens ++ .operator op :: parenthesized b.tokens
  | .logical op a b => parenthesized a.tokens ++ .operator op.operator :: parenthesized b.tokens
  | .unary op e _ => .operator op.operator :: parenthesized e.tokens
  | .await e => .keyword .awaitKw :: parenthesized e.tokens
  | .call c args _ =>
    parenthesized c.tokens ++ parenthesized (separated (expressionTokens args))
  | .member e name _ => parenthesized e.tokens ++ [.operator .dot, .identifier name]
  | .index e i _ => parenthesized e.tokens ++ bracketed (parenthesized i.tokens)
  | .primitive p args _ =>
    .keyword p.keyword :: parenthesized (separated (expressionTokens args))
  | .identifier name _ => [.identifier name]
  | .this _ => [.keyword .thisKw]
  | .super method _ => [.keyword .superKw, .operator .dot, .identifier method]
  | .number x => [.number x]
  | .text s => [.text s]
  | .bool b => [.keyword (if b then .trueKw else .falseKw)]
  | .null => [.keyword .nullKw]
  | .array items => bracketed (separated (expressionTokens items))
  | .map pairs => braced (separated (pairTokens pairs))
  | .error _ => []

/-- Statements in a row. -/
def statementTokens : List Node → List TokenKind
  | [] => []
  | s :: rest => s.asStatement s.tokens ++ statementTokens rest

/-- Expressions in a row, each in parentheses. -/
def expressionTokens : List Node → List (List TokenKind)
  | [] => []
  | e :: rest => parenthesized e.tokens :: expressionTokens rest

/-- What follows the name of a declared variable. -/
def initialTokens : Option Node → List TokenKind
  | none => []
  | some e => .operator .assign :: parenthesized e.tokens

/-- What follows `return`. -/
def valueTokens : Option Node → List TokenKind
  | none => []
  | some e => parenthesized e.tokens

/-- What follows the first branch of a conditional. -/
def elseTokens : Option Node → List TokenKind
  | none => []
  | some e => .keyword .elseKw :: e.tokens

/-- The body of a function in braces, or its expression in brackets. -/
def bodyTokens : FunctionBody Node → List TokenKind
  | .block stmts => braced (statementTokens stmts)
  | .expr value => parenthesized value.tokens

/-- The methods of a class. -/
def methodTokens : List (FunctionDef Node) → List TokenKind
  | [] => []
  | ⟨name, params, body, isAsync, _⟩ :: rest =>
    ofFunction name params isAsync (bodyTokens body) ++ methodTokens rest

/-- The cases of a switch. -/
def caseTokens : List (SwitchCase Node) → List TokenKind
  | [] => []
  | ⟨value, body⟩ :: rest =>
    .keyword .caseKw ::
      (parenthesized value.tokens ++
        .delimiter .colon :: (braced (statementTokens body) ++ caseTokens rest))

/-- Its default. -/
def defaultTokens : Option (List Node) → List TokenKind
  | none => []
  | some body => .keyword .defaultKw :: .delimiter .colon :: braced (statementTokens body)

/-- The entries of a map, each on its own. -/
def pairTokens : List (Node × Node) → List (List TokenKind)
  | [] => []
  | (k, v) :: rest =>
    (ofKey k :: .delimiter .colon :: parenthesized v.tokens) :: pairTokens rest

end

/-- Statements are written one after the other. -/
theorem statementTokens_eq_flatMap (items : List Node) :
    statementTokens items = items.flatMap fun s => s.asStatement s.tokens := by
  induction items with
  | nil => rw [statementTokens, List.flatMap_nil]
  | cons s rest ih => rw [statementTokens, ih, List.flatMap_cons]

/-- Expressions are written in brackets each. -/
theorem expressionTokens_eq_map (items : List Node) :
    expressionTokens items = items.map fun e => parenthesized e.tokens := by
  induction items with
  | nil => rw [expressionTokens, List.map_nil]
  | cons e rest ih => rw [expressionTokens, ih, List.map_cons]

/-- Methods are written one after the other. -/
theorem methodTokens_eq_flatMap (methods : List (FunctionDef Node)) :
    methodTokens methods =
      methods.flatMap fun d => ofFunction d.name d.params d.isAsync (bodyTokens d.body) := by
  induction methods with
  | nil => rw [methodTokens, List.flatMap_nil]
  | cons d rest ih => rw [methodTokens, ih, List.flatMap_cons]

/-! ## Comments

Nothing that is written is a comment, so the parser sees all of it. -/

/-- Whether no comment is among the kinds. -/
def TokenKind.noComment (ks : List TokenKind) : Bool :=
  ks.all (!·.isComment)

section

variable (k : TokenKind) (ks ks' : List TokenKind)

/-- Nothing is no comment. -/
@[simp] theorem noComment_nil : noComment [] = true := rfl

/-- A token in front is none when it is of another kind. -/
@[simp] theorem noComment_cons : noComment (k :: ks) = (!k.isComment && noComment ks) := rfl

/-- Two rows have none when neither has. -/
@[simp] theorem noComment_append : noComment (ks ++ ks') = (noComment ks && noComment ks') :=
  List.all_append

/-- Round brackets add none. -/
@[simp] theorem noComment_parenthesized : noComment (parenthesized ks) = noComment ks := by
  simp [parenthesized, isComment]

/-- Nor do braces. -/
@[simp] theorem noComment_braced : noComment (braced ks) = noComment ks := by
  simp [braced, isComment]

/-- Nor do square brackets. -/
@[simp] theorem noComment_bracketed : noComment (bracketed ks) = noComment ks := by
  simp [bracketed, isComment]

/-- Nor do commas. -/
@[simp] theorem noComment_separated (kss : List (List TokenKind)) :
    noComment (separated kss) = kss.all noComment := by
  induction kss with
  | nil => rfl
  | cons ks kss ih =>
    cases kss with
    | nil => simp [separated]
    | cons ks' kss => simp [separated, isComment, ih]

/-- Nor do parameters. -/
@[simp] theorem noComment_ofParams (params : List String) : noComment (ofParams params) = true := by
  simp [ofParams, isComment]

/-- Nor does the head of a function. -/
@[simp] theorem noComment_ofFunction (name : Option String) (params : List String)
    (isAsync : Bool) : noComment (ofFunction name params isAsync ks) = noComment ks := by
  cases isAsync <;> simp [ofFunction, isComment]

/-- Nor does a semicolon. -/
@[simp] theorem noComment_asStatement (n : Node) :
    noComment (n.asStatement ks) = noComment ks := by
  cases h : n.isExpression <;> simp [Node.asStatement, h, isComment]

end

mutual

/-- A written node has no comment, and so it is with all of its parts. -/
theorem Node.noComment_tokens : ∀ n : Node, noComment n.tokens = true
  | .program items | .block items => by simp [Node.tokens, noComment_statements items]
  | .declare _ value _ _ => by simp [Node.tokens, isComment, noComment_initial value]
  | .function ⟨_, _, body, _, _⟩ => by simp [Node.tokens, noComment_body body]
  | .classDecl _ parent methods _ => by
    cases parent <;> simp [Node.tokens, ofParent, isComment, noComment_methods methods]
  | .print args | .primitive _ args _ | .array args => by
    simp [Node.tokens, isComment, noComment_expressions args]
  | .returnValue value => by simp [Node.tokens, isComment, noComment_value value]
  | .ifElse c t e => by
    simp [Node.tokens, isComment, c.noComment_tokens, t.noComment_tokens, noComment_else e]
  | .whileLoop c b | .forEach _ c b | .assign c b _ | .binary _ c b _ | .logical _ c b
  | .index c b _ => by
    simp [Node.tokens, isComment, c.noComment_tokens, b.noComment_tokens]
  | .tryCatch b name h => by
    cases name <;> simp [Node.tokens, ofCatchName, isComment, b.noComment_tokens, h.noComment_tokens]
  | .switch s cases d => by
    simp [Node.tokens, isComment, s.noComment_tokens, noComment_cases cases, noComment_default d]
  | .lambda ⟨_, _, body, isAsync, _⟩ => by
    cases isAsync <;> simp [Node.tokens, isComment, noComment_body body]
  | .loop e | .yieldValue e | .unary _ e _ | .await e | .member e _ _ => by
    simp [Node.tokens, isComment, e.noComment_tokens]
  | .call c args _ => by
    simp [Node.tokens, c.noComment_tokens, noComment_expressions args]
  | .map pairs => by simp [Node.tokens, noComment_pairs pairs]
  | .importModule .. | .breakLoop | .continueLoop | .halt | .identifier .. | .this _ | .super ..
  | .number _ | .text _ | .bool _ | .null | .error _ => by simp [Node.tokens, isComment]

/-- Statements. -/
theorem noComment_statements : ∀ items, noComment (statementTokens items) = true
  | [] => rfl
  | s :: rest => by simp [statementTokens, s.noComment_tokens, noComment_statements rest]

/-- Expressions. -/
theorem noComment_expressions : ∀ items, (expressionTokens items).all noComment = true
  | [] => rfl
  | e :: rest => by simp [expressionTokens, e.noComment_tokens, noComment_expressions rest]

/-- The initial value of a declaration. -/
theorem noComment_initial : ∀ value, noComment (initialTokens value) = true
  | none => rfl
  | some e => by simp [initialTokens, isComment, e.noComment_tokens]

/-- An optional value. -/
theorem noComment_value : ∀ value, noComment (valueTokens value) = true
  | none => rfl
  | some e => by simp [valueTokens, e.noComment_tokens]

/-- The other branch of a condition. -/
theorem noComment_else : ∀ value, noComment (elseTokens value) = true
  | none => rfl
  | some e => by simp [elseTokens, isComment, e.noComment_tokens]

/-- The body of a function. -/
theorem noComment_body : ∀ body, noComment (bodyTokens body) = true
  | .block stmts => by simp [bodyTokens, noComment_statements stmts]
  | .expr value => by simp [bodyTokens, value.noComment_tokens]

/-- The methods of a class. -/
theorem noComment_methods : ∀ methods, noComment (methodTokens methods) = true
  | [] => rfl
  | ⟨_, _, body, _, _⟩ :: rest => by
    simp [methodTokens, noComment_body body, noComment_methods rest]

/-- The cases of a switch. -/
theorem noComment_cases : ∀ cases, noComment (caseTokens cases) = true
  | [] => rfl
  | ⟨value, body⟩ :: rest => by
    simp [caseTokens, isComment, value.noComment_tokens, noComment_statements body,
      noComment_cases rest]

/-- Its default. -/
theorem noComment_default : ∀ default, noComment (defaultTokens default) = true
  | none => rfl
  | some body => by simp [defaultTokens, isComment, noComment_statements body]

/-- The entries of a map. -/
theorem noComment_pairs : ∀ pairs, (pairTokens pairs).all noComment = true
  | [] => rfl
  | (k, v) :: rest => by
    cases k <;> simp [pairTokens, ofKey, isComment, v.noComment_tokens, noComment_pairs rest]

end

/-! ## Nesting -/

/-- The levels of a statement, where `levels` are those of the node: an expression takes one more
for its parentheses, and one for the statement. -/
def Node.asStatementLevels (n : Node) (levels : Nat) : Nat :=
  if n.isExpression then 2 + levels else levels

mutual

/-- The levels that the parser goes down in the node as it is written. -/
def Node.levels : Node → Nat
  | .program items => statementLevels items
  | .declare _ value _ _ | .returnValue value => 1 + valueLevels value
  | .function ⟨_, _, body, _, _⟩ => 1 + bodyLevels body
  | .classDecl _ _ methods _ => 1 + methodLevels methods
  | .block items => 1 + statementLevels items
  | .print args | .primitive _ args _ | .array args => 1 + expressionLevels args
  | .ifElse c t e => max (2 + c.levels) (max t.levels (elseLevels e))
  | .whileLoop c b | .forEach _ c b => max (2 + c.levels) b.levels
  | .loop b => b.levels
  | .tryCatch b _ h => max b.levels h.levels
  | .switch s cases d =>
    max (2 + s.levels) (1 + max (caseLevels cases) (defaultLevels d))
  | .assign a b _ | .binary _ a b _ | .logical _ a b => 1 + max a.levels b.levels
  | .lambda ⟨_, _, body, _, _⟩ => 1 + bodyLevels body
  | .yieldValue e | .unary _ e _ | .await e => 2 + e.levels
  | .call c args _ => 1 + max c.levels (expressionLevels args)
  | .member e _ _ => 1 + e.levels
  | .index e i _ => 1 + max e.levels (1 + i.levels)
  | .map pairs => 1 + pairLevels pairs
  | .importModule .. | .breakLoop | .continueLoop | .halt | .identifier .. | .this _ | .super ..
  | .number _ | .text _ | .bool _ | .null | .error _ => 1

/-- How many levels statements need at most. -/
def statementLevels : List Node → Nat
  | [] => 0
  | s :: rest => max (s.asStatementLevels s.levels) (statementLevels rest)

/-- How many expressions do, which stand in brackets. -/
def expressionLevels : List Node → Nat
  | [] => 0
  | e :: rest => max (1 + e.levels) (expressionLevels rest)

/-- How many an optional value does. -/
def valueLevels : Option Node → Nat
  | none => 0
  | some e => 1 + e.levels

/-- How many the other branch of a condition does. -/
def elseLevels : Option Node → Nat
  | none => 0
  | some e => e.levels

/-- How many the body of a function does. -/
def bodyLevels : FunctionBody Node → Nat
  | .block stmts => statementLevels stmts
  | .expr value => value.levels

/-- How many the methods of a class do. -/
def methodLevels : List (FunctionDef Node) → Nat
  | [] => 0
  | ⟨_, _, body, _, _⟩ :: rest => max (bodyLevels body) (methodLevels rest)

/-- How many the cases of a switch do. -/
def caseLevels : List (SwitchCase Node) → Nat
  | [] => 0
  | ⟨value, body⟩ :: rest =>
    max (max (1 + value.levels) (statementLevels body)) (caseLevels rest)

/-- How many its default does. -/
def defaultLevels : Option (List Node) → Nat
  | none => 0
  | some body => statementLevels body

/-- How many the entries of a map do. -/
def pairLevels : List (Node × Node) → Nat
  | [] => 0
  | (_, v) :: rest => max (1 + v.levels) (pairLevels rest)

end

/-- One of some statements needs no more levels than all. -/
theorem asStatementLevels_le_of_mem {items : List Node} {s : Node} (h : s ∈ items) :
    s.asStatementLevels s.levels ≤ statementLevels items := by
  induction items with
  | nil => exact absurd h List.not_mem_nil
  | cons t rest ih =>
    rw [statementLevels]
    rcases List.mem_cons.mp h with rfl | h
    · exact Nat.le_max_left _ _
    · exact Nat.le_trans (ih h) (Nat.le_max_right _ _)

/-- Nor does one of some expressions. -/
theorem levels_le_of_mem {items : List Node} {e : Node} (h : e ∈ items) :
    1 + e.levels ≤ expressionLevels items := by
  induction items with
  | nil => exact absurd h List.not_mem_nil
  | cons t rest ih =>
    rw [expressionLevels]
    rcases List.mem_cons.mp h with rfl | h
    · exact Nat.le_max_left _ _
    · exact Nat.le_trans (ih h) (Nat.le_max_right _ _)

/-- Nor does the body of one of some methods. -/
theorem bodyLevels_le_of_mem {methods : List (FunctionDef Node)} {d : FunctionDef Node}
    (h : d ∈ methods) : bodyLevels d.body ≤ methodLevels methods := by
  induction methods with
  | nil => exact absurd h List.not_mem_nil
  | cons t rest ih =>
    rw [methodLevels]
    rcases List.mem_cons.mp h with rfl | h
    · exact Nat.le_max_left _ _
    · exact Nat.le_trans (ih h) (Nat.le_max_right _ _)

/-- An expression, well-formed. -/
def Node.IsTerm (e : Node) : Prop :=
  e.isExpression = true ∧ e.wellFormed = true

namespace Node

/-- A well-formed node needs a level. -/
theorem levels_pos {n : Node} (h : n.wellFormed = true) : 0 < n.levels := by
  cases n with
  | program items => cases h
  | loop b =>
    -- the level of a loop is that of its body, which is a block
    rw [wellFormed, Bool.and_eq_true] at h
    obtain ⟨items, rfl⟩ := eq_block_of_isBlock h.1
    rw [levels, levels]
    omega
  | tryCatch b name handler =>
    simp only [wellFormed, Bool.and_eq_true] at h
    obtain ⟨items, rfl⟩ := eq_block_of_isBlock h.1.1
    rw [levels, levels]
    omega
  | _ => simp only [levels]; omega

/-- An expression is a single identifier, or begins with neither an identifier nor a closing
parenthesis. -/
theorem tokens_of_isExpression {e : Node} (h : e.isExpression = true) :
    (∃ name, e.tokens = [.identifier name]) ∨
      ∃ k ks, e.tokens = k :: ks ∧ k.isIdentifier = false ∧
        k.isDelimiter .parenClose = false := by
  cases e with
  | identifier name pos => exact .inl ⟨name, by rw [tokens]⟩
  | lambda d =>
    obtain ⟨name, params, body, isAsync, pos⟩ := d
    rw [tokens]
    -- `async` in front, or an opening parenthesis
    cases isAsync with
    | true => exact .inr ⟨_, _, rfl, rfl, rfl⟩
    | false => exact .inr ⟨_, _, rfl, rfl, rfl⟩
  | program | declare | function | classDecl | importModule | block | print | returnValue
  | yieldValue | breakLoop | continueLoop | halt | ifElse | whileLoop | loop | forEach | tryCatch
  | switch | error => cases h
  | _ => exact .inr ⟨_, _, rfl, rfl, rfl⟩

/-- A statement begins with a keyword, a parenthesis or a brace. -/
theorem asStatement_head {s : Node} (h : s.wellFormed = true) :
    ∃ k ks, s.asStatement s.tokens = k :: ks ∧
      ((∃ w, k = .keyword w) ∨ k = .delimiter .parenOpen ∨ k = .delimiter .braceOpen) := by
  cases s with
  | program items => cases h
  | error message => cases h
  | function d =>
    obtain ⟨name, params, body, isAsync, pos⟩ := d
    rw [asStatement, tokens]
    cases isAsync with
    | true => exact ⟨_, _, rfl, .inl ⟨_, rfl⟩⟩
    | false => exact ⟨_, _, rfl, .inl ⟨_, rfl⟩⟩
  | block items => exact ⟨_, _, rfl, .inr (.inr rfl)⟩
  | declare | classDecl | importModule | print | returnValue | yieldValue | breakLoop
  | continueLoop | halt | ifElse | whileLoop | loop | forEach | tryCatch | switch =>
    exact ⟨_, _, rfl, .inl ⟨_, rfl⟩⟩
  | _ => exact ⟨_, _, rfl, .inr (.inl rfl)⟩

/-- The tokens in which a program is written, all in one place. -/
def written (program : Node) : List Token :=
  program.tokens.map fun kind => ⟨kind, "", 0, .start⟩

end Node

end BrailleScript
