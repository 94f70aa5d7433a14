import BrailleScript.Node.Parser

/-!
# Parsers and their calls further in

The parsers of one level take those of the next as an argument.  All they do with them is to call
them: a `Plan` is such a parser as a tree of steps, in which the calls stand apart from the tokens
that are taken in between.  Every parser of the grammar has a plan, and how the calls are made can
then be said of the plans.

## Key results

- `Planned.bind`, `Planned.repeatWhile`, `Planned.listUntil`: parsers that are put together
- `Rule.planned`: every parser of the grammar has a plan
-/

namespace BrailleScript

namespace Parser

/-- The parsers that stand one level further in than their callers. -/
inductive Guarded where
  | statement | expression | operand

/-- The guarded parsers of a level. -/
def Level.parser (inner : Level) : Guarded → Parser Node
  | .statement => inner.statement
  | .expression => inner.expression
  | .operand => inner.operand

/-- The parser of a level with the next one inside. -/
def Guarded.rule : Guarded → Level → Parser Node
  | .statement, inner => Parser.statement inner
  | .expression, inner => assignment inner
  | .operand, inner => unary inner

/-- What a parser does step by step: it takes tokens by itself or calls a parser further in, and
goes on with the outcome. -/
inductive Plan (α : Type) : Type 1 where
  | done (x : α)
  | tokens {β : Type} (p : Parser β) (next : β → Plan α)
  | call (g : Guarded) (next : Node → Plan α)

variable {α β : Type}

namespace Plan

/-- The parser with this plan, with `inner` for the calls. -/
def run (inner : Level) : Plan α → Parser α
  | done x => pure x
  | tokens p next => p >>= fun x => (next x).run inner
  | call g next => inner.parser g >>= fun n => (next n).run inner

/-- One plan after the other. -/
def bind (g : α → Plan β) : Plan α → Plan β
  | done x => g x
  | tokens p next => tokens p fun x => (next x).bind g
  | call k next => call k fun n => (next n).bind g

/-- A plan is run as the parsers that it puts in a row. -/
theorem run_bind (inner : Level) (g : α → Plan β) (plan : Plan α) :
    (plan.bind g).run inner = plan.run inner >>= fun x => (g x).run inner := by
  induction plan with
  | done x => rw [bind, run, pure_bind]
  | tokens p next ih => simp only [bind, run, bind_assoc, ih]
  | call k next ih => simp only [bind, run, bind_assoc, ih]

end Plan

/-- The plan is that of the parser, whatever stands further in. -/
def Plan.Describes (plan : Plan α) (P : Level → Parser α) : Prop :=
  ∀ inner, plan.run inner = P inner

/-- The parser has a plan. -/
def Planned (P : Level → Parser α) : Prop :=
  ∃ plan : Plan α, plan.Describes P

/-! ## Putting plans together -/

namespace Planned

variable {P : Level → Parser α} {Q : α → Level → Parser β}

/-- A parser without calls. -/
theorem tokens (p : Parser α) : Planned fun _ => p :=
  ⟨.tokens p .done, fun _ => bind_pure p⟩

/-- Each guarded parser has the plan to call it. -/
theorem call (g : Guarded) : Planned fun inner => inner.parser g :=
  ⟨.call g .done, fun inner => bind_pure (inner.parser g)⟩

/-- That of statements does. -/
theorem statement : Planned fun inner => inner.statement :=
  call .statement

/-- That of expressions does. -/
theorem expression : Planned fun inner => inner.expression :=
  call .expression

/-- That of operands does. -/
theorem operand : Planned fun inner => inner.operand :=
  call .operand

/-- Parsers with plans have one in sequence. -/
theorem bind (hP : Planned P) (hQ : ∀ x, Planned (Q x)) :
    Planned fun inner => P inner >>= fun x => Q x inner := by
  obtain ⟨plan, hplan⟩ := hP
  refine ⟨plan.bind fun x => (hQ x).choose, fun inner => ?_⟩
  rw [Plan.run_bind, hplan inner]
  exact congrArg _ (funext fun x => (hQ x).choose_spec inner)

/-- Tokens are taken first. -/
theorem after {p : Parser α} (hQ : ∀ x, Planned (Q x)) :
    Planned fun inner => p >>= fun x => Q x inner :=
  (tokens p).bind hQ

/-- The outcome is all that is changed. -/
theorem result {f : α → β} (hP : Planned P) :
    Planned fun inner => P inner >>= fun x => pure (f x) :=
  hP.bind fun _ => tokens _

/-- So have parsers with changed results. -/
theorem mapped {f : α → β} (hP : Planned P) : Planned fun inner => f <$> P inner := by
  simp only [map_eq_pure_bind]
  exact hP.result

/-- Tokens are taken after the calls. -/
theorem closed {p : α → Parser β} (hP : Planned P) : Planned fun inner => P inner >>= p :=
  hP.bind fun x => tokens (p x)

/-- So have parsers that are chosen between. -/
theorem ite {P' : Level → Parser α} {c : Prop} [Decidable c] (hP : Planned P) (hP' : Planned P') :
    Planned fun inner => if c then P inner else P' inner := by
  by_cases hc : c
  · simpa only [if_pos hc] using hP
  · simpa only [if_neg hc] using hP'

/-- So have parsers that are repeated. -/
theorem repeatFuel {more : Parser Bool} (hP : Planned P) (fuel : Nat) :
    Planned fun inner => Parser.repeatFuel more (P inner) fuel := by
  induction fuel with
  | zero => exact tokens _
  | succ fuel ih => exact after fun _ => ite (hP.bind fun _ => ih.result) (tokens _)

/-- So have those repeated as long as there is more. -/
theorem repeatWhile {more : Parser Bool} (hP : Planned P) :
    Planned fun inner => Parser.repeatWhile more (P inner) :=
  after fun s => hP.repeatFuel (s.length + 1)

/-- So have lists with commas. -/
theorem separatedFuel (hP : Planned P) (fuel : Nat) :
    Planned fun inner => Parser.separatedFuel (P inner) fuel := by
  induction fuel with
  | zero => exact tokens _
  | succ fuel ih => exact hP.bind fun _ => after fun _ => ite ih.result (tokens _)

/-- So have lists up to their ends. -/
theorem listUntil {close : Delimiter} {message : String} (hP : Planned P) :
    Planned fun inner => Parser.listUntil close message (P inner) := by
  refine after fun empty => ?_
  cases empty with
  | true => exact tokens _
  | false => exact after fun s => (hP.separatedFuel (s.length + 1)).closed

end Planned

/-! ## Blocks and functions -/

/-- The items of a block have a plan, as have the other parts of the grammar. -/
theorem blockItems_planned : Planned blockItems :=
  .after fun _ => Planned.statement.repeatWhile.closed

/-- A block. -/
theorem block_planned : Planned block :=
  blockItems_planned.result

/-- Arguments. -/
theorem arguments_planned : Planned arguments :=
  Planned.expression.listUntil

/-- A function definition. -/
theorem functionDef_planned (named isAsync : Bool) :
    Planned fun inner => functionDef inner named isAsync := by
  refine .after fun start => ?_
  -- the parameters and the body follow the name, if there is one
  have hrest (name : Option String) : Planned fun inner => (do
      let params ← params
      let body ← blockItems inner
      return (⟨name, params, .block body, isAsync, start.pos⟩ : FunctionDef Node)) :=
    .after fun _ => blockItems_planned.result
  cases named with
  | true => exact .after hrest
  | false => exact hrest none

/-! ## Expressions -/

/-- The call of a primitive. -/
theorem primitiveCall_planned (k : Keyword) (p : Primitive) (pos : Pos) :
    Planned fun inner => primitiveCall inner k p pos :=
  .after fun _ => arguments_planned.result

/-- The entries of a map. -/
theorem mapEntries_planned (before : Token) (fuel : Nat) :
    Planned fun inner => mapEntries inner before fuel := by
  induction fuel generalizing before with
  | zero => exact .tokens _
  | succ fuel ih =>
    refine .after fun key => .after fun _ => Planned.expression.bind fun value => ?_
    refine .after fun separator => .after fun more => .ite ?_ (.tokens _)
    exact .after fun closing => .ite (.tokens _) (ih separator).result

/-- A map in its braces. -/
theorem mapLiteral_planned : Planned mapLiteral := by
  refine .after fun start => .after fun empty => ?_
  cases empty with
  | true => exact .tokens _
  | false => exact .after fun s => (mapEntries_planned start (s.length + 1)).closed

/-- A primary. -/
theorem primary_planned : Planned primary := by
  refine .after fun t => ?_
  obtain ⟨kind, -, -, pos⟩ := t
  cases kind with
  | keyword k =>
    have hasync : Planned fun inner => (do
        let _ ← next
        return Node.lambda (← functionDef inner false true)) :=
      .after fun _ => (functionDef_planned false true).result
    cases k with
    | trueKw | falseKw | nullKw | thisKw | superKw => exact .tokens _
    | fnKw => exact (functionDef_planned false false).result
    | _ =>
      -- any other keyword is that of a primitive or none of an expression
      refine .after fun _ => .ite hasync ?_
      first
      | exact .tokens _
      | exact .after fun _ => primitiveCall_planned _ _ _
  | delimiter d =>
    cases d with
    | parenOpen => exact .after fun _ => Planned.expression.closed
    | bracketOpen => exact .after fun _ => Planned.expression.listUntil.result
    | braceOpen => exact mapLiteral_planned
    | _ => exact .tokens _
  | _ => exact .tokens _

/-- What stands behind a primary. -/
theorem postfixFuel_planned (e : Node) (fuel : Nat) :
    Planned fun inner => postfixFuel inner e fuel := by
  induction fuel generalizing e with
  | zero => exact .tokens _
  | succ fuel ih =>
    refine .after fun t => .after fun isCall => ?_
    refine .ite (arguments_planned.bind fun args => ih _) (.after fun isMember => ?_)
    refine .ite (.after fun name => ih _) (.after fun isIndex => ?_)
    exact .ite (Planned.expression.bind fun i => .after fun _ => ih _) (.tokens _)

/-- A primary with that. -/
theorem postfixed_planned : Planned postfixed :=
  primary_planned.bind fun e => .after fun s => postfixFuel_planned e (s.length + 1)

/-- An operand with its prefix operators. -/
theorem unary_planned : Planned unary := by
  refine .after fun t => ?_
  -- an operand is asked of the inner level
  have hoperand {f : Node → Node} : Planned fun inner => (do
      let _ ← next
      return f (← inner.operand)) :=
    .after fun _ => Planned.operand.result
  obtain ⟨kind, -, -, pos⟩ := t
  cases kind with
  | operator o =>
    cases o with
    | bang | minus => exact hoperand
    | _ => exact postfixed_planned
  | keyword k =>
    cases k with
    | awaitKw => exact hoperand
    | _ => exact postfixed_planned
  | _ => exact postfixed_planned

/-- Operators with their right operands. -/
theorem climbFuel_planned {right : Nat → Level → Parser Node} (hr : ∀ m, Planned (right m))
    (min : Nat) (left : Node) (fuel : Nat) :
    Planned fun inner => climbFuel (fun m => right m inner) min left fuel := by
  induction fuel generalizing left with
  | zero => exact .tokens _
  | succ fuel ih =>
    refine .after fun t => ?_
    -- no operator ends the climb
    cases infixAtLeast? min t with
    | none => exact .tokens _
    | some op => exact .after fun _ => (hr _).bind fun r => ih _

/-- A row of them. -/
theorem climb_planned (levels min : Nat) : Planned fun inner => climb inner levels min := by
  induction levels generalizing min with
  | zero => exact unary_planned
  | succ levels ih =>
    exact unary_planned.bind fun left =>
      .after fun s => climbFuel_planned ih min left (s.length + 1)

/-- An expression with some fuel. -/
theorem assignmentFuel_planned (fuel : Nat) : Planned fun inner => assignmentFuel inner fuel := by
  induction fuel with
  | zero => exact .tokens _
  | succ fuel ih =>
    refine .after fun start => .after fun params? => ?_
    cases params? with
    | some params =>
      refine .after fun _ => .after fun isBlock => ?_
      cases isBlock with
      | true => exact blockItems_planned.mapped.result
      | false => exact ih.mapped.result
    | none =>
      -- the value is read at the same level, without a call
      refine (climb_planned 7 2).bind fun e => .after fun t => .after fun assigned => ?_
      exact .ite (.ite ih.result (.tokens _)) (.tokens _)

/-- An expression. -/
theorem assignment_planned : Planned assignment :=
  .after fun s => assignmentFuel_planned (s.length + 1)

/-! ## Statements -/

/-- A declaration. -/
theorem declaration_planned (constant : Bool) :
    Planned fun inner => declaration inner constant :=
  .after fun _ => .after fun _ => .after fun _ => .ite Planned.expression.result (.tokens _)

/-- A method. -/
theorem method_planned : Planned method :=
  .after fun isAsync => (functionDef_planned true isAsync).closed

/-- A class. -/
theorem classDecl_planned : Planned classDecl := by
  refine .after fun t => .after fun name => .after fun extends? => ?_
  -- the body follows the name of the parent, if there is one
  have hrest (parent : Option String) : Planned fun inner => (do
      let _ ← expectDelim .braceOpen "Expected '\x7b' to start class body"
      let methods ← repeatWhile (do return !(← checkDelim .braceClose) && !(← atEnd)) (method inner)
      let _ ← expectDelim .braceClose "Expected '\x7d' after class body"
      return Node.classDecl name parent methods t.pos) :=
    .after fun _ => method_planned.repeatWhile.closed
  cases extends? with
  | true => exact .after hrest
  | false => exact hrest none

/-- A condition with some fuel. -/
theorem conditionalFuel_planned (fuel : Nat) : Planned fun inner => conditionalFuel inner fuel := by
  induction fuel with
  | zero => exact .tokens _
  | succ fuel ih =>
    refine .after fun _ => Planned.expression.bind fun condition => ?_
    refine block_planned.bind fun thenBranch => .after fun hasElse => .ite ?_ (.tokens _)
    refine .after fun chained => ?_
    -- behind `else` stands another condition or a block
    cases chained with
    | true => exact ih.result
    | false => exact block_planned.result

/-- A condition. -/
theorem conditional_planned : Planned conditional :=
  .after fun s => conditionalFuel_planned (s.length + 1)

/-- A loop with a condition. -/
theorem whileLoop_planned : Planned whileLoop :=
  .after fun _ => Planned.expression.bind fun _ => block_planned.result

/-- A loop over items or an endless one. -/
theorem forLoop_planned : Planned forLoop := by
  refine .after fun _ => .after fun opens => .after fun named => .after fun within => ?_
  have hbody (var : String) (i : Node) : Planned fun inner => (do
      return Node.forEach var i (← block inner)) :=
    block_planned.result
  -- the parentheses are taken around the same steps
  cases opens && named.isIdentifier && within.isKeyword .inKw with
  | true =>
    refine .after fun _ => .after fun var => .after fun _ => Planned.expression.bind fun i => ?_
    exact .after fun _ => hbody var i
  | false =>
    exact .after fun var => .after fun _ => Planned.expression.bind fun i => hbody var i

/-- A try statement. -/
theorem tryStatement_planned : Planned tryStatement := by
  refine .after fun _ => block_planned.bind fun body => .after fun _ => .after fun name => ?_
  exact block_planned.result

/-- A print statement. -/
theorem print_planned : Planned print :=
  .after fun _ => .after fun _ => .ite arguments_planned.result Planned.expression.result

/-- The cases of a switch. -/
theorem switchFuel_planned (cases : List (SwitchCase Node)) (default : Option (List Node))
    (fuel : Nat) : Planned fun inner => switchFuel inner cases default fuel := by
  induction fuel generalizing cases default with
  | zero => exact .tokens _
  | succ fuel ih =>
    refine .after fun closing => .after fun ended => .ite (.tokens _) (.after fun isCase => ?_)
    refine .ite ?_ ?_
    · refine Planned.expression.bind fun value => .after fun _ => ?_
      exact blockItems_planned.bind fun body => ih _ _
    · refine .after fun isDefault => .ite (.ite (.tokens _) ?_) (.tokens _)
      exact .after fun _ => blockItems_planned.bind fun body => ih _ _

/-- A switch. -/
theorem switchStatement_planned : Planned switchStatement := by
  refine .after fun _ => Planned.expression.bind fun subject => .after fun _ => .after fun s => ?_
  exact (switchFuel_planned [] none (s.length + 1)).closed

/-- A return. -/
theorem returnStatement_planned : Planned returnStatement :=
  .after fun _ => .after fun _ => .ite (.tokens _) Planned.expression.result

/-- A statement without its semicolon. -/
theorem bareStatement_planned : Planned bareStatement := by
  refine .after fun t => ?_
  -- with or without `async` in front
  have hfunction (isAsync : Bool) : Planned fun inner => (do
      return Node.function (← functionDef inner true isAsync)) :=
    (functionDef_planned true isAsync).result
  obtain ⟨kind, -, -, pos⟩ := t
  cases kind with
  | keyword k =>
    cases k with
    | letKw => exact declaration_planned false
    | constKw => exact declaration_planned true
    | classKw => exact classDecl_planned
    | ifKw => exact conditional_planned
    | whileKw => exact whileLoop_planned
    | loopKw => exact .after fun _ => block_planned.result
    | forKw => exact forLoop_planned
    | tryKw => exact tryStatement_planned
    | returnKw => exact returnStatement_planned
    | yieldKw => exact .after fun _ => Planned.expression.result
    | printKw => exact print_planned
    | importKw | haltKw | breakKw | continueKw => exact .tokens _
    | switchKw => exact switchStatement_planned
    | fnKw => exact .after fun _ => .ite (hfunction false) .expression
    | asyncKw =>
      refine .after fun _ => .after fun _ => .ite (.after fun _ => hfunction true) .expression
    | _ => exact .expression
  | delimiter d =>
    cases d with
    | braceOpen => exact .after fun s => .ite .expression block_planned
    | _ => exact .expression
  | _ => exact .expression

/-- A statement. -/
theorem statement_planned : Planned Parser.statement :=
  bareStatement_planned.closed

/-- A program. -/
theorem program_planned :
    Planned fun inner => Parser.repeatWhile (do return !(← atEnd)) inner.statement :=
  Planned.statement.repeatWhile

/-! ## The grammar -/

/-- The parsers of the grammar, each with the level further in left open. -/
inductive Rule : {α : Type} → (Level → Parser α) → Prop
  | blockItems : Rule blockItems
  | block : Rule block
  | params : Rule fun _ => params
  | arguments : Rule arguments
  | functionDef (named isAsync : Bool) : Rule fun inner => functionDef inner named isAsync
  | lambdaParams : Rule fun _ => lambdaParams?
  | primitiveCall (k : Keyword) (p : Primitive) (pos : Pos) :
    Rule fun inner => primitiveCall inner k p pos
  | mapKey (before : Token) : Rule fun _ => mapKey before
  | mapLiteral : Rule mapLiteral
  | primary : Rule primary
  | postfixed : Rule postfixed
  | unary : Rule unary
  | climb (levels min : Nat) : Rule fun inner => climb inner levels min
  | assignment : Rule assignment
  | declaration (constant : Bool) : Rule fun inner => declaration inner constant
  | method : Rule method
  | classDecl : Rule classDecl
  | conditional : Rule conditional
  | whileLoop : Rule whileLoop
  | forLoop : Rule forLoop
  | catchName : Rule fun _ => catchName
  | tryStatement : Rule tryStatement
  | print : Rule print
  | switchStatement : Rule switchStatement
  | returnStatement : Rule returnStatement
  | importStatement : Rule fun _ => importStatement
  | single (node : Node) : Rule fun _ => single node
  | bareStatement : Rule bareStatement
  | statement : Rule Parser.statement
  | program : Rule fun inner => repeatWhile (do return !(← atEnd)) inner.statement
  /-- The parsers of the next level. -/
  | further (g : Guarded) : Rule fun inner => inner.parser g

/-- Every parser of the grammar has a plan. -/
theorem Rule.planned {P : Level → Parser α} (h : Rule P) : Planned P := by
  -- parsers that only take tokens have a plan of them, and the others one of their own
  cases h with
  | params | lambdaParams | mapKey | catchName | importStatement | single => exact .tokens _
  | blockItems => exact blockItems_planned
  | block => exact block_planned
  | arguments => exact arguments_planned
  | functionDef named isAsync => exact functionDef_planned named isAsync
  | primitiveCall k p pos => exact primitiveCall_planned k p pos
  | mapLiteral => exact mapLiteral_planned
  | primary => exact primary_planned
  | postfixed => exact postfixed_planned
  | unary => exact unary_planned
  | climb levels min => exact climb_planned levels min
  | assignment => exact assignment_planned
  | declaration constant => exact declaration_planned constant
  | method => exact method_planned
  | classDecl => exact classDecl_planned
  | conditional => exact conditional_planned
  | whileLoop => exact whileLoop_planned
  | forLoop => exact forLoop_planned
  | tryStatement => exact tryStatement_planned
  | print => exact print_planned
  | switchStatement => exact switchStatement_planned
  | returnStatement => exact returnStatement_planned
  | bareStatement => exact bareStatement_planned
  | statement => exact statement_planned
  | program => exact program_planned
  | further g => exact .call g

/-- The rules of the guarded parsers belong to the grammar. -/
theorem Guarded.rule_isRule (g : Guarded) : Rule g.rule := by
  cases g with
  | statement => exact .statement
  | expression => exact .assignment
  | operand => exact .unary

end Parser

end BrailleScript
