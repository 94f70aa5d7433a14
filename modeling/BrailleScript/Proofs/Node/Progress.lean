import BrailleScript.Proofs.Node.Settles
import BrailleScript.Proofs.Node.Soundness

/-!
# The parser makes progress

A level whose parsers take a token or fail gives one further out of the same kind: each production
of the grammar is gone through once, and every recursion that takes no token goes one level in.  So
parsing ends on every list of tokens, in a program or in an error that is no stall.

## Key results

- `looksLikeLambda_upto`, `looksLikeMap_upto`: looking ahead stops at the end of input
- `statement_moves`, `assignment_moves`: statements and expressions take a token
- `Level.at_moves`, `Production.moves`, `Repetition.settles`: what the parsers and the repetitions of
  every level do
- `makes_progress`: all of it, for every list of tokens
-/

namespace BrailleScript

namespace Parser

/-- Each parser of the level takes a token if it succeeds. -/
structure Level.Moves (inner : Level) : Prop where
  statement : Parser.Moves 1 inner.statement
  expression : Parser.Moves 1 inner.expression
  operand : Parser.Moves 1 inner.operand

variable {before rest : List Token} {eof t : Token}

/-! ## Looking ahead -/

/-- What is asked of the next token does not hang on the tokens behind the end of input. -/
theorem head?_any_upto (before after : List Token) (eof : Token) (p : Token → Bool) :
    (before ++ eof :: after).head?.any p = (before ++ [eof]).head?.any p := by
  cases before <;> rfl

/-- A list of names with no end of input in it stops there at the latest. -/
theorem namesThenArrow_upto (h : Upto before eof) (after : List Token) :
    namesThenArrow (before ++ eof :: after) = namesThenArrow (before ++ [eof]) := by
  -- each name is looked at together with the token behind it
  induction before using namesThenArrow.induct with
  | case1 t u rest ih =>
    have hrest := ih (h.suffix (List.suffix_append [t, u] rest))
    simp only [List.cons_append, namesThenArrow, hrest, head?_any_upto rest after]
  | case2 before hshort =>
    match before with
    | [] =>
      -- the end of input is no name
      cases after <;> simp [namesThenArrow, h.isEnd, TokenKind.isIdentifier]
    | [t] =>
      -- behind the name stands neither a comma nor a parenthesis
      simp [namesThenArrow, h.isEnd, TokenKind.isDelimiter]
    | t :: u :: rest => exact absurd rfl (hshort t u rest)

/-- Nor does the look ahead for parameters. -/
theorem looksLikeLambda_upto (h : Upto before eof) (after : List Token) :
    looksLikeLambda (before ++ eof :: after) = looksLikeLambda (before ++ [eof]) := by
  -- the look ahead ends at the end of input, or goes on behind the names
  match before with
  | [] => cases after <;> simp [looksLikeLambda, h.isEnd, TokenKind.isDelimiter]
  | [t] =>
    have hnames := namesThenArrow_upto (h.suffix (List.nil_suffix)) after
    rw [List.nil_append, List.nil_append] at hnames
    simp [looksLikeLambda, h.isEnd, TokenKind.isDelimiter, hnames]
  | t :: u :: rest =>
    have hnames := namesThenArrow_upto (h.suffix (List.suffix_cons t _)) after
    simp only [List.cons_append, looksLikeLambda, head?_any_upto rest after] at hnames ⊢
    rw [hnames]

/-- Nor does the one for a map. -/
theorem looksLikeMap_upto (h : Upto (t :: rest) eof) (after : List Token) :
    looksLikeMap (t :: rest ++ eof :: after) = looksLikeMap (t :: rest ++ [eof]) := by
  match rest with
  | [] => cases after <;> simp [looksLikeMap, h.isEnd]
  | [u] => simp [looksLikeMap]
  | u :: v :: rest => rfl

section

variable {inner : Level} (h : inner.Moves)
include h

/-! ## Blocks and functions -/

omit h in
/-- Asking for more items moves, though it takes nothing. -/
theorem moreItems_moves :
    Moves 0 (do return !(← checkDelim .braceClose) && !(← atEnd) : Parser Bool) :=
  (check_moves _).bind fun _ => atEnd_moves.bind fun _ => .pure _

/-- The items of a block take a token at least; below are the other parts. -/
theorem blockItems_moves : Moves 1 (blockItems inner) := by
  refine (expect_moves rfl (by rfl)).bind fun _ => ?_
  refine (repeatWhile_moves moreItems_moves h.statement).bind fun items => ?_
  exact (expect_moves rfl (by rfl)).first fun _ => .pure items

/-- A block. -/
theorem block_moves : Moves 1 (block inner) :=
  (blockItems_moves h).first fun _ => .pure _

omit h in
/-- A list of parameters. -/
theorem params_moves : Moves 1 params :=
  (expect_moves rfl (by rfl)).bind fun _ => listUntil_moves (by rfl) (expectIdentifier_moves (by rfl))

/-- Arguments, with the bracket that closes them. -/
theorem arguments_moves : Moves 1 (arguments inner) :=
  listUntil_moves (by rfl) h.expression

/-- A function definition. -/
theorem functionDef_moves (named isAsync : Bool) : Moves 1 (functionDef inner named isAsync) := by
  refine (expect_moves rfl (by rfl)).bind fun start => ?_
  -- the parameters and the body follow the name, if there is one
  have hrest (name : Option String) : Moves 1 (do
      let params ← params
      let body ← blockItems inner
      return (⟨name, params, .block body, isAsync, start.pos⟩ : FunctionDef Node)) :=
    params_moves.bind fun _ => (blockItems_moves h).first fun _ => .pure _
  cases named with
  | true => exact (expectIdentifier_moves (by rfl)).mapped.bind hrest
  | false => exact hrest none

/-! ## Expressions -/

/-- The call of a primitive. -/
theorem primitiveCall_moves (k : Keyword) (p : Primitive) (pos : Pos) :
    Moves 1 (primitiveCall inner k p pos) :=
  (expect_moves rfl (.append (.append (by rfl) _) _)).bind fun _ =>
    (arguments_moves h).first fun _ => .pure _

omit h in
/-- The key of an entry. -/
theorem mapKey_moves (before : Token) : Moves 0 (mapKey before) := by
  refine atEnd_moves.bind fun ended => ?_
  -- the key is in the token before the end, or in the next one
  cases ended
  case' true => refine Moves.bind (.pure before) fun t => ?_
  case' false => refine next_moves.bind fun t => ?_
  all_goals
    dsimp only
    split
    · exact .pure _
    · exact .pure _
    · exact .pure _
    · exact .pure _
    · exact fail_moves (.append (by rfl) _) _

/-- The entries of a map, with fuel for the tokens that are left. -/
theorem mapEntries_settles (separator : Token) (before : List Token) :
    Settles (before.length + 1) (mapEntries inner separator) 1 before eof := by
  refine Settles.rounds (p := mapEntries inner) (fun separator before ih => ?_) separator before
  refine (mapKey_moves separator _ before eof).bind fun key left hleft => ?_
  -- the colon is there in every round, if not the key
  refine (expect_moves rfl (by rfl) _ left eof).first fun _ left' hleft' => ?_
  refine (h.expression _ left' eof).bind fun value left₁ hleft₁ => ?_
  refine (peek_moves _ left₁ eof).bind fun separator' left₂ hleft₂ => ?_
  refine (accept_moves _ _ left₂ eof).bind fun more left₃ hleft₃ => ?_
  cases more with
  | false => exact .pure _
  | true =>
    refine (check_moves _ _ left₃ eof).bind fun closing left₄ hleft₄ => ?_
    cases closing with
    | true => exact .pure _
    | false =>
      refine ((ih separator' left₄ (by omega)).fewer (Nat.zero_le 1)).bind fun rest left₅ _ => ?_
      exact .pure _

/-- A map in its braces. -/
theorem mapLiteral_moves : Moves 1 (mapLiteral inner) := by
  refine (expect_moves rfl (by rfl)).bind fun start => (check_moves _).bind fun empty => ?_
  -- the braces are closed, with or without entries
  have hclose (pairs : List (Node × Node)) : Moves 1 (do
      let _ ← expectDelim .braceClose "Expected '\x7d' after map literal"
      return Node.map pairs) :=
    (expect_moves rfl (by rfl)).first fun _ => .pure _
  cases empty with
  | true => exact hclose []
  | false => exact .fuel_bind (fun before _ => mapEntries_settles h start before) hclose

/-- A primary. -/
theorem primary_moves : Moves 1 (primary inner) := by
  intro n before eof hupto
  cases before with
  | nil =>
    refine Settles.peek_nil ?_ hupto
    rw [hupto.isEnd]
    exact fail_moves (.append (by rfl) _) _ n [] eof
  | cons t rest =>
    refine Settles.peek_cons ?_ hupto
    -- a token that is a node of its own
    have hleaf (node : Node) :
        Settles n (fun _ => do let _ ← next; return node) 1 (t :: rest) eof :=
      next_cons.first fun _ left _ => .pure node
    have hlambda (isAsync : Bool) :
        Moves 1 (do return Node.lambda (← functionDef inner false isAsync)) :=
      (functionDef_moves h false isAsync).first fun _ => .pure _
    split
    · exact hleaf _
    · exact hleaf _
    · exact hleaf _
    · exact hleaf _
    · exact hleaf _
    · exact hleaf _
    · exact hleaf _
    · refine Moves.bind next_moves (fun _ => ?_) n _ eof
      exact (expect_moves rfl (by rfl)).bind fun _ => expectMemberName_moves.first fun _ => .pure _
    · exact hlambda false n _ eof
    · refine Settles.peekAt (Nat.succ_le_succ (Nat.zero_le _)) fun kind => ?_
      split
      · exact Moves.bind next_moves (fun _ => hlambda true) n _ eof
      · split
        · exact Moves.bind next_moves (fun _ => primitiveCall_moves h _ _ _) n _ eof
        · exact fail_moves (.append (by rfl) _) _ n _ eof
    · refine Moves.bind next_moves (fun _ => h.expression.bind fun e => ?_) n _ eof
      exact (expect_moves rfl (by rfl)).first fun _ => .pure e
    · refine Moves.bind next_moves (fun _ => ?_) n _ eof
      exact (listUntil_moves (by rfl) h.expression).first fun _ => .pure _
    · exact mapLiteral_moves h n _ eof
    · exact fail_moves (.append (by rfl) _) _ n _ eof

/-- What stands behind a primary, which may be nothing. -/
theorem postfixFuel_settles (e : Node) (before : List Token) :
    Settles (before.length + 1) (postfixFuel inner e) 0 before eof := by
  refine Settles.rounds (p := postfixFuel inner) (fun e before ih => ?_) e before
  refine (peek_moves _ before eof).bind fun t left hleft => ?_
  refine (accept_moves _ _ left eof).bind fun isCall left₁ hleft₁ => ?_
  -- each round has taken a token, so fewer are left for the next
  cases isCall with
  | true =>
    refine (arguments_moves h _ left₁ eof).bind fun args left₂ hleft₂ => ?_
    exact ih _ left₂ (by omega)
  | false =>
    refine (accept_moves _ _ left₁ eof).bind fun isMember left₂ hleft₂ => ?_
    cases isMember with
    | true =>
      refine (expectMemberName_moves _ left₂ eof).bind fun name left₃ hleft₃ => ?_
      exact ih _ left₃ (by omega)
    | false =>
      refine (accept_moves _ _ left₂ eof).bind fun isIndex left₃ hleft₃ => ?_
      cases isIndex with
      | true =>
        refine (h.expression _ left₃ eof).bind fun i left₄ hleft₄ => ?_
        refine (expect_moves rfl (by rfl) _ left₄ eof).bind fun _ left₅ hleft₅ => ?_
        exact ih _ left₅ (by omega)
      | false => exact .pure _

/-- A primary with that. -/
theorem postfixed_moves : Moves 1 (postfixed inner) :=
  (primary_moves h).first fun e => .fuel fun before _ => postfixFuel_settles h e before

/-- An operand with its prefix operators. -/
theorem unary_moves : Moves 1 (unary inner) := by
  refine peek_moves.bind fun t => ?_
  split
  · exact next_moves.bind fun _ => h.operand.first fun _ => .pure _
  · exact next_moves.bind fun _ => h.operand.first fun _ => .pure _
  · exact next_moves.bind fun _ => h.operand.first fun _ => .pure _
  · exact postfixed_moves h

omit h in
/-- Operators with their right operands, which may be none. -/
theorem climbFuel_settles {right : Nat → Parser Node} (hr : ∀ m, Moves 1 (right m)) (min : Nat)
    (left : Node) (before : List Token) :
    Settles (before.length + 1) (climbFuel right min left) 0 before eof := by
  refine Settles.rounds (p := climbFuel right min) (fun e before ih => ?_) left before
  refine (peek_moves _ before eof).bind fun t left hleft => ?_
  split
  · exact .pure _
  · refine (next_moves _ left eof).bind fun _ left₁ hleft₁ => ?_
    refine (hr _ _ left₁ eof).bind fun r left₂ hleft₂ => ?_
    exact ih _ left₂ (by omega)

/-- A row of operators. -/
theorem climb_moves (levels min : Nat) : Moves 1 (climb inner levels min) := by
  induction levels generalizing min with
  | zero => exact unary_moves h
  | succ levels ih =>
    exact (unary_moves h).first fun e => .fuel fun before _ => climbFuel_settles ih min e before

omit h in
/-- The parameters of an arrow function, where there are any. -/
theorem lambdaParams?_moves : Moves 0 lambdaParams? := by
  intro n before eof hupto
  have hparams (isList : Bool) : Moves 0 (if isList then some <$> params else return none) := by
    cases isList with
    | true => exact params_moves.mapped.any
    | false => exact .pure none
  refine Settles.view (g := fun isList _ => do
    if (← peek).kind.isIdentifier && (← peekAt 1).isOperator .arrow then
      return some [← expectIdentifier "Expected parameter name"]
    else if isList then return some (← params)
    else return none) (looksLikeLambda_upto hupto) ?_ hupto
  cases before with
  | nil =>
    -- no lambda starts at the end of input, whatever is behind it
    refine Settles.peek_nil ?_
    rw [hupto.isEnd]
    exact Settles.peekAt_unused (.pure none)
  | cons t rest =>
    refine Settles.peek_cons (Settles.peekAt (Nat.succ_le_succ (Nat.zero_le _)) fun kind => ?_)
    split
    · exact (expectIdentifier_moves (by rfl) n _ eof).bind fun _ left _ => .pure _
    · exact hparams _ n _ eof

/-- An expression, with fuel for the tokens that are left. -/
theorem assignmentFuel_settles (before : List Token) :
    Settles (before.length + 1) (assignmentFuel inner) 1 before eof := by
  refine Settles.rounds (p := fun _ : Unit => assignmentFuel inner) (fun _ before ih => ?_) () before
  refine (peek_moves _ before eof).bind fun start left hleft => ?_
  refine (lambdaParams?_moves _ left eof).bind fun params left₁ hleft₁ => ?_
  -- the next round starts behind an arrow or behind an assignment sign
  cases params with
  | some params =>
    refine (expect_moves rfl (by rfl) _ left₁ eof).first fun _ left₂ hleft₂ => ?_
    refine (check_moves _ _ left₂ eof).bind fun isBlock left₃ hleft₃ => ?_
    cases isBlock with
    | true => exact ((blockItems_moves h).mapped _ left₃ eof).bind fun body left₄ _ => .pure _
    | false => exact (ih () left₃ (by omega)).mapped.bind fun body left₄ _ => .pure _
  | none =>
    refine (climb_moves h 7 2 _ left₁ eof).first fun e left₂ hleft₂ => ?_
    refine (peek_moves _ left₂ eof).bind fun t left₃ hleft₃ => ?_
    refine (accept_moves _ _ left₃ eof).bind fun isAssignment left₄ hleft₄ => ?_
    cases isAssignment with
    | false => exact .pure _
    | true =>
      show Settles _ (fun fuel => if isTarget e = true then _ else _) _ _ _
      split
      · refine ((ih () left₄ (by omega)).fewer (Nat.zero_le 1)).bind fun value left₅ _ => ?_
        exact .pure _
      · exact fail_moves (by rfl) _ _ left₄ eof

/-- An expression. -/
theorem assignment_moves : Moves 1 (assignment inner) :=
  .fuel fun before _ => assignmentFuel_settles h before

/-! ## Statements -/

/-- A declaration. -/
theorem declaration_moves (constant : Bool) : Moves 1 (declaration inner constant) := by
  refine next_moves.bind fun t => (expectIdentifier_moves (by rfl)).first fun name => ?_
  refine (accept_moves _).bind fun initialised => ?_
  cases initialised with
  | true => exact h.expression.bind fun v => .pure _
  | false =>
    cases constant with
    | true => exact failHere_moves (by rfl)
    | false => exact .pure _

/-- A method. -/
theorem method_moves : Moves 1 (method inner) := by
  refine (accept_moves _).bind fun isAsync => (functionDef_moves h true isAsync).first fun d => ?_
  exact (accept_moves _).bind fun _ => .pure d

/-- A class. -/
theorem classDecl_moves : Moves 1 (classDecl inner) := by
  refine next_moves.bind fun t => (expectIdentifier_moves (by rfl)).bind fun name => ?_
  refine (accept_moves _).bind fun extends? => ?_
  -- the body follows the name of the parent, if there is one
  have hrest (parent : Option String) : Moves 1 (do
      let _ ← expectDelim .braceOpen "Expected '\x7b' to start class body"
      let methods ← repeatWhile (do return !(← checkDelim .braceClose) && !(← atEnd)) (method inner)
      let _ ← expectDelim .braceClose "Expected '\x7d' after class body"
      return Node.classDecl name parent methods t.pos) := by
    refine (expect_moves rfl (by rfl)).bind fun _ => ?_
    refine (repeatWhile_moves moreItems_moves (method_moves h)).bind fun methods => ?_
    exact (expect_moves rfl (by rfl)).first fun _ => .pure _
  cases extends? with
  | true => exact (expectIdentifier_moves (by rfl)).mapped.bind hrest
  | false => exact hrest none

/-- A condition, with fuel for the tokens that are left. -/
theorem conditionalFuel_settles (before : List Token) :
    Settles (before.length + 1) (conditionalFuel inner) 1 before eof := by
  refine Settles.rounds (p := fun _ : Unit => conditionalFuel inner) (fun _ before ih => ?_) () before
  refine (next_moves _ before eof).bind fun _ left hleft => ?_
  refine (h.expression _ left eof).first fun condition left₁ hleft₁ => ?_
  refine (block_moves h _ left₁ eof).bind fun thenBranch left₂ hleft₂ => ?_
  refine (accept_moves _ _ left₂ eof).bind fun hasElse left₃ hleft₃ => ?_
  -- without `else` nothing follows
  cases hasElse with
  | false => exact .pure _
  | true =>
    refine (check_moves _ _ left₃ eof).bind fun chained left₄ hleft₄ => ?_
    cases chained with
    | true => exact (ih () left₄ (by omega)).bind fun _ left₅ _ => .pure _
    | false => exact (block_moves h _ left₄ eof).bind fun _ left₅ _ => .pure _

/-- A condition. -/
theorem conditional_moves : Moves 1 (conditional inner) :=
  .fuel fun before _ => conditionalFuel_settles h before

/-- A loop with a condition. -/
theorem whileLoop_moves : Moves 1 (whileLoop inner) :=
  next_moves.bind fun _ => h.expression.bind fun _ => (block_moves h).first fun _ => .pure _

/-- A loop over items or an endless one. -/
theorem forLoop_moves : Moves 1 (forLoop inner) := by
  refine next_moves.bind fun _ => ?_
  have hrest (parenthesized : Bool) : Moves 1 (do
      if parenthesized then let _ ← next
      let var ← expectIdentifier "Expected loop variable after 'for'"
      let _ ← expectKeyword .inKw "Expected 'in' after loop variable"
      let iterable ← inner.expression
      if parenthesized then let _ ← expectDelim .parenClose "Expected ')' after for clause"
      let body ← block inner
      return .forEach var iterable body : Parser Node) := by
    have hbody (var : String) (i : Node) : Moves 1 (do return Node.forEach var i (← block inner)) :=
      (block_moves h).first fun _ => .pure _
    cases parenthesized with
    | true =>
      refine next_moves.bind fun _ => (expectIdentifier_moves (by rfl)).bind fun var => ?_
      refine (expect_moves rfl (by rfl)).bind fun _ => h.expression.bind fun i => ?_
      exact (expect_moves rfl (by rfl)).bind fun _ => hbody var i
    | false =>
      refine (expectIdentifier_moves (by rfl)).bind fun var => ?_
      exact (expect_moves rfl (by rfl)).bind fun _ => h.expression.bind fun i => hbody var i
  intro n before eof hupto
  refine Settles.checkHead ?_ hupto
  cases before with
  | nil =>
    -- at the end of input there are no parentheses
    rw [List.nil_append, headKind, hupto.isEnd]
    exact Settles.peekAt_unused (Settles.peekAt_unused (hrest false n [] eof))
  | cons t rest =>
    refine Settles.peekTwo (fun x y => ?_) fun x y => hrest _ n _ eof
    simp only [TokenKind.isIdentifier, Bool.and_false, Bool.false_and]

omit h in
/-- The name of a caught failure. -/
theorem catchName_moves : Moves 0 catchName := by
  refine (accept_moves _).bind fun parenthesized => ?_
  cases parenthesized with
  | true =>
    refine (expectIdentifier_moves (by rfl)).bind fun name => ?_
    exact (expect_moves rfl (by rfl)).bind fun _ => .pure _
  | false =>
    refine peek_moves.bind fun t => ?_
    split
    · exact next_moves.bind fun _ => .pure _
    · exact .pure _

/-- A try statement. -/
theorem tryStatement_moves : Moves 1 (tryStatement inner) := by
  refine next_moves.bind fun _ => (block_moves h).bind fun body => ?_
  refine (expect_moves rfl (by rfl)).bind fun _ => catchName_moves.bind fun name => ?_
  exact (block_moves h).first fun _ => .pure _

/-- A print statement. -/
theorem print_moves : Moves 1 (print inner) := by
  refine next_moves.bind fun _ => (accept_moves _).bind fun parenthesized => ?_
  cases parenthesized with
  | true => exact (arguments_moves h).first fun _ => .pure _
  | false => exact h.expression.first fun _ => .pure _

/-- The cases of a switch, which may be none. -/
theorem switchFuel_settles (cases : List (SwitchCase Node)) (default : Option (List Node))
    (before : List Token) :
    Settles (before.length + 1) (switchFuel inner cases default) 0 before eof := by
  refine Settles.rounds (p := fun s : List (SwitchCase Node) × Option (List Node) =>
    switchFuel inner s.1 s.2) (fun s before ih => ?_) (cases, default) before
  refine (check_moves _ _ before eof).bind fun closing left hleft => ?_
  refine (atEnd_moves _ left eof).bind fun ended left₁ hleft₁ => ?_
  -- a case and a default both have a block, so a round takes its braces at least
  split
  · exact .pure _
  · refine (accept_moves _ _ left₁ eof).bind fun isCase left₂ hleft₂ => ?_
    cases isCase with
    | true =>
      refine (h.expression _ left₂ eof).bind fun v left₃ hleft₃ => ?_
      refine (accept_moves _ _ left₃ eof).bind fun _ left₄ hleft₄ => ?_
      refine (blockItems_moves h _ left₄ eof).bind fun body left₅ hleft₅ => ?_
      exact ih (⟨v, body⟩ :: s.1, s.2) left₅ (by omega)
    | false =>
      refine (accept_moves _ _ left₂ eof).bind fun isDefault left₃ hleft₃ => ?_
      cases isDefault with
      | false => exact failHere_moves (by rfl) _ left₃ eof
      | true =>
        show Settles _ (fun fuel => if s.2.isSome = true then _ else _) _ _ _
        split
        · exact failHere_moves (by rfl) _ left₃ eof
        · refine (accept_moves _ _ left₃ eof).bind fun _ left₄ hleft₄ => ?_
          refine (blockItems_moves h _ left₄ eof).bind fun body left₅ hleft₅ => ?_
          exact ih (s.1, some body) left₅ (by omega)

/-- A switch. -/
theorem switchStatement_moves : Moves 1 (switchStatement inner) := by
  refine next_moves.bind fun _ => h.expression.bind fun subject => ?_
  refine (expect_moves rfl (by rfl)).bind fun _ => ?_
  exact .fuel_bind (fun before _ => switchFuel_settles h [] none before) fun _ =>
    (expect_moves rfl (by rfl)).first fun _ => .pure _

omit h in
/-- Asking for the end of a statement. -/
theorem atStatementEnd_moves : Moves 0 atStatementEnd :=
  atEnd_moves.bind fun _ => (check_moves _).bind fun _ => (check_moves _).bind fun _ => .pure _

/-- What stands behind the word of a return. -/
theorem returnStatement_moves : Moves 0 (returnStatement inner) := by
  refine next_moves.bind fun _ => atStatementEnd_moves.bind fun ended => ?_
  cases ended with
  | true => exact .pure _
  | false => exact h.expression.any.bind fun _ => .pure _

omit h in
/-- An import. -/
theorem importStatement_moves : Moves 1 importStatement :=
  next_moves.bind fun _ => (expectIdentifier_moves (by rfl)).first fun _ => .pure _

omit h in
/-- A statement of one word, behind that word. -/
theorem single_moves (node : Node) : Moves 0 (single node) :=
  next_moves.bind fun _ => .pure node

/-- A statement without its semicolon. -/
theorem bareStatement_moves : Moves 1 (bareStatement inner) := by
  intro n before eof hupto
  cases before with
  | nil =>
    refine Settles.peek_nil ?_ hupto
    rw [hupto.isEnd]
    exact h.expression n [] eof
  | cons t rest =>
    refine Settles.peek_cons ?_ hupto
    have hsingle (node : Node) : Settles n (fun _ => single node) 1 (t :: rest) eof :=
      next_cons.first fun _ left _ => .pure node
    have hfunction (isAsync : Bool) :
        Moves 1 (do return Node.function (← functionDef inner true isAsync)) :=
      (functionDef_moves h true isAsync).first fun _ => .pure _
    split
    · exact declaration_moves h false n _ eof
    · exact declaration_moves h true n _ eof
    · exact classDecl_moves h n _ eof
    · exact conditional_moves h n _ eof
    · exact whileLoop_moves h n _ eof
    · exact next_moves.bind (fun _ => (block_moves h).first fun _ => .pure _) n _ eof
    · exact forLoop_moves h n _ eof
    · exact tryStatement_moves h n _ eof
    · -- without a value the keyword is all there is
      refine next_cons.first fun _ left _ => Moves.bind atStatementEnd_moves (fun ended => ?_) n left eof
      cases ended with
      | true => exact .pure _
      | false => exact h.expression.bind fun _ => .pure _
    · exact next_moves.bind (fun _ => h.expression.first fun _ => .pure _) n _ eof
    · exact print_moves h n _ eof
    · exact importStatement_moves n _ eof
    · exact hsingle _
    · exact hsingle _
    · exact hsingle _
    · exact switchStatement_moves h n _ eof
    · refine Settles.peekAt (Nat.succ_le_succ (Nat.zero_le _)) fun kind => ?_
      split
      · exact hfunction false n _ eof
      · exact h.expression n _ eof
    · refine Settles.peekTwo (fun _ _ => rfl) fun x y => ?_
      split
      · exact next_moves.bind (fun _ => hfunction true) n _ eof
      · exact h.expression n _ eof
    · refine Settles.view (f := looksLikeMap) (g := fun isMap _ =>
        if isMap then inner.expression else block inner) (looksLikeMap_upto hupto) ?_
      split
      · exact h.expression n _ eof
      · exact block_moves h n _ eof
    · exact h.expression n _ eof

/-- A statement. -/
theorem statement_moves : Moves 1 (Parser.statement inner) :=
  (bareStatement_moves h).first fun s => (accept_moves _).bind fun _ => .pure s

end

/-! ## Levels and programs -/

/-- On every level all guarded parsers move. -/
theorem Level.at_moves (depth : Nat) : (Level.at depth).Moves := by
  induction depth with
  | zero =>
    -- below all levels every parser refuses
    have hrefuse : Parser.Moves 1 (failHere ("nesting deeper than " ++ toString maxNesting ++
        " levels") : Parser Node) :=
      failHere_moves (Apart.append (Apart.append (by rfl) _) _)
    exact ⟨hrefuse, hrefuse, hrefuse⟩
  | succ depth ih => exact ⟨statement_moves ih, assignment_moves ih, unary_moves ih⟩

/-- The parsers of the grammar, with `inner` for what lies further in. -/
inductive Production (inner : Level) : {α : Type} → Parser α → Prop
  | blockItems : Production inner (blockItems inner)
  | block : Production inner (block inner)
  | params : Production inner params
  | arguments : Production inner (arguments inner)
  | functionDef (named isAsync : Bool) : Production inner (functionDef inner named isAsync)
  | lambdaParams : Production inner lambdaParams?
  | primitiveCall (k : Keyword) (p : Primitive) (pos : Pos) :
    Production inner (primitiveCall inner k p pos)
  | mapKey (before : Token) : Production inner (mapKey before)
  | mapLiteral : Production inner (mapLiteral inner)
  | primary : Production inner (primary inner)
  | postfixed : Production inner (postfixed inner)
  | unary : Production inner (unary inner)
  | climb (levels min : Nat) : Production inner (climb inner levels min)
  | assignment : Production inner (assignment inner)
  | declaration (constant : Bool) : Production inner (declaration inner constant)
  | method : Production inner (method inner)
  | classDecl : Production inner (classDecl inner)
  | conditional : Production inner (conditional inner)
  | whileLoop : Production inner (whileLoop inner)
  | forLoop : Production inner (forLoop inner)
  | catchName : Production inner catchName
  | tryStatement : Production inner (tryStatement inner)
  | print : Production inner (print inner)
  | switchStatement : Production inner (switchStatement inner)
  | returnStatement : Production inner (returnStatement inner)
  | importStatement : Production inner importStatement
  | single (node : Node) : Production inner (single node)
  | bareStatement : Production inner (bareStatement inner)
  | statement : Production inner (statement inner)
  | program : Production inner (repeatWhile (do return !(← atEnd)) inner.statement)

/-- The repetitions of the grammar, with the fuel they are given. -/
inductive Repetition (inner : Level) : {α : Type} → (Nat → Parser α) → Prop
  | program : Repetition inner (repeatFuel (do return !(← atEnd)) inner.statement)
  | block : Repetition inner
    (repeatFuel (do return !(← checkDelim .braceClose) && !(← atEnd)) inner.statement)
  | classBody : Repetition inner
    (repeatFuel (do return !(← checkDelim .braceClose) && !(← atEnd)) (method inner))
  | switchBody (cases : List (SwitchCase Node)) (default : Option (List Node)) :
    Repetition inner (switchFuel inner cases default)
  | params : Repetition inner (separatedFuel (expectIdentifier "Expected parameter name"))
  | expressions : Repetition inner (separatedFuel inner.expression)
  | entries (before : Token) : Repetition inner (mapEntries inner before)
  | postfixes (e : Node) : Repetition inner (postfixFuel inner e)
  | operators (levels min : Nat) (left : Node) :
    Repetition inner (climbFuel (climb inner levels) min left)
  | assignments : Repetition inner (assignmentFuel inner)
  | conditionals : Repetition inner (conditionalFuel inner)

section

variable {inner : Level} (h : inner.Moves) {α : Type}
include h

/-- No production takes the end of input or sees what is behind it. -/
theorem Production.moves {p : Parser α} (hp : Production inner p) : Moves 0 p := by
  cases hp with
  | blockItems => exact (blockItems_moves h).any
  | block => exact (block_moves h).any
  | params => exact params_moves.any
  | arguments => exact (arguments_moves h).any
  | functionDef named isAsync => exact (functionDef_moves h named isAsync).any
  | lambdaParams => exact lambdaParams?_moves
  | primitiveCall k p pos => exact (primitiveCall_moves h k p pos).any
  | mapKey before => exact mapKey_moves before
  | mapLiteral => exact (mapLiteral_moves h).any
  | primary => exact (primary_moves h).any
  | postfixed => exact (postfixed_moves h).any
  | unary => exact (unary_moves h).any
  | climb levels min => exact (climb_moves h levels min).any
  | assignment => exact (assignment_moves h).any
  | declaration constant => exact (declaration_moves h constant).any
  | method => exact (method_moves h).any
  | classDecl => exact (classDecl_moves h).any
  | conditional => exact (conditional_moves h).any
  | whileLoop => exact (whileLoop_moves h).any
  | forLoop => exact (forLoop_moves h).any
  | catchName => exact catchName_moves
  | tryStatement => exact (tryStatement_moves h).any
  | print => exact (print_moves h).any
  | switchStatement => exact (switchStatement_moves h).any
  | returnStatement => exact returnStatement_moves h
  | importStatement => exact importStatement_moves.any
  | single node => exact single_moves node
  | bareStatement => exact (bareStatement_moves h).any
  | statement => exact (statement_moves h).any
  | program => exact repeatWhile_moves (atEnd_moves.bind fun _ => .pure _) h.statement

/-- One round more than there are tokens is enough for every repetition. -/
theorem Repetition.settles {p : Nat → Parser α} (hp : Repetition inner p) (before : List Token)
    (eof : Token) : Settles (before.length + 1) p 0 before eof := by
  cases hp with
  | program => exact repeatFuel_settles (atEnd_moves.bind fun _ => .pure _) h.statement before
  | block => exact repeatFuel_settles moreItems_moves h.statement before
  | classBody => exact repeatFuel_settles moreItems_moves (method_moves h) before
  | switchBody cases default => exact switchFuel_settles h cases default before
  | params =>
    exact (separatedFuel_settles (expectIdentifier_moves (by rfl)) before).fewer (Nat.zero_le 1)
  | expressions => exact (separatedFuel_settles h.expression before).fewer (Nat.zero_le 1)
  | entries separator => exact (mapEntries_settles h separator before).fewer (Nat.zero_le 1)
  | postfixes e => exact postfixFuel_settles h e before
  | operators levels min left => exact climbFuel_settles (climb_moves h levels) min left before
  | assignments => exact (assignmentFuel_settles h before).fewer (Nat.zero_le 1)
  | conditionals => exact (conditionalFuel_settles h before).fewer (Nat.zero_le 1)

end

/-! ## Prepared tokens -/

/-- The end of input is of one kind. -/
theorem eq_endOfInput {kind : TokenKind} (h : kind.isEndOfInput = true) : kind = .endOfInput := by
  cases kind <;> first | rfl | cases h

/-- The last token is the end of input. -/
theorem prepare_concat (tokens : List Token) :
    ∃ init last, prepare tokens = init ++ [last] ∧ last.kind = .endOfInput := by
  unfold prepare
  dsimp only
  split
  · next t ht =>
    obtain ⟨init, hinit⟩ := List.getLast?_eq_some_iff.mp ht
    split
    · next hend => exact ⟨init, t, hinit, eq_endOfInput hend⟩
    · exact ⟨_, _, rfl, rfl⟩
  · exact ⟨[], _, rfl, rfl⟩

/-- There is a first end of input. -/
theorem exists_upto (init : List Token) {last : Token} (hlast : last.kind = .endOfInput) :
    ∃ before eof after, init ++ [last] = before ++ eof :: after ∧ Upto before eof := by
  induction init with
  | nil => exact ⟨[], last, [], rfl, hlast, nofun⟩
  | cons t init ih =>
    -- the first token is the one, or the search goes on behind it
    cases ht : t.kind.isEndOfInput with
    | true => exact ⟨[], t, init ++ [last], rfl, eq_endOfInput ht, nofun⟩
    | false =>
      obtain ⟨before, eof, after, heq, hupto⟩ := ih
      refine ⟨t :: before, eof, after, by rw [List.cons_append, heq, List.cons_append],
        hupto.isEnd, List.forall_mem_cons.mpr ⟨ht, hupto.noEnd⟩⟩

/-- Also past the end a token of the list is looked at, which is the last one there. -/
theorem peekAt_inRange {s : List Token} {init : List Token} {last : Token}
    (hs : s <:+ init ++ [last]) (hne : s ≠ []) (hlast : last.kind = .endOfInput) (n : Nat) :
    ∃ t ∈ s, (peekAt n).run s = .ok (t.kind, s) := by
  rw [run_peekAt]
  cases hdrop : s.drop n with
  | cons t rest => exact ⟨t, List.mem_of_mem_drop (hdrop ▸ List.mem_cons_self), rfl⟩
  | nil =>
    -- a suffix that is not empty ends with the same token
    obtain ⟨front, hfront⟩ := hs
    have hmem : s.getLast hne = last := by
      have h := congrArg List.getLast? hfront
      rw [List.getLast?_append, List.getLast?_concat, List.getLast?_eq_some_getLast hne] at h
      exact Option.some.inj h
    exact ⟨last, hmem ▸ List.getLast_mem hne, by rw [hlast]; rfl⟩

/-- The next token is one of those that are left. -/
theorem peek_inRange {s : List Token} (hne : s ≠ []) : ∃ t ∈ s, peek.run s = .ok (t, s) := by
  cases s with
  | nil => exact absurd rfl hne
  | cons t rest => exact ⟨t, List.mem_cons_self, rfl⟩

/-! ## Every list of tokens -/

/-- A program comes to one outcome. -/
theorem program_moves : Moves 0 program :=
  (repeatWhile_moves (atEnd_moves.bind fun _ => .pure _) (Level.at_moves maxNesting).statement).bind
    fun _ => .pure _

/-- Parsing gives a program or an error that is no stall. -/
theorem parse_ends (tokens : List Token) : (∃ items, parse tokens = .ok (.program items)) ∨
    ∃ e, parse tokens = .error e ∧ ¬ e.IsStall := by
  obtain ⟨init, last, hprepare, hlast⟩ := prepare_concat tokens
  obtain ⟨before, eof, after, hshape, hupto⟩ := exists_upto init hlast
  obtain ⟨o, ho, hrun⟩ := program_moves 0 before eof hupto
  have hparse : parse tokens = o.map Prod.fst := by
    rw [parse, hprepare, hshape, hrun 0 (Nat.le_refl 0) after]
    cases o <;> rfl
  cases o with
  | error e => exact .inr ⟨e, hparse, ho⟩
  | ok r =>
    -- what is parsed is a program
    have hok : parse tokens = .ok r.1 := hparse
    obtain ⟨items, hitems, -⟩ := parse_fits (R := fun _ => True) hok fun _ _ _ _ => trivial
    exact .inl ⟨items, by rw [hok, hitems]⟩

/-- The parser makes progress on the tokens. -/
structure Progress (tokens : List Token) : Prop where
  /-- Parsing comes to a program or to an error, and no repetition runs out of fuel. -/
  ends : (∃ items, parse tokens = .ok (.program items)) ∨
    ∃ e, parse tokens = .error e ∧ ¬ e.IsStall
  /-- There is a first end of input. -/
  upto : ∃ before eof after, prepare tokens = before ++ eof :: after ∧ Upto before eof
  /-- Statements and expressions take a token. -/
  advance : ∀ depth, Moves 1 (Level.at depth).statement ∧ Moves 1 (Level.at depth).expression
  /-- No production takes the first end of input, and none depends on what stands behind it. -/
  stay : ∀ depth {α : Type} (p : Parser α), Production (Level.at depth) p → Moves 0 p
  /-- A repetition takes a token in each round or ends: whatever fuel it has beyond the number of
  tokens in front of the end of input, it comes to the same, and that is no stall. -/
  rounds : ∀ depth {α : Type} (p : Nat → Parser α), Repetition (Level.at depth) p →
    ∀ before eof, Settles (before.length + 1) p 0 before eof
  /-- Looking for a lambda or a map stops at the end of input. -/
  lookahead : ∀ before eof after, Upto before eof →
    looksLikeLambda (before ++ eof :: after) = looksLikeLambda (before ++ [eof]) ∧
    (before ≠ [] → looksLikeMap (before ++ eof :: after) = looksLikeMap (before ++ [eof]))
  /-- Wherever the parser stands, it looks at tokens of the list only. -/
  inRange : ∀ s, s <:+ prepare tokens → s ≠ [] → (∃ t ∈ s, peek.run s = .ok (t, s)) ∧
    ∀ n, ∃ t ∈ s, (peekAt n).run s = .ok (t.kind, s)

/-- On every token list the parser makes progress. -/
theorem makes_progress (tokens : List Token) : Progress tokens := by
  obtain ⟨init, last, hprepare, hlast⟩ := prepare_concat tokens
  -- six parts: the end, the last token, the levels, productions and repetitions, the two looks
  -- ahead, and the reads in range
  refine ⟨parse_ends tokens, hprepare ▸ exists_upto init hlast, fun depth => ?_,
    fun depth _ p hp => ?_, fun depth _ p hp => ?_, fun before eof after h => ⟨?_, fun hne => ?_⟩,
    fun s hs hne => ⟨?_, ?_⟩⟩
  · exact ⟨(Level.at_moves depth).statement, (Level.at_moves depth).expression⟩
  · exact hp.moves (Level.at_moves depth)
  · exact hp.settles (Level.at_moves depth)
  · exact looksLikeLambda_upto h after
  · obtain ⟨t, rest, rfl⟩ := List.exists_cons_of_ne_nil hne
    exact looksLikeMap_upto h after
  · exact peek_inRange hne
  · exact peekAt_inRange (hprepare ▸ hs) hne hlast

end Parser

end BrailleScript
