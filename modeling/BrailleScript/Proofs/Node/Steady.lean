import BrailleScript.Proofs.Node.Boundary
import BrailleScript.Proofs.Node.Progress

/-!
# The grammar in front of a semicolon

A level whose parsers agree in front of the end of input and in front of a semicolon gives one further
out of the same kind: each production of the grammar is gone through once.  A statement without its
semicolon agrees wherever it ends.  With it, a statement agrees only where it leaves other tokens, since
it takes a semicolon that is there.

## Key results

- `looksLikeLambda_boundary`, `looksLikeMap_boundary`: looking ahead stops at the boundary
- `primary_steady`, `postfixFuel_agrees`, `climb_steady`, `assignment_steady`: expressions
- `bareStatement_steady`, `statement_steady`: statements
- `Level.at_agrees`: the parsers of every level
-/

namespace BrailleScript

namespace Parser

variable {b : Boundary} {whole : Prop} {before rest : List Token} {t : Token}

/-- The parsers of the level agree at the boundary.  A statement takes a semicolon that is there, so
nothing is said of one that leaves no other token. -/
structure Level.Agrees (b : Boundary) (inner : Level) : Prop where
  moves : inner.Moves
  statement : Parser.Steady b False inner.statement
  expression : Parser.Steady b True inner.expression
  operand : Parser.Steady b True inner.operand

/-! ## Looking ahead -/

/-- What stops at the boundary is asked of the same next token. -/
theorem head?_any_boundary {p : TokenKind → Bool} (hp : Stops p) (before : List Token) :
    (before ++ b.semicolon :: b.after).head?.any (p ·.kind) =
      (before ++ [b.eof]).head?.any (p ·.kind) := by
  cases before with
  | nil => simp [b.isEnd, b.isSemicolon, hp.1, hp.2]
  | cons t rest => rfl

/-- The look ahead for an arrow stops there. -/
theorem namesThenArrow_boundary (before : List Token) :
    namesThenArrow (before ++ b.semicolon :: b.after) = namesThenArrow (before ++ [b.eof]) := by
  -- two tokens at a time, a name and a comma
  induction before using namesThenArrow.induct with
  | case1 t u rest ih =>
    simp only [List.cons_append, namesThenArrow, ih, head?_any_boundary (stops_operator .arrow) rest]
  | case2 before hshort =>
    obtain _ | ⟨t, _ | ⟨u, rest⟩⟩ := before
    · cases b.after <;> simp [namesThenArrow, b.isSemicolon, TokenKind.isIdentifier]
    · simp [namesThenArrow, b.isEnd, b.isSemicolon, TokenKind.isDelimiter]
    · exact absurd rfl (hshort t u rest)

/-- So does the one for parameters. -/
theorem looksLikeLambda_boundary (before : List Token) :
    looksLikeLambda (before ++ b.semicolon :: b.after) = looksLikeLambda (before ++ [b.eof]) := by
  -- the boundary stands at most two tokens ahead, or is behind the names
  match before with
  | [] => cases b.after <;> simp [looksLikeLambda, b.isSemicolon, TokenKind.isDelimiter]
  | [t] =>
    have hnames := namesThenArrow_boundary (b := b) []
    rw [List.nil_append, List.nil_append] at hnames
    simp [looksLikeLambda, b.isEnd, b.isSemicolon, TokenKind.isDelimiter, hnames]
  | t :: u :: rest =>
    have hnames := namesThenArrow_boundary (b := b) (u :: rest)
    simp only [List.cons_append, looksLikeLambda,
      head?_any_boundary (stops_operator .arrow) rest] at hnames ⊢
    rw [hnames]

/-- So does the one for a map. -/
theorem looksLikeMap_boundary (t : Token) (rest : List Token) :
    looksLikeMap (t :: rest ++ b.semicolon :: b.after) = looksLikeMap (t :: rest ++ [b.eof]) := by
  match rest with
  | [] => cases b.after <;> simp [looksLikeMap, b.isSemicolon]
  | [u] => simp [looksLikeMap, b.isEnd, b.isSemicolon, TokenKind.isDelimiter]
  | u :: v :: rest => rfl

section

variable {inner : Level} (h : inner.Agrees b)
include h

/-! ## Blocks and functions -/

omit h in
/-- Asking for more items is steady; below are the parts of the grammar. -/
theorem moreItems_steady : Steady b False
    (do return !(← checkDelim .braceClose) && !(← atEnd) : Parser Bool) :=
  (check_steady (stops_delimiter (by decide))).bind fun _ => atEnd_steady.bind fun _ => .pure _

/-- The items of a block. -/
theorem blockItems_steady : Steady b whole (blockItems inner) := by
  refine (expect_steady (stops_delimiter (by decide))).bind fun _ => ?_
  exact (repeatWhile_steady moreItems_steady h.statement).closed (stops_delimiter (by decide))
    fun items _ => .pure items

/-- A block. -/
theorem block_steady : Steady b whole (block inner) :=
  (blockItems_steady h).bind fun _ => .pure _

omit h in
/-- A list of parameters. -/
theorem params_steady : Steady b whole params :=
  (expect_steady (stops_delimiter (by decide))).bind fun _ =>
    listUntil_steady (by decide) expectIdentifier_steady

/-- Arguments. -/
theorem arguments_steady : Steady b whole (arguments inner) :=
  listUntil_steady (by decide) h.expression.part

/-- A function definition. -/
theorem functionDef_steady (named isAsync : Bool) :
    Steady b whole (functionDef inner named isAsync) := by
  refine (expect_steady (stops_keyword _)).bind fun start => ?_
  -- the parameters and the body follow the name, if there is one
  have hrest (name : Option String) : Steady b whole (do
      let params ← params
      let body ← blockItems inner
      return (⟨name, params, .block body, isAsync, start.pos⟩ : FunctionDef Node)) :=
    params_steady.bind fun _ => (blockItems_steady h).bind fun _ => .pure _
  cases named with
  | true => exact expectIdentifier_steady.mapped.bind hrest
  | false => exact hrest none

/-! ## Expressions -/

/-- The call of a primitive. -/
theorem primitiveCall_steady (k : Keyword) (p : Primitive) (pos : Pos) :
    Steady b whole (primitiveCall inner k p pos) :=
  (expect_steady (stops_delimiter (by decide))).bind fun _ =>
    (arguments_steady h).bind fun _ => .pure _

omit h in
/-- The key of an entry. -/
theorem mapKey_steady (separator : Token) : Steady b False (mapKey separator) := by
  refine atEnd_steady.bind fun ended => ?_
  cases ended
  case' true => refine Agrees.bind (.pure separator) fun t => ?_
  -- at the end the token before is told in the failure
  case' false => refine next_steady.bind fun t => ?_
  all_goals
    intro before
    dsimp only
    split
    · exact .pure _
    · exact .pure _
    · exact .pure _
    · exact .pure _
    · exact .fail _ _ _

/-- The entries of a map, with any more fuel. -/
theorem mapEntries_agrees (separator : Token) {m n : Nat} (hmn : m ≤ n) :
    Agrees b False (mapEntries inner separator m) (mapEntries inner separator n) := by
  -- both have fuel left for the same round
  induction m generalizing n separator with
  | zero => exact .failHere _ _
  | succ m ih =>
    obtain ⟨n, rfl⟩ : ∃ k, n = k + 1 := ⟨n - 1, by omega⟩
    refine (mapKey_steady separator).bind fun key => ?_
    refine (expect_steady (stops_delimiter (by decide))).bind fun _ => ?_
    refine h.expression.part.bind fun value => peek_steady.bind fun separator' => ?_
    refine (accept_inside _).bind fun more => ?_
    cases more with
    | false => exact .pure _
    | true =>
      refine (check_steady (stops_delimiter (by decide))).bind fun closing => ?_
      cases closing with
      | true => exact .pure _
      | false => exact (ih separator' (Nat.le_of_succ_le_succ hmn)).bind fun entries => .pure _

/-- A map in its braces. -/
theorem mapLiteral_steady : Steady b whole (mapLiteral inner) := by
  refine (expect_steady (stops_delimiter (by decide))).bind fun start => ?_
  refine (check_steady (stops_delimiter (by decide))).bind fun empty => ?_
  cases empty with
  | true => exact (expect_steady (stops_delimiter (by decide))).bind fun _ => .pure _
  | false =>
    exact .fuel_closed (stops_delimiter (by decide)) (fun _ _ hmn => mapEntries_agrees h start hmn)
      fun pairs _ => .pure _

/-- A primary. -/
theorem primary_steady : Steady b whole (primary inner) := by
  refine .cons (primary_moves h.moves) fun t rest => AgreesOn.peek_cons ?_
  -- a token that is a node of its own
  have hleaf (node : Node) : SteadyOn b whole (t :: rest) (do let _ ← next; return node) :=
    AgreesOn.next fun left => .pure node
  have hlambda (isAsync : Bool) : Steady b whole
      (do return Node.lambda (← functionDef inner false isAsync)) :=
    (functionDef_steady h false isAsync).bind fun _ => .pure _
  split
  · exact hleaf _
  · exact hleaf _
  · exact hleaf _
  · exact hleaf _
  · exact hleaf _
  · exact hleaf _
  · exact hleaf _
  · refine AgreesOn.next ((expect_steady (stops_operator _)).bind fun _ => ?_)
    exact expectMemberName_steady.bind fun _ => .pure _
  · exact hlambda false _
  · refine AgreesOn.peekAt (Nat.succ_le_succ (Nat.zero_le _)) rfl fun kind => ?_
    split
    · exact AgreesOn.next (hlambda true)
    · split
      · exact AgreesOn.next (primitiveCall_steady h _ _ _)
      · exact .fail _ _ _
  · refine AgreesOn.next (h.expression.part.bind fun e => ?_)
    exact (expect_steady (stops_delimiter (by decide))).bind fun _ => .pure e
  · exact AgreesOn.next ((listUntil_steady (by decide) h.expression.part).bind fun _ => .pure _)
  · exact mapLiteral_steady h _
  · exact .fail _ _ _

/-- What stands behind a primary. -/
theorem postfixFuel_agrees (e : Node) {m n : Nat} (hmn : m ≤ n) :
    Agrees b True (postfixFuel inner e m) (postfixFuel inner e n) := by
  induction m generalizing n e with
  | zero => exact .failHere _ _
  | succ m ih =>
    obtain ⟨n, rfl⟩ : ∃ k, n = k + 1 := ⟨n - 1, by omega⟩
    have ih' (e : Node) := ih e (Nat.le_of_succ_le_succ hmn)
    intro before
    cases before with
    | nil =>
      -- no suffix starts at the boundary, so the position that is read there goes nowhere
      refine AgreesOn.peek_nil (AgreesOn.accept_nil (stops_delimiter (by decide)) ?_)
      refine AgreesOn.accept_nil (stops_operator _) ?_
      exact AgreesOn.accept_nil (stops_delimiter (by decide)) (.pure e)
    | cons t rest =>
      refine AgreesOn.peek_cons ?_
      refine (accept_steady (stops_delimiter (by decide))).bind (fun isCall => ?_) _
      cases isCall with
      | true => exact (arguments_steady h).bind fun args => ih' _
      | false =>
        refine (accept_steady (stops_operator _)).bind fun isMember => ?_
        cases isMember with
        | true => exact expectMemberName_steady.bind fun name => ih' _
        | false =>
          refine (accept_steady (stops_delimiter (by decide))).bind fun isIndex => ?_
          cases isIndex with
          | true =>
            refine h.expression.bind fun i => ?_
            exact (expect_steady (stops_delimiter (by decide))).bind fun _ => ih' _
          | false => exact .pure _

/-- A primary with that. -/
theorem postfixed_steady : Steady b True (postfixed inner) :=
  (primary_steady h).bind fun e => .fuel fun _ _ hmn => postfixFuel_agrees h e hmn

/-- An operand with its prefix operators. -/
theorem unary_steady : Steady b True (unary inner) := by
  refine .cons (unary_moves h.moves) fun t rest => AgreesOn.peek_cons ?_
  split
  · exact AgreesOn.next (h.operand.bind fun _ => .pure _)
  · exact AgreesOn.next (h.operand.bind fun _ => .pure _)
  · exact AgreesOn.next (h.operand.bind fun _ => .pure _)
  · exact postfixed_steady h _

omit h in
/-- Neither kind at the boundary is an operator between operands. -/
theorem infixAtLeast?_boundary (min : Nat) :
    infixAtLeast? min b.eof = none ∧ infixAtLeast? min b.semicolon = none := by
  rw [infixAtLeast?, infixAtLeast?, b.isEnd, b.isSemicolon]
  exact ⟨rfl, rfl⟩

omit h in
/-- Operators with their right operands. -/
theorem climbFuel_agrees {right : Nat → Parser Node} (hr : ∀ m, Steady b True (right m)) (min : Nat)
    (left : Node) {m n : Nat} (hmn : m ≤ n) :
    Agrees b True (climbFuel right min left m) (climbFuel right min left n) := by
  induction m generalizing n left with
  | zero => exact .failHere _ _
  | succ m ih =>
    obtain ⟨n, rfl⟩ : ∃ k, n = k + 1 := ⟨n - 1, by omega⟩
    intro before
    -- neither the semicolon nor the end of input is an operator
    cases before with
    | nil =>
      refine AgreesOn.peek_nil ?_
      rw [(infixAtLeast?_boundary min).1, (infixAtLeast?_boundary min).2]
      exact .pure left
    | cons t rest =>
      refine AgreesOn.peek_cons ?_
      split
      · exact .pure left
      · refine AgreesOn.next ((hr _).bind fun r => ?_)
        exact ih _ (Nat.le_of_succ_le_succ hmn)

/-- A row of them. -/
theorem climb_steady (levels min : Nat) : Steady b True (climb inner levels min) := by
  induction levels generalizing min with
  | zero => exact unary_steady h
  | succ levels ih =>
    exact (unary_steady h).bind fun e => .fuel fun _ _ hmn => climbFuel_agrees ih min e hmn

omit h in
/-- The parameters of an arrow function, where there are any. -/
theorem lambdaParams?_steady : Steady b whole lambdaParams? := by
  have hparams (isList : Bool) : Steady b whole (if isList then some <$> params else return none) := by
    cases isList with
    | true => exact params_steady.mapped
    | false => exact .pure none
  intro before
  refine AgreesOn.view looksLikeLambda (fun isList => do
    if (← peek).kind.isIdentifier && (← peekAt 1).isOperator .arrow then
      return some [← expectIdentifier "Expected parameter name"]
    else if isList then return some (← params)
    else return none) (looksLikeLambda_boundary before) ?_
  cases before with
  | nil =>
    -- no lambda starts at the boundary, whatever is behind it
    refine AgreesOn.peek_nil ?_
    rw [b.isEnd, b.isSemicolon]
    exact AgreesOn.congr (run_bind_ok (run_peekAt 1 _)) (run_bind_ok (run_peekAt 1 _)) (.pure none)
  | cons t rest =>
    refine AgreesOn.peek_cons (AgreesOn.peekAt (Nat.succ_le_succ (Nat.zero_le _)) rfl fun kind => ?_)
    split
    · exact expectIdentifier_steady.bind (fun _ => .pure _) _
    · exact hparams _ _

/-- An expression, with any more fuel. -/
theorem assignmentFuel_agrees {m n : Nat} (hmn : m ≤ n) :
    Agrees b True (assignmentFuel inner m) (assignmentFuel inner n) := by
  -- both have fuel left for the same round
  induction m generalizing n with
  | zero => exact .failHere _ _
  | succ m ih =>
    obtain ⟨n, rfl⟩ : ∃ k, n = k + 1 := ⟨n - 1, by omega⟩
    have ih' := ih (Nat.le_of_succ_le_succ hmn)
    intro before
    cases before with
    | nil =>
      exact AgreesOn.atEnd (assignmentFuel_settles h.moves []) (Nat.succ_le_succ (Nat.zero_le m)) _
    | cons t rest =>
      refine AgreesOn.peek_cons (lambdaParams?_steady.bind (fun params => ?_) _)
      -- a function with an arrow, or operators and a target
      cases params with
      | some params =>
        refine (expect_steady (stops_operator _)).bind fun _ => ?_
        refine (check_steady (stops_delimiter (by decide))).bind fun isBlock => ?_
        cases isBlock with
        | true => exact (blockItems_steady h).mapped.bind fun body => .pure _
        | false => exact ih'.mapped.bind fun body => .pure _
      | none =>
        refine (climb_steady h 7 2).bind fun e => ?_
        intro before
        cases before with
        | nil => exact AgreesOn.peek_nil (AgreesOn.accept_nil (stops_operator _) (.pure e))
        | cons t' rest' =>
          refine AgreesOn.peek_cons ((accept_steady (stops_operator _)).bind (fun isAssignment => ?_) _)
          cases isAssignment with
          | false => exact .pure e
          | true =>
            show Agrees b True (if isTarget e = true then _ else _) (if isTarget e = true then _ else _)
            split
            · exact ih'.bind fun value => .pure _
            · exact fun _ => .fail _ _ _

/-- An expression. -/
theorem assignment_steady : Steady b True (assignment inner) :=
  .fuel fun _ _ hmn => assignmentFuel_agrees h hmn

/-! ## Statements -/

/-- A declaration. -/
theorem declaration_steady (constant : Bool) : Steady b True (declaration inner constant) := by
  refine .cons (declaration_moves h.moves constant) fun t rest => AgreesOn.next ?_
  refine expectIdentifier_steady.bind fun name => (accept_steady (stops_operator _)).bind fun init => ?_
  -- a constant without a value is refused
  cases init with
  | true => exact h.expression.bind fun v => .pure _
  | false =>
    cases constant with
    | true => exact .failHere _ _
    | false => exact .pure _

/-- The semicolon behind a method is optional. -/
theorem method_steady : Steady b False (method inner) := by
  refine (accept_steady (stops_keyword _)).bind fun isAsync => ?_
  exact (functionDef_steady h true isAsync).bind fun d => (accept_inside _).bind fun _ => .pure d

/-- A class. -/
theorem classDecl_steady : Steady b True (classDecl inner) := by
  refine .cons (classDecl_moves h.moves) fun t rest => AgreesOn.next ?_
  refine expectIdentifier_steady.bind fun name => (accept_steady (stops_keyword _)).bind fun extends? => ?_
  -- the body follows the name of the parent, if there is one
  have hrest (parent : Option String) : Steady b True (do
      let _ ← expectDelim .braceOpen "Expected '\x7b' to start class body"
      let methods ← repeatWhile (do return !(← checkDelim .braceClose) && !(← atEnd)) (method inner)
      let _ ← expectDelim .braceClose "Expected '\x7d' after class body"
      return Node.classDecl name parent methods t.pos) := by
    refine (expect_steady (stops_delimiter (by decide))).bind fun _ => ?_
    exact (repeatWhile_steady moreItems_steady (method_steady h)).closed
      (stops_delimiter (by decide)) fun methods _ => .pure _
  cases extends? with
  | true => exact expectIdentifier_steady.mapped.bind hrest
  | false => exact hrest none

/-- A condition, with any more fuel. -/
theorem conditionalFuel_agrees {m n : Nat} (hmn : m ≤ n) :
    Agrees b True (conditionalFuel inner m) (conditionalFuel inner n) := by
  -- both have fuel left for the same round
  induction m generalizing n with
  | zero => exact .failHere _ _
  | succ m ih =>
    obtain ⟨n, rfl⟩ : ∃ k, n = k + 1 := ⟨n - 1, by omega⟩
    intro before
    cases before with
    | nil =>
      exact AgreesOn.atEnd (conditionalFuel_settles h.moves []) (Nat.succ_le_succ (Nat.zero_le m)) _
    | cons t rest =>
      refine AgreesOn.next (h.expression.bind fun condition => (block_steady h).bind fun branch => ?_)
      refine (accept_steady (stops_keyword _)).bind fun hasElse => ?_
      cases hasElse with
      | false => exact .pure _
      | true =>
        refine (check_steady (stops_keyword _)).bind fun chained => ?_
        cases chained with
        | true => exact (ih (Nat.le_of_succ_le_succ hmn)).bind fun _ => .pure _
        | false => exact (block_steady h).bind fun _ => .pure _

/-- A condition. -/
theorem conditional_steady : Steady b True (conditional inner) :=
  .fuel fun _ _ hmn => conditionalFuel_agrees h hmn

/-- A loop with a condition. -/
theorem whileLoop_steady : Steady b True (whileLoop inner) :=
  .cons (whileLoop_moves h.moves) fun _ _ => AgreesOn.next <|
    h.expression.bind fun _ => (block_steady h).bind fun _ => .pure _

/-- A loop over items or an endless one. -/
theorem forLoop_steady : Steady b True (forLoop inner) := by
  refine .cons (forLoop_moves h.moves) fun t rest => AgreesOn.next fun left => ?_
  have hbody (var : String) (i : Node) : Steady b True (do return Node.forEach var i (← block inner)) :=
    (block_steady h).bind fun _ => .pure _
  have hplain : Steady b True (do
      let var ← expectIdentifier "Expected loop variable after 'for'"
      let _ ← expectKeyword .inKw "Expected 'in' after loop variable"
      let iterable ← inner.expression
      let body ← block inner
      return .forEach var iterable body : Parser Node) :=
    expectIdentifier_steady.bind fun var => (expect_steady (stops_keyword _)).bind fun _ =>
      h.expression.bind fun i => hbody var i
  refine AgreesOn.checkHead (stops_delimiter (by decide)) ?_
  cases left with
  | nil =>
    -- at the boundary there are no parentheses, whatever is behind it
    rw [List.nil_append, headKind, b.isEnd]
    exact AgreesOn.congr ((run_bind_ok (run_peekAt 1 _)).trans (run_bind_ok (run_peekAt 2 _)))
      ((run_bind_ok (run_peekAt 1 _)).trans (run_bind_ok (run_peekAt 2 _))) (hplain [])
  | cons t' rest' =>
    refine AgreesOn.peekTwo (fun k => ?_) (fun k => ?_) fun k l => ?_
    · simp only [TokenKind.isIdentifier, Bool.and_false, Bool.false_and]
    · simp only [TokenKind.isKeyword, Bool.and_false]
    · cases TokenKind.isDelimiter .parenOpen (headKind (t' :: rest' ++ [b.eof])) && k.isIdentifier &&
        TokenKind.isKeyword .inKw l with
      | true =>
        refine AgreesOn.next (expectIdentifier_steady.bind fun var => ?_)
        refine (expect_steady (stops_keyword _)).bind fun _ => h.expression.bind fun i => ?_
        exact (expect_steady (stops_delimiter (by decide))).bind fun _ => hbody var i
      | false => exact hplain _

omit h in
/-- The name of a caught failure. -/
theorem catchName_steady : Steady b True catchName := by
  refine (accept_steady (stops_delimiter (by decide))).bind fun parenthesized => ?_
  cases parenthesized with
  | true =>
    refine expectIdentifier_steady.bind fun name => ?_
    exact (expect_steady (stops_delimiter (by decide))).bind fun _ => .pure _
  | false =>
    intro before
    -- neither the semicolon nor the end of input is a name
    cases before with
    | nil =>
      refine AgreesOn.peek_nil ?_
      rw [b.isEnd, b.isSemicolon]
      exact .pure none
    | cons t rest =>
      refine AgreesOn.peek_cons ?_
      split
      · exact AgreesOn.next fun left => .pure _
      · exact .pure none

/-- A try statement. -/
theorem tryStatement_steady : Steady b True (tryStatement inner) := by
  refine .cons (tryStatement_moves h.moves) fun t rest => AgreesOn.next ?_
  refine (block_steady h).bind fun body => (expect_steady (stops_keyword _)).bind fun _ => ?_
  exact catchName_steady.bind fun name => (block_steady h).bind fun _ => .pure _

/-- A print statement. -/
theorem print_steady : Steady b True (print inner) := by
  refine .cons (print_moves h.moves) fun t rest => AgreesOn.next ?_
  refine (accept_steady (stops_delimiter (by decide))).bind fun parenthesized => ?_
  cases parenthesized with
  | true => exact (arguments_steady h).bind fun _ => .pure _
  | false => exact h.expression.bind fun _ => .pure _

/-- The cases of a switch, with any more fuel. -/
theorem switchFuel_agrees (cases : List (SwitchCase Node)) (default : Option (List Node))
    {m n : Nat} (hmn : m ≤ n) :
    Agrees b False (switchFuel inner cases default m) (switchFuel inner cases default n) := by
  induction m generalizing n cases default with
  | zero => exact .failHere _ _
  | succ m ih =>
    obtain ⟨n, rfl⟩ : ∃ k, n = k + 1 := ⟨n - 1, by omega⟩
    have ih' (cases default) := ih cases default (Nat.le_of_succ_le_succ hmn)
    -- the end of input is seen here, so nothing is said of a body that is not closed
    refine (check_steady (stops_delimiter (by decide))).bind fun closing => ?_
    refine atEnd_steady.bind fun ended => ?_
    intro before
    split
    · exact .pure _
    · refine (accept_inside _).bind (fun isCase => ?_) before
      cases isCase with
      | true =>
        refine h.expression.part.bind fun v => (accept_inside _).bind fun _ => ?_
        exact (blockItems_steady h).bind fun body => ih' _ _
      | false =>
        refine (accept_inside _).bind fun isDefault => ?_
        cases isDefault with
        | false => exact .failHere _ _
        | true =>
          intro before
          show AgreesOn b False before (if default.isSome = true then _ else _)
            (if default.isSome = true then _ else _)
          split
          · exact .failHere _ _
          · refine (accept_inside _).bind (fun _ => ?_) before
            exact (blockItems_steady h).bind fun body => ih' _ _

/-- A switch. -/
theorem switchStatement_steady : Steady b True (switchStatement inner) := by
  refine .cons (switchStatement_moves h.moves) fun t rest => AgreesOn.next ?_
  refine h.expression.bind fun subject => (expect_steady (stops_delimiter (by decide))).bind fun _ => ?_
  exact .fuel_closed (stops_delimiter (by decide)) (fun _ _ hmn => switchFuel_agrees h [] none hmn)
    fun _ _ => .pure _

omit h in
/-- A statement ends at both tokens of the boundary. -/
theorem atStatementEnd_steady : Steady b True atStatementEnd := by
  intro before
  refine AgreesOn.congr (run_atStatementEnd _) ?_ (.pure _)
  rw [run_atStatementEnd]
  -- both end the statement, one as a delimiter and one as the end
  cases before with
  | nil =>
    rw [List.nil_append, List.nil_append, headKind, headKind, b.isEnd, b.isSemicolon]
    rfl
  | cons t rest => rfl

omit h in
/-- An import. -/
theorem importStatement_steady : Steady b True importStatement := by
  refine .cons importStatement_moves fun t rest => AgreesOn.next ?_
  exact expectIdentifier_steady.bind fun _ => .pure _

/-- A statement without its semicolon. -/
theorem bareStatement_steady : Steady b True (bareStatement inner) := by
  refine .cons (bareStatement_moves h.moves) fun t rest => AgreesOn.peek_cons ?_
  have hsingle (node : Node) : SteadyOn b True (t :: rest) (single node) :=
    AgreesOn.next fun left => .pure node
  have hfunction (isAsync : Bool) :
      Steady b True (do return Node.function (← functionDef inner true isAsync)) :=
    (functionDef_steady h true isAsync).bind fun _ => .pure _
  -- one case for each word that a statement can begin with
  split
  · exact declaration_steady h false _
  · exact declaration_steady h true _
  · exact classDecl_steady h _
  · exact conditional_steady h _
  · exact whileLoop_steady h _
  · exact AgreesOn.next ((block_steady h).bind fun _ => .pure _)
  · exact forLoop_steady h _
  · exact tryStatement_steady h _
  · refine AgreesOn.next (atStatementEnd_steady.bind fun ended => ?_)
    cases ended with
    | true => exact .pure _
    | false => exact h.expression.bind fun _ => .pure _
  · exact AgreesOn.next (h.expression.bind fun _ => .pure _)
  · exact print_steady h _
  · exact importStatement_steady _
  · exact hsingle _
  · exact hsingle _
  · exact hsingle _
  · exact switchStatement_steady h _
  · refine AgreesOn.peekAt (Nat.succ_le_succ (Nat.zero_le _)) rfl fun kind => ?_
    split
    · exact hfunction false _
    · exact h.expression _
  · refine AgreesOn.peekTwo (fun _ => rfl) (fun k => ?_) fun k l => ?_
    · simp only [TokenKind.isIdentifier, Bool.and_false]
    · split
      · exact AgreesOn.next (hfunction true)
      · exact h.expression _
  · refine AgreesOn.view looksLikeMap (fun isMap =>
      if isMap then inner.expression else block inner) (looksLikeMap_boundary t rest) ?_
    split
    · exact h.expression _
    · exact block_steady h _
  · exact h.expression _

/-- A statement, with the semicolon that ends it. -/
theorem statement_steady : Steady b False (Parser.statement inner) :=
  (bareStatement_steady h).part.bind fun s => (accept_inside _).bind fun _ => .pure s

end

/-! ## Levels -/

/-- On every level all guarded parsers are steady. -/
theorem Level.at_agrees (depth : Nat) : (Level.at depth).Agrees b := by
  induction depth with
  | zero =>
    exact ⟨Level.at_moves 0, .failHere _ _, .failHere _ _, .failHere _ _⟩
  | succ depth ih =>
    exact ⟨Level.at_moves (depth + 1), statement_steady ih, assignment_steady ih, unary_steady ih⟩

end Parser

end BrailleScript
