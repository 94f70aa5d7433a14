import BrailleScript.Proofs.Node.Rows
import BrailleScript.Proofs.Node.Spans

/-!
# Brackets of nested constructs

A construct opens at most two brackets before it goes one level further in: the braces of a class or
of a switch and then those of a method or of a case, or else one bracket only.  So a level opens two
brackets more than the next, and puts at most one prefix operator in front of an operand.  The
grammar is gone through once, with the room and the measures of the next level as the only
hypothesis.

## Key results

- `blockItems_spans`, `unary_spans`, `classDecl_spans`, `switchStatement_spans`: the constructs that
  open brackets or have prefix operators
- `Level.at_spans`: the room and the measures of every level
-/

namespace BrailleScript

namespace Parser

/-- The parsers of the level open at most `r` brackets at once, and give nodes with at most `d`
prefix operators above each other. -/
structure Level.Spans (r d : Nat) (inner : Level) : Prop where
  statement (K : Nat) : Parser.Spans K r [] inner.statement (·.Bounded d K)
  expression (K : Nat) : Parser.Spans K r [] inner.expression (·.Bounded d K)
  operand (K : Nat) : Parser.Spans K r [] inner.operand (·.Bounded d K)

section

variable {K r d : Nat} {inner : Level} {s : List Token} {t : Token} (h : inner.Spans r d)
include h

/-! ## Blocks and functions -/

omit h in
/-- Asking for more items takes nothing. -/
theorem moreItems_looks :
    Looks (do return !(← checkDelim .braceClose) && !(← atEnd) : Parser Bool) :=
  (check_looks _).bind fun _ => atEnd_looks.bind fun _ => .pure _

/-- The items of a block are bounded, and close the brackets they open. -/
theorem blockItems_spans :
    Spans K (r + 1) [] (blockItems inner) fun items => ∀ n ∈ items, n.Bounded d K := by
  refine .opens (fun _ => rfl) fun _ => ?_
  refine (repeatWhile_spans moreItems_looks (h.statement K)).bind (Nat.le_refl r)
    fun items hitems => ?_
  exact .closes (fun _ => rfl) fun _ => .pure hitems

/-- So is a block, and so are the other parts below. -/
theorem block_spans : Spans K (r + 1) [] (block inner) (·.Bounded d K) :=
  (blockItems_spans h).bind (Nat.le_refl _) fun items hitems =>
    .pure (.node rfl rfl (by simpa using hitems))

omit h in
/-- A list of parameters. -/
theorem params_spans : Spans K 1 [] params fun _ => True :=
  .opens (fun _ => rfl) fun _ =>
    ((listUntil_spans (fun _ => rfl) expectIdentifier_spans).imp fun _ _ => trivial)

/-- Arguments close the bracket that was open before them. -/
theorem arguments_spans :
    Spans K r [.parenClose] (arguments inner) fun args => ∀ n ∈ args, n.Bounded d K :=
  listUntil_spans (fun _ => rfl) (h.expression K)

/-- A function definition. -/
theorem functionDef_spans (named isAsync : Bool) :
    Spans K (r + 1) [] (functionDef inner named isAsync) (·.Bounded d K) := by
  refine expectKeyword_spans.after fun start => ?_
  -- the parameters and the body follow the name, if there is one
  have hrest (name : Option String) : Spans K (r + 1) [] (do
      let params ← params
      let body ← blockItems inner
      return (⟨name, params, .block body, isAsync, start.pos⟩ : FunctionDef Node))
      (·.Bounded d K) := by
    refine params_spans.bind (Nat.le_add_left 1 r) fun params _ => ?_
    exact (blockItems_spans h).bind (Nat.le_refl _) fun stmts hstmts => .pure ⟨stmts, rfl, hstmts⟩
  cases named with
  | true =>
    have hname : Spans K 0 [] (some <$> expectIdentifier "Expected function name") fun _ => True :=
      expectIdentifier_spans.mapped (Nat.le_refl 0) fun _ _ => trivial
    exact hname.after fun name => hrest name
  | false => exact hrest none

/-! ## Expressions -/

/-- The call of a primitive. -/
theorem primitiveCall_spans (k : Keyword) (p : Primitive) (pos : Pos) :
    Spans K (r + 1) [] (primitiveCall inner k p pos) (·.Bounded d K) :=
  .opens (fun _ => rfl) fun _ => (arguments_spans h).bind (Nat.le_refl r) fun args hargs =>
    .pure (.node rfl rfl (by simpa using hargs))

omit h in
/-- The key of an entry. -/
theorem mapKey_spans (d : Nat) (before : Token) : Spans K 0 [] (mapKey before) (·.Bounded d K) := by
  intro s
  rw [mapKey, atEnd, bind_assoc]
  refine .peek fun t hs => ?_
  rw [pure_bind]
  cases hend : t.kind.isEndOfInput with
  | true =>
    -- the key is in the token before the end
    simp only [if_true, pure_bind]
    split
    · exact Spans.pure (.leaf rfl rfl rfl) s
    · exact Spans.pure (.leaf rfl rfl rfl) s
    · exact Spans.pure (.leaf rfl rfl rfl) s
    · exact Spans.pure (.leaf rfl rfl rfl) s
    · exact Spans.fail _ _ s
  | false =>
    obtain ⟨rest, rfl⟩ := hs.cons hend
    cases hk : t.kind with
    | identifier | text | number | keyword =>
      refine .plain hs (hk ▸ ⟨rfl, fun _ => rfl⟩) ?_
      dsimp only
      rw [hk]
      exact .pure (.leaf rfl rfl rfl)
    | _ =>
      -- any other token is no key
      intro _ x s' hx
      rw [if_neg Bool.false_ne_true, run_bind_ok (run_next_cons hend rest)] at hx
      simp only [hk] at hx
      exact nomatch hx

/-- The entries of a map. -/
theorem mapEntries_spans (before : Token) (fuel : Nat) :
    Spans K r [] (mapEntries inner before fuel) fun pairs =>
      ∀ p ∈ pairs, p.1.Bounded d K ∧ p.2.Bounded d K := by
  -- a comma asks for another entry, and a brace behind it for none
  induction fuel generalizing before with
  | zero => exact .failHere _
  | succ fuel ih =>
    refine (mapKey_spans d before).bind (Nat.zero_le r) fun key hkey => ?_
    refine (expectDelim_spans fun _ => rfl).after fun _ => ?_
    refine (h.expression K).bind (Nat.le_refl r) fun value hvalue => ?_
    refine .look peek_looks fun separator => (acceptDelim_spans fun _ => rfl).after fun more => ?_
    have hlast : ∀ p ∈ [(key, value)], p.1.Bounded d K ∧ p.2.Bounded d K :=
      List.forall_mem_singleton.2 ⟨hkey, hvalue⟩
    cases more with
    | false => exact .pure hlast
    | true =>
      refine .look (check_looks _) fun closing => ?_
      cases closing with
      | true => exact .pure hlast
      | false =>
        exact (ih separator).bind (Nat.le_refl r) fun rest hrest =>
          .pure (List.forall_mem_cons.2 ⟨⟨hkey, hvalue⟩, hrest⟩)

/-- A map in its braces. -/
theorem mapLiteral_spans : Spans K (r + 1) [] (mapLiteral inner) (·.Bounded d K) := by
  refine .opens (fun _ => rfl) fun start => .look (check_looks _) fun empty => ?_
  -- the braces are closed, with or without entries
  have hclose (pairs : List (Node × Node))
      (hp : ∀ p ∈ pairs, p.1.Bounded d K ∧ p.2.Bounded d K) : Spans K r [.braceClose] (do
      let _ ← expectDelim .braceClose "Expected '\x7d' after map literal"
      return Node.map pairs) fun n => n.Bounded d K :=
    .closes (fun _ => rfl) fun _ => .pure (.map hp)
  cases empty with
  | true => exact hclose [] fun p hp => absurd hp List.not_mem_nil
  | false =>
    have hentries : Spans K r [] (do mapEntries inner start ((← get).length + 1)) fun pairs =>
        ∀ p ∈ pairs, p.1.Bounded d K ∧ p.2.Bounded d K :=
      .look get_looks fun s => mapEntries_spans h start (s.length + 1)
    exact hentries.bind (Nat.le_refl r) hclose

/-- A primary. -/
theorem primary_spans : Spans K (r + 1) [] (primary inner) (·.Bounded d K) := by
  intro s
  refine .peek fun t hs => ?_
  -- a token that is a node of its own
  have hleaf (ht : t.kind.IsPlain) (n : Node) (hn : n.Bounded d K) :
      SpansAt K (r + 1) [] s (do let _ ← next; return n) (·.Bounded d K) :=
    .plain hs ht (.pure hn)
  have hlambda (isAsync : Bool) : Spans K (r + 1) [] (do
      return Node.lambda (← functionDef inner false isAsync)) (·.Bounded d K) :=
    (functionDef_spans h false isAsync).bind (Nat.le_refl _) fun f hf => .pure (.lambda hf)
  split
  next hk => exact hleaf (hk ▸ ⟨rfl, fun _ => rfl⟩) _ (.leaf rfl rfl rfl)
  next hk => exact hleaf (hk ▸ ⟨rfl, fun _ => rfl⟩) _ (.leaf rfl rfl rfl)
  next hk => exact hleaf (hk ▸ .identifier _) _ (.leaf rfl rfl rfl)
  next hk => exact hleaf (hk ▸ .keyword _) _ (.leaf rfl rfl rfl)
  next hk => exact hleaf (hk ▸ .keyword _) _ (.leaf rfl rfl rfl)
  next hk => exact hleaf (hk ▸ .keyword _) _ (.leaf rfl rfl rfl)
  next hk => exact hleaf (hk ▸ .keyword _) _ (.leaf rfl rfl rfl)
  next hk =>
    refine .keyword hs hk ?_
    refine expectOp_spans.after fun _ => ?_
    exact expectMemberName_spans.after fun _ => .pure (.leaf rfl rfl rfl)
  next => exact hlambda false s
  next k _ _ _ _ _ _ hk =>
    refine .look (peekAt_looks 1) fun kind => ?_
    split
    · exact .keyword hs hk (hlambda true)
    · split
      · exact .keyword hs hk (primitiveCall_spans h _ _ _)
      · exact Spans.fail _ _ s
  next hk =>
    refine .opens hs hk (fun _ => rfl) ?_
    exact (h.expression K).bind (Nat.le_refl r) fun e he => .closes (fun _ => rfl) fun _ => .pure he
  next hk =>
    refine .opens hs hk (fun _ => rfl) ?_
    refine (listUntil_spans (fun _ => rfl) (h.expression K)).bind (Nat.le_refl r)
      fun items hitems => ?_
    exact .pure (.node rfl rfl (by simpa using hitems))
  next => exact mapLiteral_spans h s
  next => exact Spans.fail _ _ s

/-- What stands behind a primary. -/
theorem postfixFuel_spans {e : Node} (he : e.Bounded d K) (fuel : Nat) :
    Spans K (r + 1) [] (postfixFuel inner e fuel) (·.Bounded d K) := by
  induction fuel generalizing e with
  | zero => exact .failHere _
  | succ fuel ih =>
    -- each bracket is closed before the next postfix is read, so one is enough for all
    refine .look peek_looks fun t => .mayOpen (fun _ => rfl) ?_ ?_
    · refine (arguments_spans h).bind (Nat.le_refl r) fun args hargs => ih ?_
      exact .node rfl rfl (by simpa [he] using hargs)
    refine acceptOp_spans.after fun isMember => ?_
    cases isMember with
    | true =>
      refine expectMemberName_spans.after fun name => ih ?_
      exact .node rfl rfl (by simpa using he)
    | false =>
      refine .mayOpen (fun _ => rfl) ?_ (.pure he)
      refine (h.expression K).bind (Nat.le_refl r) fun i hi => .closes (fun _ => rfl) fun _ => ih ?_
      exact .node rfl rfl (by simp [he, hi])

/-- A primary with that. -/
theorem postfixed_spans : Spans K (r + 1) [] (postfixed inner) (·.Bounded d K) :=
  (primary_spans h).bind (Nat.le_refl _) fun _ he =>
    .look get_looks fun s => postfixFuel_spans h he (s.length + 1)

/-- A prefix operator stands in front of what is one level further in. -/
theorem unary_spans : Spans K (r + 1) [] (unary inner) (·.Bounded (d + 1) K) := by
  intro s
  refine .peek fun t hs => ?_
  -- an operator is plain, and its operand one level further in
  have hoperand (ht : t.kind.IsPlain) {f : Node → Node}
      (hf : ∀ e, (f e).isPrefixed = true ∧ (f e).children = [e]) :
      SpansAt K (r + 1) [] s (do let _ ← next; return f (← inner.operand))
        (·.Bounded (d + 1) K) := by
    refine .plain hs ht ((h.operand K).bind (Nat.le_succ r) fun e he => .pure ?_)
    refine .prefixed (hf e).1 ?_
    rw [(hf e).2]
    exact List.forall_mem_singleton.2 he
  split
  next hk => exact hoperand (hk ▸ .operator _) fun _ => ⟨rfl, rfl⟩
  next hk => exact hoperand (hk ▸ .operator _) fun _ => ⟨rfl, rfl⟩
  next hk => exact hoperand (hk ▸ .keyword _) fun _ => ⟨rfl, rfl⟩
  next => exact (postfixed_spans h).imp (fun _ => Node.Bounded.deeper) s

omit h in
/-- An operator between operands turns no bracket. -/
theorem isPlain_of_infixAtLeast? {min : Nat} {t : Token} {op : Operator}
    (h : infixAtLeast? min t = some op) : t.kind.IsPlain := by
  unfold infixAtLeast? at h
  split at h
  next o hk => exact hk ▸ .operator o
  next => cases h

omit h in
/-- Operators with their right operands. -/
theorem climbFuel_spans {right : Nat → Parser Node}
    (hr : ∀ m, Spans K r [] (right m) (·.Bounded d K)) (min : Nat) {left : Node}
    (hleft : left.Bounded d K) (fuel : Nat) :
    Spans K r [] (climbFuel right min left fuel) (·.Bounded d K) := by
  induction fuel generalizing left with
  | zero => exact .failHere _
  | succ fuel ih =>
    intro s
    refine .peek fun t hs => ?_
    -- no operator ends the climb, and an operator is followed by its operand
    split
    next => exact Spans.pure hleft s
    next op hop =>
      refine .plain hs (isPlain_of_infixAtLeast? hop) ?_
      exact (hr _).bind (Nat.le_refl r) fun e he => ih (.infixNode hleft he)

/-- A row of them, which may begin with one prefix operator more. -/
theorem climb_spans (levels min : Nat) :
    Spans K (r + 1) [] (climb inner levels min) (·.Bounded (d + 1) K) := by
  induction levels generalizing min with
  | zero => exact unary_spans h
  | succ levels ih =>
    exact (unary_spans h).bind (Nat.le_refl _) fun _ hleft =>
      .look get_looks fun s => climbFuel_spans ih min hleft (s.length + 1)

omit h in
/-- The parameters of an arrow function, where there are any. -/
theorem lambdaParams?_spans : Spans K 1 [] lambdaParams? fun _ => True := by
  refine .look get_looks fun tokens => .look peek_looks fun t => ?_
  refine .look (peekAt_looks 1) fun kind => ?_
  split
  · exact expectIdentifier_spans.after fun _ => .pure trivial
  · split
    · exact params_spans.bind (Nat.le_refl 1) fun _ _ => .pure trivial
    · exact .pure trivial

/-- The parser goes on to a body or to a value behind a link. -/
theorem assignmentFuel_spans (fuel : Nat) :
    Spans K (r + 1) [] (assignmentFuel inner fuel) (·.Bounded (d + 1) K) := by
  induction fuel generalizing K with
  | zero => exact .failHere _
  | succ fuel ih =>
    refine .look peek_looks fun start => ?_
    refine lambdaParams?_spans.bind (Nat.le_add_left 1 r) fun params? _ => ?_
    cases params? with
    | some params =>
      -- the arrow is a link, so there is one less ahead of the body
      refine .link (TokenKind.isChainLink_of_isOperator rfl) fun K' _ hK => ?_
      refine .look (check_looks _) fun isBlock => ?_
      subst hK
      cases isBlock with
      | true =>
        have hblock : Spans K' (r + 1) [] (FunctionBody.block <$> blockItems inner) fun b =>
            ∃ stmts, b = .block stmts ∧ ∀ n ∈ stmts, n.Bounded d K' :=
          (blockItems_spans h).mapped (Nat.le_refl _) fun stmts hstmts => ⟨stmts, rfl, hstmts⟩
        refine hblock.bind (Nat.le_refl _) fun body hbody => .pure ?_
        obtain ⟨stmts, rfl, hstmts⟩ := hbody
        exact (Node.Bounded.lambda ⟨stmts, rfl, hstmts⟩).deeper.fewer (Nat.le_succ K')
      | false =>
        have hexpr : Spans K' (r + 1) [] (FunctionBody.expr <$> assignmentFuel inner fuel) fun b =>
            ∃ v, b = .expr v ∧ v.Bounded (d + 1) K' :=
          ih.mapped (Nat.le_refl _) fun v hv => ⟨v, rfl, hv⟩
        refine hexpr.bind (Nat.le_refl _) fun body hbody => .pure ?_
        obtain ⟨v, rfl, hv⟩ := hbody
        exact .shortLambda hv
    | none =>
      refine (climb_spans h 7 2).bind (Nat.le_refl _) fun e he => .look peek_looks fun t => ?_
      -- the value stands behind a link, and the target is bounded in front of it
      refine .mayLink (TokenKind.isChainLink_of_isOperator rfl) (fun K' hK => ?_) (.pure he)
      subst hK
      show Spans K' _ [] (if isTarget e = true then _ else _) _
      split
      · exact ih.bind (Nat.le_refl _) fun value hvalue => .pure (.assign he hvalue)
      · exact .fail _ _

/-- An expression. -/
theorem assignment_spans : Spans K (r + 1) [] (assignment inner) (·.Bounded (d + 1) K) :=
  .look get_looks fun s => assignmentFuel_spans h (s.length + 1)

/-! ## Statements -/

/-- A declaration. -/
theorem declaration_spans {k : Keyword} (hs : Heads t s) (hk : t.kind = .keyword k)
    (constant : Bool) :
    SpansAt K (r + 1) [] s (declaration inner constant) (·.Bounded d K) := by
  refine .keyword hs hk (expectIdentifier_spans.after fun name => ?_)
  refine acceptOp_spans.after fun initialised => ?_
  -- a constant without a value is refused
  cases initialised with
  | true =>
    refine (h.expression K).bind (Nat.le_succ r) fun v hv => .pure ?_
    exact .node rfl rfl (by simp [hv])
  | false =>
    cases constant with
    | true => exact .failHere _
    | false => exact .pure (.leaf rfl rfl rfl)

/-- A method. -/
theorem method_spans : Spans K (r + 1) [] (method inner) (·.Bounded d K) := by
  refine acceptKeyword_spans.after fun isAsync => ?_
  refine (functionDef_spans h true isAsync).bind (Nat.le_refl _) fun f hf => ?_
  exact (acceptDelim_spans fun _ => rfl).after fun _ => .pure hf

/-- The braces of a class stand around those of its methods. -/
theorem classDecl_spans {k : Keyword} (hs : Heads t s) (hk : t.kind = .keyword k) :
    SpansAt K (r + 2) [] s (classDecl inner) (·.Bounded d K) := by
  refine .keyword hs hk (expectIdentifier_spans.after fun name => ?_)
  refine acceptKeyword_spans.after fun extends? => ?_
  -- the body follows the name of the parent, if there is one
  have hrest (parent : Option String) : Spans K (r + 2) [] (do
      let _ ← expectDelim .braceOpen "Expected '\x7b' to start class body"
      let methods ← repeatWhile (do return !(← checkDelim .braceClose) && !(← atEnd)) (method inner)
      let _ ← expectDelim .braceClose "Expected '\x7d' after class body"
      return Node.classDecl name parent methods t.pos) (·.Bounded d K) := by
    refine .opens (fun _ => rfl) fun _ => ?_
    refine (repeatWhile_spans moreItems_looks (method_spans h)).bind (Nat.le_refl _)
      fun methods hmethods => ?_
    exact .closes (fun _ => rfl) fun _ => .pure (.classDecl hmethods)
  cases extends? with
  | true =>
    have hname : Spans K 0 []
        (some <$> expectIdentifier "Expected parent class name after 'extends'") fun _ => True :=
      expectIdentifier_spans.mapped (Nat.le_refl 0) fun _ _ => trivial
    exact hname.after fun parent => hrest parent
  | false => exact hrest none

/-- The parser goes on to a conditional behind a link. -/
theorem conditionalFuel_spans {k : Keyword} (hs : Heads t s) (hk : t.kind = .keyword k)
    (fuel : Nat) : SpansAt K (r + 1) [] s (conditionalFuel inner fuel) (·.Bounded d K) := by
  induction fuel generalizing K k t s with
  | zero => exact Spans.failHere _ s
  | succ fuel ih =>
    refine .keyword hs hk ((h.expression K).bind (Nat.le_succ r) fun c hc => ?_)
    refine (block_spans h).bind (Nat.le_refl _) fun thenBranch ht => ?_
    refine .mayLink (TokenKind.isChainLink_of_isKeyword rfl) (fun K' hK => ?_) ?_
    · subst hK
      -- behind `else` stands a conditional or a block
      have hrest (e : Node) (he : e.Bounded d K') :
          Spans K' (r + 1) [] (pure (Node.ifElse c thenBranch (some e)))
            (·.Bounded d (K' + 1)) :=
        .pure (.ifElse hc ht he)
      refine fun s => .check (fun u hu hif => ?_) ?_
      · exact (ih hu (eq_of_isKeyword hif)).bind (Nat.le_refl _) hrest
      · exact (block_spans h s).bind (Nat.le_refl _) hrest
    · exact .pure (.node rfl rfl (by simp [hc, ht]))

/-- A condition, whose row goes on with links only. -/
theorem conditional_spans {k : Keyword} (hs : Heads t s) (hk : t.kind = .keyword k) :
    SpansAt K (r + 1) [] s (conditional inner) (·.Bounded d K) :=
  .look get_looks fun _ => conditionalFuel_spans h hs hk _

/-- A loop with a condition. -/
theorem whileLoop_spans {k : Keyword} (hs : Heads t s) (hk : t.kind = .keyword k) :
    SpansAt K (r + 1) [] s (whileLoop inner) (·.Bounded d K) := by
  refine .keyword hs hk ((h.expression K).bind (Nat.le_succ r) fun c hc => ?_)
  exact (block_spans h).bind (Nat.le_refl _) fun b hb => .pure (.node rfl rfl (by simp [hc, hb]))

/-- A loop over items or an endless one. -/
theorem forLoop_spans {k : Keyword} (hs : Heads t s) (hk : t.kind = .keyword k) :
    SpansAt K (r + 1) [] s (forLoop inner) (·.Bounded d K) := by
  refine .keyword hs hk fun s => ?_
  have hbody (var : String) {i : Node} (hi : i.Bounded d K) :
      Spans K (r + 1) [] (do return Node.forEach var i (← block inner)) (·.Bounded d K) :=
    (block_spans h).bind (Nat.le_refl _) fun b hb => .pure (.node rfl rfl (by simp [hi, hb]))
  have hbare : Spans K (r + 1) [] (do
      let var ← expectIdentifier "Expected loop variable after 'for'"
      let _ ← expectKeyword .inKw "Expected 'in' after loop variable"
      let iterable ← inner.expression
      let body ← block inner
      return Node.forEach var iterable body) (·.Bounded d K) := by
    refine expectIdentifier_spans.after fun var => ?_
    refine expectKeyword_spans.after fun _ => ?_
    exact (h.expression K).bind (Nat.le_succ r) fun i hi => hbody var hi
  -- a parenthesis is that of the loop only in front of a name and `in`
  refine .check (fun u hu hopen => ?_) ?_
  · refine .look (peekAt_looks 1) fun named => .look (peekAt_looks 2) fun within => ?_
    cases true && named.isIdentifier && within.isKeyword .inKw with
    | true =>
      refine .opens hu (eq_of_isDelimiter hopen) (fun _ => rfl) ?_
      refine expectIdentifier_spans.after fun var => ?_
      refine expectKeyword_spans.after fun _ => ?_
      refine (h.expression K).bind (Nat.le_refl r) fun i hi => ?_
      exact .closes (fun _ => rfl) fun _ => hbody var hi
    | false => exact hbare s
  · exact .look (peekAt_looks 1) fun named => .look (peekAt_looks 2) fun within => hbare s

omit h in
/-- The name of a caught failure. -/
theorem catchName_spans : Spans K 1 [] catchName fun _ => True := by
  refine .mayOpen (fun _ => rfl) ?_ fun s => .peek fun t hs => ?_
  · refine expectIdentifier_spans.after fun name => ?_
    exact .closes (fun _ => rfl) fun _ => .pure trivial
  · split
    next hk => exact .plain hs (hk ▸ .identifier _) (.pure trivial)
    next => exact Spans.pure trivial s

/-- A try statement. -/
theorem tryStatement_spans {k : Keyword} (hs : Heads t s) (hk : t.kind = .keyword k) :
    SpansAt K (r + 1) [] s (tryStatement inner) (·.Bounded d K) := by
  refine .keyword hs hk ((block_spans h).bind (Nat.le_refl _) fun body hbody => ?_)
  refine expectKeyword_spans.after fun _ => ?_
  refine catchName_spans.bind (Nat.le_add_left 1 r) fun name _ => ?_
  exact (block_spans h).bind (Nat.le_refl _) fun handler hhandler =>
    .pure (.node rfl rfl (by simp [hbody, hhandler]))

/-- A print statement. -/
theorem print_spans {k : Keyword} (hs : Heads t s) (hk : t.kind = .keyword k) :
    SpansAt K (r + 1) [] s (print inner) (·.Bounded d K) := by
  refine .keyword hs hk (.mayOpen (fun _ => rfl) ?_ ?_)
  · exact (arguments_spans h).bind (Nat.le_refl r) fun args hargs =>
      .pure (.node rfl rfl (by simpa using hargs))
  · exact (h.expression K).bind (Nat.le_succ r) fun e he => .pure (.node rfl rfl (by simp [he]))

/-- The cases of a switch. -/
theorem switchFuel_spans {cases : List (SwitchCase Node)} {default : Option (List Node)}
    (hc : ∀ c ∈ cases, c.value.Bounded d K ∧ ∀ n ∈ c.body, n.Bounded d K)
    (hd : ∀ stmts ∈ default, ∀ n ∈ stmts, n.Bounded d K) (fuel : Nat) :
    Spans K (r + 1) [] (switchFuel inner cases default fuel) fun o =>
      (∀ c ∈ o.1, c.value.Bounded d K ∧ ∀ n ∈ c.body, n.Bounded d K) ∧
      ∀ stmts ∈ o.2, ∀ n ∈ stmts, n.Bounded d K := by
  induction fuel generalizing cases default with
  | zero => exact .failHere _
  | succ fuel ih =>
    -- the cases that have been read are kept in reverse order
    refine .look (check_looks _) fun closing => .look atEnd_looks fun ended => ?_
    split
    · exact .pure ⟨fun c hmem => hc c (List.mem_reverse.1 hmem), hd⟩
    refine acceptKeyword_spans.after fun isCase => ?_
    cases isCase with
    | true =>
      refine (h.expression K).bind (Nat.le_succ r) fun v hv => ?_
      refine (acceptDelim_spans fun _ => rfl).after fun _ => ?_
      exact (blockItems_spans h).bind (Nat.le_refl _) fun body hbody =>
        ih (List.forall_mem_cons.2 ⟨⟨hv, hbody⟩, hc⟩) hd
    | false =>
      refine acceptKeyword_spans.after fun isDefault => ?_
      cases isDefault with
      | false => exact .failHere _
      | true =>
        show Spans K _ [] (if default.isSome = true then _ else _) _
        split
        · exact .failHere _
        refine (acceptDelim_spans fun _ => rfl).after fun _ => ?_
        refine (blockItems_spans h).bind (Nat.le_refl _) fun body hbody => ih hc ?_
        rintro stmts ⟨⟩
        exact hbody

/-- The braces of a switch stand around those of its cases. -/
theorem switchStatement_spans {k : Keyword} (hs : Heads t s) (hk : t.kind = .keyword k) :
    SpansAt K (r + 2) [] s (switchStatement inner) (·.Bounded d K) := by
  refine .keyword hs hk ((h.expression K).bind (Nat.le_add_right r 2) fun e he => ?_)
  refine .opens (fun _ => rfl) fun _ => .look get_looks fun s => ?_
  refine (switchFuel_spans h (by simp) (by simp) (s.length + 1)).bind (Nat.le_refl _) fun o ho => ?_
  exact .closes (fun _ => rfl) fun _ => .pure (.switch he ho.1 ho.2)

/-- A return. -/
theorem returnStatement_spans {k : Keyword} (hs : Heads t s) (hk : t.kind = .keyword k) :
    SpansAt K (r + 1) [] s (returnStatement inner) (·.Bounded d K) := by
  -- the end of the statement is only looked for
  have hatEnd : Looks atStatementEnd :=
    atEnd_looks.bind fun _ => (check_looks _).bind fun _ => (check_looks _).bind fun _ => .pure _
  refine .keyword hs hk (.look hatEnd fun ended => ?_)
  cases ended with
  | true => exact .pure (.leaf rfl rfl rfl)
  | false =>
    exact (h.expression K).bind (Nat.le_succ r) fun e he => .pure (.node rfl rfl (by simp [he]))

/-- A statement without its semicolon. -/
theorem bareStatement_spans : Spans K (r + 2) [] (bareStatement inner) (·.Bounded d K) := by
  intro s
  refine .peek fun t hs => ?_
  have hexpression : Spans K (r + 2) [] inner.expression (·.Bounded d K) :=
    (h.expression K).roomier (Nat.le_add_right r 2)
  have hfunction (isAsync : Bool) : Spans K (r + 2) []
      (do return Node.function (← functionDef inner true isAsync)) (·.Bounded d K) :=
    (functionDef_spans h true isAsync).bind (Nat.le_succ _) fun f hf => .pure (.function hf)
  have hsingle {k : Keyword} (hk : t.kind = .keyword k) (n : Node) (hn : n.Bounded d K) :
      SpansAt K (r + 2) [] s (single n) (·.Bounded d K) :=
    .keyword hs hk (.pure hn)
  have hroom {p : Parser Node} (hp : SpansAt K (r + 1) [] s p (·.Bounded d K)) :
      SpansAt K (r + 2) [] s p (·.Bounded d K) :=
    hp.roomier (Nat.le_succ _)
  -- one goal for each way a statement can begin
  split
  next hk => exact hroom (declaration_spans h hs hk false)
  next hk => exact hroom (declaration_spans h hs hk true)
  next hk => exact classDecl_spans h hs hk
  next hk => exact hroom (conditional_spans h hs hk)
  next hk => exact hroom (whileLoop_spans h hs hk)
  next hk =>
    refine .keyword hs hk ((block_spans h).bind (Nat.le_succ _) fun b hb => .pure ?_)
    exact .node rfl rfl (by simp [hb])
  next hk => exact hroom (forLoop_spans h hs hk)
  next hk => exact hroom (tryStatement_spans h hs hk)
  next hk => exact hroom (returnStatement_spans h hs hk)
  next hk =>
    refine .keyword hs hk (hexpression.bind (Nat.le_refl _) fun e he => .pure ?_)
    exact .node rfl rfl (by simp [he])
  next hk => exact hroom (print_spans h hs hk)
  next hk =>
    refine .keyword hs hk (expectIdentifier_spans.after fun _ => ?_)
    exact .pure (.leaf rfl rfl rfl)
  next hk => exact hsingle hk _ (.leaf rfl rfl rfl)
  next hk => exact hsingle hk _ (.leaf rfl rfl rfl)
  next hk => exact hsingle hk _ (.leaf rfl rfl rfl)
  next hk => exact switchStatement_spans h hs hk
  next =>
    refine .look (peekAt_looks 1) fun kind => ?_
    split
    · exact hfunction false s
    · exact hexpression s
  next hk =>
    refine .look (peekAt_looks 1) fun kind => .look (peekAt_looks 2) fun kind' => ?_
    split
    · exact .keyword hs hk (hfunction true)
    · exact hexpression s
  next =>
    refine .look get_looks fun tokens => ?_
    split
    · exact hexpression s
    · exact hroom (block_spans h s)
  next => exact hexpression s

/-- A statement. -/
theorem statement_spans : Spans K (r + 2) [] (Parser.statement inner) (·.Bounded d K) :=
  (bareStatement_spans h).bind (Nat.le_refl _) fun _ hn =>
    (acceptDelim_spans fun _ => rfl).after fun _ => .pure hn

end

/-! ## Levels -/

/-- Each level opens two brackets and puts one prefix operator in front of an operand. -/
theorem Level.at_spans (depth : Nat) : (Level.at depth).Spans (2 * depth) depth := by
  -- each guarded parser goes one level further in
  induction depth with
  | zero => exact ⟨fun _ => .failHere _, fun _ => .failHere _, fun _ => .failHere _⟩
  | succ depth ih =>
    refine ⟨fun K => ?_, fun K => ?_, fun K => ?_⟩
    · exact (statement_spans ih).imp fun _ => Node.Bounded.deeper
    · exact (assignment_spans ih).roomier (Nat.le_succ _)
    · exact (unary_spans ih).roomier (Nat.le_succ _)

end Parser

end BrailleScript
