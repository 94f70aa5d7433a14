import BrailleScript.Proofs.Node.Fits
import BrailleScript.Error
import BrailleScript.Proofs.Node.Gives

/-!
# Parsed trees are well-formed

The type of nodes allows anything anywhere; the parser does not.  Each production of the grammar
gives a node that fits if the parsers one level further in do, so by induction on the levels every
parsed program is a program of well-formed statements.  Its literals that are handed to reflection
are texts of tokens.

## Key results

- `Level.at_fits`: what the parsers of every level give
- `parse_fits`: the statements of a parsed program fit
- `parse_isProgram`: a parsed tree is a program
-/

namespace BrailleScript

namespace Parser

variable {R : String → Prop}

/-- The parsers of a level give nodes that fit. -/
structure Level.Fits (R : String → Prop) (inner : Level) : Prop where
  statement : Gives R inner.statement (·.Fits R)
  expression : Gives R inner.expression (·.FitsValue R)
  operand : Gives R inner.operand (·.FitsValue R)

section

variable {inner : Level} (h : inner.Fits R)
include h

/-! ## Blocks and functions -/

/-- The items of a block fit; below are the other parts. -/
theorem blockItems_fits : Gives R (blockItems inner) fun items => ∀ n ∈ items, n.Fits R := by
  refine (expect_gives _ _).bind fun _ _ => ?_
  refine (repeatWhile_gives ?_ h.statement).bind fun items hitems => ?_
  · exact (check_gives _).bind fun _ _ => atEnd_gives.bind fun _ _ => .pure trivial
  · exact (expect_gives _ _).bind fun _ _ => .pure hitems

/-- A block. -/
theorem block_fits : Gives R (block inner) fun n => n.Fits R ∧ n.isBlock = true :=
  (blockItems_fits h).bind fun _ hitems => .pure ⟨.block hitems, rfl⟩

omit h in
/-- A list of parameters is of some names. -/
theorem params_gives : Gives R params fun _ => True :=
  (expect_gives _ _).bind fun _ _ =>
    (listUntil_gives _ _ (expectIdentifier_gives _)).mono fun _ _ => trivial

/-- Arguments. -/
theorem arguments_fits : Gives R (arguments inner) fun args => ∀ n ∈ args, n.FitsValue R :=
  listUntil_gives _ _ h.expression

/-- A function definition, with a name when one is asked for. -/
theorem functionDef_fits (named isAsync : Bool) :
    Gives R (functionDef inner named isAsync) fun d => d.name.isSome = named ∧ d.Fits R := by
  refine (expect_gives _ _).bind fun start _ => ?_
  -- the parameters and the body follow the name, if there is one
  have hrest (name : Option String) (hname : name.isSome = named) :
      Gives R (do
        let params ← params
        let body ← blockItems inner
        return (⟨name, params, .block body, isAsync, start.pos⟩ : FunctionDef Node))
        fun d => d.name.isSome = named ∧ d.Fits R :=
    params_gives.bind fun _ _ => (blockItems_fits h).bind fun stmts hstmts =>
      .pure ⟨hname, stmts, rfl, hstmts⟩
  cases named with
  | true =>
    exact ((expectIdentifier_gives _).mapped (r := (·.isSome = true)) fun _ _ => rfl).bind hrest
  | false => exact hrest none rfl

/-- A lambda that begins with `fn`. -/
theorem fnLambda_fits (isAsync : Bool) :
    Gives R (do return Node.lambda (← functionDef inner false isAsync)) fun n => n.FitsValue R := by
  refine (functionDef_fits h false isAsync).bind fun d hd => .pure (.lambda ?_ hd.2)
  rw [Option.isNone_iff_eq_none, ← Option.not_isSome_iff_eq_none, hd.1]
  exact Bool.false_ne_true

/-! ## Expressions -/

/-- The call of a primitive. -/
theorem primitiveCall_fits (k : Keyword) (p : Primitive) (pos : Pos) :
    Gives R (primitiveCall inner k p pos) (·.FitsValue R) :=
  (expect_gives _ _).bind fun _ _ => (arguments_fits h).bind fun _ ha => .pure (.primitive ha)

omit h in
/-- The key of an entry is a key. -/
theorem mapKey_gives (before : Token) : Gives R (mapKey before) (·.isKey = true) := by
  refine atEnd_gives.bind fun b _ => ?_
  -- the key is in the token before the end, or in the next one
  cases b
  case' true => refine Gives.bind (q := fun _ => True) (.pure trivial) fun t _ => ?_
  case' false => refine next_gives.bind fun t _ => ?_
  all_goals
    dsimp only
    split
    · exact .pure rfl
    · exact .pure rfl
    · exact .pure rfl
    · exact .pure rfl
    · exact .fail _ _

/-- The entries of a map. -/
theorem mapEntries_fits (before : Token) (fuel : Nat) :
    Gives R (mapEntries inner before fuel) fun pairs =>
      ∀ p ∈ pairs, p.1.isKey = true ∧ p.2.FitsValue R := by
  -- a comma asks for another entry, and a brace behind it for none
  induction fuel generalizing before with
  | zero => exact failHere_gives _
  | succ fuel ih =>
    refine (mapKey_gives before).bind fun key hkey => (expect_gives _ _).bind fun _ _ => ?_
    refine h.expression.bind fun value hvalue => peek_gives.bind fun separator _ => ?_
    refine (accept_gives _).bind fun more _ => ?_
    have hlast : ∀ p ∈ [(key, value)], p.1.isKey = true ∧ p.2.FitsValue R :=
      List.forall_mem_singleton.2 ⟨hkey, hvalue⟩
    cases more with
    | false => exact .pure hlast
    | true =>
      refine (check_gives _).bind fun closing _ => ?_
      cases closing with
      | true => exact .pure hlast
      | false =>
        exact (ih separator).bind fun rest hrest =>
          .pure (List.forall_mem_cons.2 ⟨⟨hkey, hvalue⟩, hrest⟩)

/-- A map in its braces. -/
theorem mapLiteral_fits : Gives R (mapLiteral inner) (·.FitsValue R) := by
  refine (expect_gives _ _).bind fun start _ => (check_gives _).bind fun empty _ => ?_
  -- the braces are closed, with or without entries
  have hclose (pairs : List (Node × Node))
      (hp : ∀ p ∈ pairs, p.1.isKey = true ∧ p.2.FitsValue R) :
      Gives R (do
        let _ ← expectDelim .braceClose "Expected '\x7d' after map literal"
        return Node.map pairs) fun n => n.FitsValue R :=
    (expect_gives _ _).bind fun _ _ => .pure (.map hp)
  cases empty with
  | true => exact hclose [] fun p hp => absurd hp List.not_mem_nil
  | false =>
    exact (Gives.get.bind fun s _ => mapEntries_fits h start (s.length + 1)).bind hclose

/-- A primary. -/
theorem primary_fits : Gives R (primary inner) (·.FitsValue R) := by
  -- a token that is a node of its own
  have hleaf (n : Node) (hn : n.FitsValue R) :
      Gives R (do let _ ← next; return n) (·.FitsValue R) :=
    next_gives.bind fun _ _ => .pure hn
  refine peek_gives.bind fun t ht => ?_
  split
  · exact hleaf _ (.of_fits (.leaf rfl rfl nofun) rfl nofun)
  · rename_i s hs
    exact hleaf _ ⟨.leaf rfl rfl nofun, rfl, fun w hw => Node.text.inj hw ▸ ht s hs⟩
  · exact hleaf _ (.of_fits (.leaf rfl rfl nofun) rfl nofun)
  · exact hleaf _ (.of_fits (.leaf rfl rfl nofun) rfl nofun)
  · exact hleaf _ (.of_fits (.leaf rfl rfl nofun) rfl nofun)
  · exact hleaf _ (.of_fits (.leaf rfl rfl nofun) rfl nofun)
  · exact hleaf _ (.of_fits (.leaf rfl rfl nofun) rfl nofun)
  · refine next_gives.bind fun _ _ => (expect_gives _ _).bind fun _ _ => ?_
    exact expectMemberName_gives.bind fun _ _ => .pure (.of_fits (.leaf rfl rfl nofun) rfl nofun)
  · exact fnLambda_fits h false
  · refine (peekAt_gives 1).bind fun k' _ => ?_
    split
    · exact next_gives.bind fun _ _ => fnLambda_fits h true
    · split
      · exact next_gives.bind fun _ _ => primitiveCall_fits h _ _ _
      · exact .fail _ _
  · refine next_gives.bind fun _ _ => h.expression.bind fun e he => ?_
    exact (expect_gives _ _).bind fun _ _ => .pure he
  · exact next_gives.bind fun _ _ => (listUntil_gives _ _ h.expression).bind fun _ hitems =>
      .pure (.array hitems)
  · exact mapLiteral_fits h
  · exact .fail _ _

/-- What stands behind a primary. -/
theorem postfixFuel_fits {e : Node} (he : e.FitsValue R) (fuel : Nat) :
    Gives R (postfixFuel inner e fuel) (·.FitsValue R) := by
  -- what is read so far is the front of what stands behind it
  induction fuel generalizing e with
  | zero => exact failHere_gives _
  | succ fuel ih =>
    refine peek_gives.bind fun t _ => (accept_gives _).bind fun isCall _ => ?_
    cases isCall with
    | true => exact (arguments_fits h).bind fun args ha => ih (.call he ha)
    | false =>
      refine (accept_gives _).bind fun isMember _ => ?_
      cases isMember with
      | true => exact expectMemberName_gives.bind fun name _ => ih (.member he)
      | false =>
        refine (accept_gives _).bind fun isIndex _ => ?_
        cases isIndex with
        | true =>
          refine h.expression.bind fun i hi => (expect_gives _ _).bind fun _ _ => ?_
          exact ih (.index he hi)
        | false => exact .pure he

/-- An operand with its prefix operators. -/
theorem unary_fits : Gives R (unary inner) (·.FitsValue R) := by
  refine peek_gives.bind fun t _ => ?_
  split
  · exact next_gives.bind fun _ _ => h.operand.bind fun e he => .pure (.unary he)
  · exact next_gives.bind fun _ _ => h.operand.bind fun e he => .pure (.unary he)
  · exact next_gives.bind fun _ _ => h.operand.bind fun e he => .pure (.await he)
  · exact (primary_fits h).bind fun e he => Gives.get.bind fun s _ => postfixFuel_fits h he _

omit h in
/-- An operator that is taken stands between operands. -/
theorem isInfix_of_infixAtLeast? {min : Nat} {t : Token} {op : Operator}
    (hop : infixAtLeast? min t = some op) : op.isInfix = true := by
  unfold infixAtLeast? at hop
  split at hop
  · split at hop
    · rename_i hcond
      cases hop
      exact (Bool.and_eq_true_iff.1 hcond).1
    · exact nomatch hop
  · exact nomatch hop

omit h in
/-- Operators with their right operands. -/
theorem climbFuel_fits {right : Nat → Parser Node} (hr : ∀ n, Gives R (right n) (·.FitsValue R))
    (min : Nat) {left : Node} (hl : left.FitsValue R) (fuel : Nat) :
    Gives R (climbFuel right min left fuel) (·.FitsValue R) := by
  induction fuel generalizing left with
  | zero => exact failHere_gives _
  | succ fuel ih =>
    refine peek_gives.bind fun t _ => ?_
    -- no operator ends the climb, and an operator is followed by its operand
    split
    · exact .pure hl
    · rename_i op hop
      refine next_gives.bind fun _ _ => (hr _).bind fun r hr' => ?_
      exact ih (.infixNode (isInfix_of_infixAtLeast? hop) hl hr')

/-- A row of them. -/
theorem climb_fits (levels min : Nat) : Gives R (climb inner levels min) (·.FitsValue R) := by
  induction levels generalizing min with
  | zero => exact unary_fits h
  | succ levels ih =>
    exact (unary_fits h).bind fun left hl => Gives.get.bind fun s _ => climbFuel_fits ih min hl _

omit h in
/-- The parameters of an arrow function are some names. -/
theorem lambdaParams?_gives : Gives R lambdaParams? fun _ => True := by
  refine Gives.get.bind fun tokens _ => peek_gives.bind fun t _ => (peekAt_gives 1).bind fun k _ => ?_
  split
  · exact (expectIdentifier_gives _).bind fun _ _ => .pure trivial
  · split
    · exact params_gives.bind fun _ _ => .pure trivial
    · exact .pure trivial

/-- An expression with some fuel. -/
theorem assignmentFuel_fits (fuel : Nat) :
    Gives R (assignmentFuel inner fuel) (·.FitsValue R) := by
  induction fuel with
  | zero => exact failHere_gives _
  | succ fuel ih =>
    refine peek_gives.bind fun start _ => lambdaParams?_gives.bind fun params _ => ?_
    cases params with
    | some params =>
      refine (expect_gives _ _).bind fun _ _ => (check_gives _).bind fun isBlock _ => ?_
      have hlambda (body : FunctionBody Node)
          (hb : (Node.lambda ⟨none, params, body, false, start.pos⟩).FitsValue R) :
          Gives R (pure (Node.lambda ⟨none, params, body, false, start.pos⟩))
            fun n => n.FitsValue R := .pure hb
      cases isBlock with
      | true =>
        refine ((blockItems_fits h).mapped ?_).bind hlambda
        exact fun stmts hstmts => .lambda rfl ⟨stmts, rfl, hstmts⟩
      | false => exact (ih.mapped fun e he => .shortLambda he).bind hlambda
    | none =>
      refine (climb_fits h 7 2).bind fun e he => peek_gives.bind fun t _ => ?_
      refine (accept_gives _).bind fun isAssignment _ => ?_
      cases isAssignment with
      | false => exact .pure he
      | true =>
        -- what stands before `=` is looked at only then
        show Gives R (if isTarget e = true then _ else _) _
        split
        · rename_i htarget
          exact ih.bind fun v hv => .pure (.assign he htarget hv)
        · exact .fail _ _

/-- An expression. -/
theorem assignment_fits : Gives R (assignment inner) (·.FitsValue R) :=
  Gives.get.bind fun _ _ => assignmentFuel_fits h _

/-! ## Statements -/

/-- A declaration. -/
theorem declaration_fits (constant : Bool) :
    Gives R (declaration inner constant) (·.Fits R) := by
  refine next_gives.bind fun t _ => (expectIdentifier_gives _).bind fun name _ => ?_
  refine (accept_gives _).bind fun initialised _ => ?_
  -- a constant without a value is refused
  cases initialised with
  | true =>
    refine h.expression.bind fun v hv => .pure (.declare (fun _ => rfl) fun w hw => ?_)
    exact Option.some.inj hw ▸ hv
  | false =>
    cases constant with
    | true => exact failHere_gives _
    | false => exact .pure (.declare nofun nofun)

/-- A method, which has a name. -/
theorem method_fits : Gives R (method inner) fun d => d.name.isSome = true ∧ d.Fits R := by
  refine (accept_gives _).bind fun isAsync _ => (functionDef_fits h true isAsync).bind fun d hd => ?_
  exact (accept_gives _).bind fun _ _ => .pure hd

/-- A class. -/
theorem classDecl_fits : Gives R (classDecl inner) (·.Fits R) := by
  refine next_gives.bind fun t _ => (expectIdentifier_gives _).bind fun name _ => ?_
  refine (accept_gives _).bind fun extends? _ => ?_
  -- the body follows the name of the parent, if there is one
  have hrest (parent : Option String) : Gives R (do
      let _ ← expectDelim .braceOpen "Expected '\x7b' to start class body"
      let methods ← repeatWhile (do return !(← checkDelim .braceClose) && !(← atEnd)) (method inner)
      let _ ← expectDelim .braceClose "Expected '\x7d' after class body"
      return Node.classDecl name parent methods t.pos) (·.Fits R) := by
    refine (expect_gives _ _).bind fun _ _ => ?_
    refine (repeatWhile_gives ?_ (method_fits h)).bind fun methods hm => ?_
    · exact (check_gives _).bind fun _ _ => atEnd_gives.bind fun _ _ => .pure trivial
    · exact (expect_gives _ _).bind fun _ _ => .pure (.classDecl hm)
  cases extends? with
  | true =>
    exact ((expectIdentifier_gives _).mapped (r := fun _ => True) fun _ _ => trivial).bind
      fun p _ => hrest p
  | false => exact hrest none

/-- A condition. -/
theorem conditionalFuel_fits (fuel : Nat) :
    Gives R (conditionalFuel inner fuel) fun n => n.Fits R ∧ n.isConditional = true := by
  induction fuel with
  | zero => exact failHere_gives _
  | succ fuel ih =>
    refine next_gives.bind fun _ _ => h.expression.bind fun c hc => ?_
    refine (block_fits h).bind fun t ht => (accept_gives _).bind fun hasElse _ => ?_
    cases hasElse with
    | false => exact .pure ⟨.ifElse hc ht.1 ht.2 nofun, rfl⟩
    | true =>
      -- behind `else` stands a block or another conditional
      have hnode (e : Node) (he : e.Fits R ∧ (e.isBlock || e.isConditional) = true) :
          (Node.ifElse c t (some e)).Fits R :=
        .ifElse hc ht.1 ht.2 fun n hn => Option.some.inj hn ▸ he
      refine (check_gives _).bind fun chained _ => ?_
      cases chained with
      | true =>
        refine ih.bind fun e he => .pure ⟨hnode e ⟨he.1, ?_⟩, rfl⟩
        rw [he.2, Bool.or_true]
      | false =>
        refine (block_fits h).bind fun e he => .pure ⟨hnode e ⟨he.1, ?_⟩, rfl⟩
        rw [he.2, Bool.true_or]

/-- A loop over items or an endless one. -/
theorem forLoop_fits : Gives R (forLoop inner) (·.Fits R) := by
  refine next_gives.bind fun _ _ => (check_gives _).bind fun b₁ _ => ?_
  refine (peekAt_gives 1).bind fun k₁ _ => (peekAt_gives 2).bind fun k₂ _ => ?_
  -- the parentheses are opened and closed by one and the same test
  generalize (b₁ && k₁.isIdentifier && k₂.isKeyword .inKw) = parenthesized
  have hbody (var : String) (i : Node) (hi : i.FitsValue R) :
      Gives R (do return Node.forEach var i (← block inner)) fun n => n.Fits R :=
    (block_fits h).bind fun b hb => .pure (.forEach hi hb.1 hb.2)
  cases parenthesized with
  | true =>
    refine next_gives.bind fun _ _ => (expectIdentifier_gives _).bind fun var _ => ?_
    refine (expect_gives _ _).bind fun _ _ => h.expression.bind fun i hi => ?_
    exact (expect_gives _ _).bind fun _ _ => hbody var i hi
  | false =>
    refine (expectIdentifier_gives _).bind fun var _ => (expect_gives _ _).bind fun _ _ => ?_
    exact h.expression.bind fun i hi => hbody var i hi

omit h in
/-- The name of a caught failure is some name. -/
theorem catchName_gives : Gives R catchName fun _ => True := by
  refine (accept_gives _).bind fun parenthesized _ => ?_
  cases parenthesized with
  | true =>
    exact (expectIdentifier_gives _).bind fun _ _ => (expect_gives _ _).bind fun _ _ => .pure trivial
  | false =>
    refine peek_gives.bind fun t _ => ?_
    split
    · exact next_gives.bind fun _ _ => .pure trivial
    · exact .pure trivial

/-- A try statement. -/
theorem tryStatement_fits : Gives R (tryStatement inner) (·.Fits R) := by
  refine next_gives.bind fun _ _ => (block_fits h).bind fun b hb => (expect_gives _ _).bind fun _ _ => ?_
  refine catchName_gives.bind fun name _ => (block_fits h).bind fun handler hh => ?_
  exact .pure (.tryCatch hb.1 hb.2 hh.1 hh.2)

/-- A print statement. -/
theorem print_fits : Gives R (print inner) (·.Fits R) := by
  refine next_gives.bind fun _ _ => (accept_gives _).bind fun parenthesized _ => ?_
  cases parenthesized with
  | true => exact (arguments_fits h).bind fun args ha => .pure (.print ha)
  | false => exact h.expression.bind fun e he => .pure (.print (List.forall_mem_singleton.2 he))

/-- The cases of a switch. -/
theorem switchFuel_fits {cases : List (SwitchCase Node)} {default : Option (List Node)}
    (hc : ∀ k ∈ cases, k.value.FitsValue R ∧ ∀ n ∈ k.body, n.Fits R)
    (hd : ∀ stmts ∈ default, ∀ n ∈ stmts, n.Fits R) (fuel : Nat) :
    Gives R (switchFuel inner cases default fuel) fun p =>
      (∀ k ∈ p.1, k.value.FitsValue R ∧ ∀ n ∈ k.body, n.Fits R) ∧
        ∀ stmts ∈ p.2, ∀ n ∈ stmts, n.Fits R := by
  -- the cases that are read so far fit, and so does the default if there is one
  induction fuel generalizing cases default with
  | zero => exact failHere_gives _
  | succ fuel ih =>
    refine (check_gives _).bind fun closing _ => atEnd_gives.bind fun ended _ => ?_
    split
    · exact .pure ⟨fun k hk => hc k (List.mem_reverse.1 hk), hd⟩
    · refine (accept_gives _).bind fun isCase _ => ?_
      cases isCase with
      | true =>
        refine h.expression.bind fun v hv => (accept_gives _).bind fun _ _ => ?_
        refine (blockItems_fits h).bind fun body hbody => ih ?_ hd
        exact List.forall_mem_cons.2 ⟨⟨hv, hbody⟩, hc⟩
      | false =>
        refine (accept_gives _).bind fun isDefault _ => ?_
        cases isDefault with
        | false => exact failHere_gives _
        | true =>
          show Gives R (if default.isSome = true then _ else _) _
          split
          · exact failHere_gives _
          · refine (accept_gives _).bind fun _ _ => (blockItems_fits h).bind fun body hbody => ?_
            exact ih hc fun stmts hs => Option.some.inj hs ▸ hbody

/-- A switch. -/
theorem switchStatement_fits : Gives R (switchStatement inner) (·.Fits R) := by
  refine next_gives.bind fun _ _ => h.expression.bind fun s hs => (expect_gives _ _).bind fun _ _ => ?_
  refine Gives.get.bind fun ts _ => ?_
  have hnone : ∀ stmts ∈ (none : Option (List Node)), ∀ n ∈ stmts, n.Fits R := nofun
  refine (switchFuel_fits h (fun _ hk => absurd hk List.not_mem_nil) hnone _).bind fun p hp => ?_
  exact (expect_gives _ _).bind fun _ _ => .pure (.switch hs hp.1 hp.2)

/-- A return. -/
theorem returnStatement_fits : Gives R (returnStatement inner) (·.Fits R) := by
  refine next_gives.bind fun _ _ => Gives.bind (q := fun _ => True) ?_ fun ended _ => ?_
  · exact atEnd_gives.bind fun _ _ => (check_gives _).bind fun _ _ => (check_gives _).bind fun _ _ =>
      .pure trivial
  · cases ended with
    | true => exact .pure (.returnValue (fun _ hv => nomatch hv))
    | false =>
      refine h.expression.bind fun v hv => .pure (.returnValue fun w hw => ?_)
      exact Option.some.inj hw ▸ hv

/-- A statement without its semicolon. -/
theorem bareStatement_fits : Gives R (bareStatement inner) (·.Fits R) := by
  have hexpression : Gives R inner.expression (·.Fits R) := h.expression.mono fun _ hn => hn.toFits
  have hsingle (n : Node) (hn : n.Fits R) : Gives R (single n) (·.Fits R) :=
    next_gives.bind fun _ _ => .pure hn
  have hfunction (isAsync : Bool) :
      Gives R (do return Node.function (← functionDef inner true isAsync)) fun n => n.Fits R :=
    (functionDef_fits h true isAsync).bind fun d hd => .pure (.function hd.1 hd.2)
  refine peek_gives.bind fun t _ => ?_
  -- one case for each word that a statement can begin with
  split
  · exact declaration_fits h false
  · exact declaration_fits h true
  · exact classDecl_fits h
  · exact Gives.get.bind fun _ _ => (conditionalFuel_fits h _).mono fun _ hn => hn.1
  · refine next_gives.bind fun _ _ => h.expression.bind fun c hc => (block_fits h).bind fun b hb => ?_
    exact .pure (.whileLoop hc hb.1 hb.2)
  · exact next_gives.bind fun _ _ => (block_fits h).bind fun b hb => .pure (.loop hb.1 hb.2)
  · exact forLoop_fits h
  · exact tryStatement_fits h
  · exact returnStatement_fits h
  · exact next_gives.bind fun _ _ => h.expression.bind fun v hv => .pure (.yieldValue hv)
  · exact print_fits h
  · exact next_gives.bind fun _ _ => (expectIdentifier_gives _).bind fun _ _ =>
      .pure (.leaf rfl rfl nofun)
  · exact hsingle _ (.leaf rfl rfl nofun)
  · exact hsingle _ (.leaf rfl rfl nofun)
  · exact hsingle _ (.leaf rfl rfl nofun)
  · exact switchStatement_fits h
  · refine (peekAt_gives 1).bind fun k _ => ?_
    split
    · exact hfunction false
    · exact hexpression
  · refine (peekAt_gives 1).bind fun k₁ _ => (peekAt_gives 2).bind fun k₂ _ => ?_
    split
    · exact next_gives.bind fun _ _ => hfunction true
    · exact hexpression
  · refine Gives.get.bind fun s _ => ?_
    split
    · exact hexpression
    · exact (block_fits h).mono fun _ hn => hn.1
  · exact hexpression

/-- A statement. -/
theorem statement_fits : Gives R (Parser.statement inner) (·.Fits R) :=
  (bareStatement_fits h).bind fun _ hn => (accept_gives _).bind fun _ _ => .pure hn

end

/-! ## Levels and programs -/

/-- The parsers of every level give nodes that fit. -/
theorem Level.at_fits (depth : Nat) : (Level.at depth).Fits R := by
  induction depth with
  | zero => exact ⟨failHere_gives _, failHere_gives _, failHere_gives _⟩
  | succ depth ih => exact ⟨statement_fits ih, assignment_fits ih, unary_fits ih⟩

/-- Leaving comments out adds no text. -/
theorem texts_prepare {tokens : List Token} (h : Texts R tokens) : Texts R (prepare tokens) := by
  have hkept : Texts R (tokens.filter (!·.kind.isComment)) :=
    fun t ht => h t (List.mem_filter.1 ht).1
  unfold prepare
  dsimp only
  split
  · -- an end of input that is put at the end is no text
    split
    · exact hkept
    · intro t ht s hs
      rcases List.mem_append.1 ht with ht | ht
      · exact hkept t ht s hs
      · obtain rfl := List.mem_singleton.1 ht
        exact nomatch hs
  · intro t ht s hs
    obtain rfl := List.mem_singleton.1 ht
    exact nomatch hs

end Parser

variable {R : String → Prop}

/-- The statements of a parsed program fit. -/
theorem parse_fits {tokens : List Token} {program : Node} (h : parse tokens = .ok program)
    (ht : Parser.Texts R tokens) :
    ∃ items, program = .program items ∧ ∀ n ∈ items, n.Fits R := by
  unfold parse at h
  cases hr : Parser.program.run (Parser.prepare tokens) with
  | error e =>
    rw [hr] at h
    exact nomatch h
  | ok r =>
    rw [hr] at h
    obtain rfl : r.1 = program := Except.ok.inj h
    -- a program is a row of statements up to the end
    have hgives : Parser.Gives R Parser.program fun n =>
        ∃ items, n = .program items ∧ ∀ n ∈ items, n.Fits R :=
      (Parser.repeatWhile_gives (Parser.atEnd_gives.bind fun _ _ => .pure trivial)
        (Parser.Level.at_fits _).statement).bind fun items hitems => .pure ⟨items, rfl, hitems⟩
    exact (hgives _ (Parser.texts_prepare ht) r.1 r.2 hr).2

/-- A parsed tree is a program of well-formed statements. -/
theorem parse_isProgram {tokens : List Token} {program : Node} (h : parse tokens = .ok program) :
    program.isProgram = true := by
  obtain ⟨items, rfl, hitems⟩ := parse_fits (R := fun _ => True) h fun _ _ _ _ => trivial
  exact statementsWellFormed_of_fits hitems

/-- A source that is parsed is tokenized first. -/
theorem parse_of_parseSource {lenient : Bool} {source : String} {program : Node}
    (h : parseSource lenient source = .ok program) :
    ∃ tokens, tokenize lenient source = .ok tokens ∧ parse tokens = .ok program := by
  unfold parseSource at h
  cases htokens : tokenize lenient source with
  | error e =>
    rw [htokens] at h
    cases h
  | ok tokens =>
    rw [htokens] at h
    dsimp only at h
    cases hparse : parse tokens with
    | error e =>
      rw [hparse] at h
      cases h
    | ok node =>
      rw [hparse] at h
      cases h
      exact ⟨tokens, rfl, hparse⟩

/-- Its result is a well-formed program. -/
theorem parseSource_isProgram {lenient : Bool} {source : String} {program : Node}
    (h : parseSource lenient source = .ok program) : program.isProgram = true := by
  obtain ⟨tokens, -, hparse⟩ := parse_of_parseSource h
  exact parse_isProgram hparse

end BrailleScript
