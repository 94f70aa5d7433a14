import BrailleScript.Proofs.Node.Takes

/-!
# Levels that read what is written

The parser goes down one level for each nested construct, and a `Level` holds the parsers of the
next one.  `Level.Reads inner depth` says that these parsers give back every expression, operand and
statement whose written form needs at most `depth` levels.  The grammar is then gone through once,
with `inner.Reads depth` as the only hypothesis about what lies further in.

## Key results

- `looksLikeLambda_group`, `lambdaParams?_takes`: a parenthesised expression is never taken for the
  parameters of a lambda, and the parameters of a lambda always are
- `blockItems_takes`, `params_takes`, `functionDef_takes`: the parts that expressions and statements
  share
-/

namespace BrailleScript.Parser

open TokenKind

/-! ## What may follow -/

/-- What may follow an operand: no call, member or index. -/
def endsOperand : TokenKind → Bool
  | .delimiter .parenOpen | .delimiter .bracketOpen | .operator .dot => false
  | _ => true

/-- What may follow operands with operators between them: no further operator either. -/
def endsOperators : TokenKind → Bool
  | .delimiter .parenOpen | .delimiter .bracketOpen | .operator .dot => false
  | .operator o => !o.isInfix
  | _ => true

/-- What may follow a whole expression: no assignment and no arrow either. -/
def endsExpression : TokenKind → Bool
  | .delimiter .parenOpen | .delimiter .bracketOpen | .operator _ => false
  | _ => true

/-- What ends a row of operators ends an operand. -/
theorem endsOperand_of_endsOperators {k : TokenKind} (h : endsOperators k = true) :
    endsOperand k = true := by
  unfold endsOperand
  split <;> first | rfl | cases h

/-- What ends an operand opens no call, member or item. -/
theorem not_postfix_of_endsOperand {k : TokenKind} (h : endsOperand k = true) :
    k.isDelimiter .parenOpen = false ∧ k.isOperator .dot = false ∧
      k.isDelimiter .bracketOpen = false := by
  cases k with
  | delimiter d => cases d <;> first | exact ⟨rfl, rfl, rfl⟩ | cases h
  | operator o => cases o <;> first | exact ⟨rfl, rfl, rfl⟩ | cases h
  | _ => exact ⟨rfl, rfl, rfl⟩

/-- What ends a row of operators is none of them. -/
theorem not_infix_of_endsOperators {o : Operator} (h : endsOperators (.operator o) = true) :
    o.isInfix = false := by
  cases o <;> first | rfl | cases h

/-- What ends an expression ends a row of operators. -/
theorem endsOperators_of_endsExpression {k : TokenKind} (h : endsExpression k = true) :
    endsOperators k = true := by
  unfold endsOperators
  split <;> first | rfl | cases h

/-- It is no operator at all. -/
theorem not_operator_of_endsExpression {k : TokenKind} (h : endsExpression k = true)
    (o : Operator) : k.isOperator o = false := by
  cases k with
  | operator o' => cases h
  | _ => rfl

/-- A delimiter is of one kind. -/
theorem eq_of_isDelimiter {k : TokenKind} {d : Delimiter} (h : k.isDelimiter d = true) :
    k = .delimiter d := by
  cases k with
  | delimiter d' => rw [eq_of_beq h]
  | _ => cases h

/-- What ends the statements of a block. -/
def endsBlock (k : TokenKind) : Bool :=
  k.isDelimiter .braceClose || k.isEndOfInput

/-! ## Reading -/

/-- The parsers of the level give back what is written within `depth` levels. -/
structure Level.Reads (inner : Level) (depth : Nat) : Prop where
  expression : ∀ e : Node, e.IsTerm → e.levels ≤ depth →
    Takes inner.expression e.tokens endsExpression fun x => x.erasePos = e.erasePos
  grouped : ∀ e : Node, e.IsTerm → 1 + e.levels ≤ depth →
    Takes inner.expression (parenthesized e.tokens) endsExpression
      fun x => x.erasePos = e.erasePos
  operand : ∀ e : Node, e.IsTerm → 1 + e.levels ≤ depth →
    Takes inner.operand (parenthesized e.tokens) endsOperand fun x => x.erasePos = e.erasePos
  statement : ∀ s : Node, s.wellFormed = true → s.asStatementLevels s.levels ≤ depth →
    Takes inner.statement (s.asStatement s.tokens) anyKind fun x => x.erasePos = s.erasePos

/-! ## Lookahead for lambdas -/

/-- Whether `name (, name)* ) =>` follows depends on the kinds of the tokens only. -/
theorem namesThenArrow_params {params : List String} (hne : params ≠ []) {ts rest : List Token}
    (hts : ts.map (·.kind) =
      separated (params.map fun p => [.identifier p]) ++ [.delimiter .parenClose])
    (hrest : (headKind rest).isOperator .arrow = true) : namesThenArrow (ts ++ rest) = true := by
  induction params generalizing ts with
  | nil => exact absurd rfl hne
  | cons p params ih =>
    -- the last name stands before `)`, the others before `,`
    cases params with
    | nil =>
      obtain ⟨t, us, rfl, ht, hus⟩ := List.map_eq_cons_iff.mp hts
      obtain ⟨u, rfl, hu⟩ := List.map_eq_singleton_iff.mp hus
      cases rest with
      | nil => cases hrest
      | cons v rest =>
        simp only [List.cons_append, List.nil_append, namesThenArrow, ht, hu]
        exact hrest
    | cons p' params =>
      obtain ⟨t, us, rfl, ht, hus⟩ := List.map_eq_cons_iff.mp hts
      obtain ⟨u, vs, rfl, hu, hvs⟩ := List.map_eq_cons_iff.mp hus
      simp only [List.cons_append, namesThenArrow, ht, hu]
      exact ih (List.cons_ne_nil _ _) hvs

/-- Parameters in front of an arrow look like those of a function. -/
theorem looksLikeLambda_params (params : List String) {ts rest : List Token}
    (hts : ts.map (·.kind) = ofParams params)
    (hrest : (headKind rest).isOperator .arrow = true) : looksLikeLambda (ts ++ rest) = true := by
  obtain ⟨t, us, rfl, ht, hus⟩ := List.map_eq_cons_iff.mp hts
  -- without parameters the parentheses are empty
  cases params with
  | nil =>
    obtain ⟨u, rfl, hu⟩ := List.map_eq_singleton_iff.mp hus
    cases rest with
    | nil => cases hrest
    | cons v rest =>
      simp only [List.cons_append, List.nil_append, looksLikeLambda, ht, hu]
      exact hrest
  | cons p params =>
    have hnames := namesThenArrow_params (List.cons_ne_nil p params) hus hrest
    obtain ⟨ks, hks⟩ := separated_cons (.identifier p) [] (params.map fun p => [.identifier p])
    rw [List.map_cons, hks] at hus
    obtain ⟨u, vs, rfl, hu, -⟩ := List.map_eq_cons_iff.mp hus
    simp only [List.cons_append, looksLikeLambda, ht, hu]
    exact hnames

/-- A parenthesised expression is no parameter list if no arrow follows. -/
theorem looksLikeLambda_group {e : Node} (he : e.IsTerm) {ts rest : List Token}
    (hts : ts.map (·.kind) = parenthesized e.tokens)
    (hrest : (headKind rest).isOperator .arrow = false) : looksLikeLambda (ts ++ rest) = false := by
  obtain ⟨t, us, rfl, ht, hus⟩ := List.map_eq_cons_iff.mp hts
  -- `(x)` alone could be parameters, and there only the arrow is missing; any other expression
  -- begins with a token that no parameter list begins with
  rcases Node.tokens_of_isExpression he.1 with ⟨name, hname⟩ | ⟨k, ks, hks, hid, hclose⟩
  · rw [hname] at hus
    obtain ⟨u, vs, rfl, hu, hvs⟩ := List.map_eq_cons_iff.mp hus
    obtain ⟨v, rfl, hv⟩ := List.map_eq_singleton_iff.mp hvs
    simp only [List.cons_append, List.nil_append, looksLikeLambda, namesThenArrow, ht, hu, hv]
    cases rest with
    | nil => rfl
    | cons w rest => exact hrest
  · rw [hks] at hus
    obtain ⟨u, vs, rfl, hu, -⟩ := List.map_eq_cons_iff.mp hus
    simp only [List.cons_append, looksLikeLambda, ht, hu, hclose, Bool.false_eq_true, ↓reduceIte]
    cases hvs : vs ++ rest with
    | nil => rfl
    | cons v vs' => simp only [namesThenArrow, hu, hid, Bool.false_and, Bool.and_false]

/-! ## Parameters, blocks and definitions -/

/-- A list of parameters is read back. -/
theorem params_takes (ps : List String) : Takes params (ofParams ps) anyKind (· = ps) := by
  refine Takes.token (expectDelim_takes _ _) fun _ _ => ?_
  have hname : ∀ p ∈ ps, Takes (expectIdentifier "Expected parameter name") [.identifier p]
      anyKind (· = p) := fun p _ => expectIdentifier_takes p _
  refine Takes.imp (listUntil_takes _ hname (fun _ _ => ⟨_, _, rfl, rfl⟩) rfl rfl (by decide))
    fun xs hxs => ?_
  rwa [List.map_id', List.map_id'] at hxs

/-- So is that of an arrow function. -/
theorem lambdaParams?_takes (ps : List String) :
    Takes lambdaParams? (ofParams ps) (·.isOperator .arrow) (· = some ps) := by
  refine Takes.look (q := fun tokens => looksLikeLambda tokens = true)
    (fun ts rest hts hrest => ⟨_, rfl, looksLikeLambda_params ps hts hrest⟩) fun tokens hl => ?_
  refine Takes.peekCons fun t ht => ?_
  -- the second token only matters for a single name without parentheses
  refine Takes.look (q := fun _ => True)
    (fun ts rest _ _ => ⟨_, run_peekAt 1 _, trivial⟩) fun k _ => ?_
  rw [ht, hl]
  refine Takes.result ((params_takes ps).before fun _ _ => rfl) fun x hx => ?_
  rw [hx]

/-- No lambda starts with the tokens. -/
def NoLambda (ks : List TokenKind) : Prop :=
  ∀ ts rest : List Token, ts.map (·.kind) = ks → endsExpression (headKind rest) = true →
    lambdaParams?.run (ts ++ rest) = .ok (none, ts ++ rest)

/-- Where nothing looks like parameters, none are taken. -/
theorem run_lambdaParams?_none {s : List Token}
    (hname : ((headKind s).isIdentifier && (headKind (s.drop 1)).isOperator .arrow) = false)
    (hparams : looksLikeLambda s = false) : lambdaParams?.run s = .ok (none, s) := by
  obtain ⟨t, ht, hk⟩ := run_peek s
  rw [lambdaParams?, run_bind_ok (run_get s), run_bind_ok ht, run_bind_ok (run_peekAt 1 s), hk, hname,
    hparams]
  rfl

/-- Only names and round brackets begin a lambda. -/
theorem noLambda_of_head {k : TokenKind} {ks : List TokenKind} (hid : k.isIdentifier = false)
    (hopen : k.isDelimiter .parenOpen = false) : NoLambda (k :: ks) := by
  intro ts rest hts _
  obtain ⟨t, us, rfl, ht, -⟩ := List.map_eq_cons_iff.mp hts
  -- neither a name in front of an arrow nor names in parentheses
  refine run_lambdaParams?_none ?_ ?_
  · show (t.kind.isIdentifier && _) = false
    rw [ht, hid, Bool.false_and]
  · rw [List.cons_append]
    cases us ++ rest with
    | nil => rfl
    | cons u vs => rw [looksLikeLambda, ht, hopen, Bool.false_and]

/-- A name alone does not. -/
theorem noLambda_identifier (name : String) : NoLambda [.identifier name] := by
  intro ts rest hts hrest
  obtain ⟨t, rfl, ht⟩ := List.map_eq_singleton_iff.mp hts
  refine run_lambdaParams?_none ?_ ?_
  · show (t.kind.isIdentifier && (headKind rest).isOperator .arrow) = false
    rw [not_operator_of_endsExpression hrest, Bool.and_false]
  · rw [List.singleton_append]
    cases rest with
    | nil => rfl
    | cons u vs => rw [looksLikeLambda, ht]; rfl

/-- Nor does a term in brackets without an arrow behind it. -/
theorem noLambda_group {e : Node} (he : e.IsTerm) {ks : List TokenKind}
    (hks : ∀ k, endsExpression k = true → (ks.headD k).isOperator .arrow = false) :
    NoLambda (parenthesized e.tokens ++ ks) := by
  intro ts rest hts hrest
  obtain ⟨us, vs, rfl, hus, hvs⟩ := List.map_eq_append_iff.mp hts
  -- behind the group stands no arrow
  have hnext : (headKind (vs ++ rest)).isOperator .arrow = false := by
    rw [headKind_append, hvs]
    exact hks _ hrest
  rw [List.append_assoc]
  refine run_lambdaParams?_none ?_ (looksLikeLambda_group he hus hnext)
  rw [headKind_append, hus]
  rfl

section

variable {inner : Level} {depth : Nat}

/-- The items of a block go on until its end. -/
theorem run_moreItems (s : List Token) :
    StateT.run (do return !(← checkDelim .braceClose) && !(← atEnd) : Parser Bool) s
      = .ok (!endsBlock (headKind s), s) := by
  have hclose : (checkDelim .braceClose).run s = .ok (_, s) := run_check _ s
  rw [run_bind_ok hclose, run_bind_ok (run_atEnd s), endsBlock, Bool.not_or]
  rfl

/-- The items of a block are read back. -/
theorem blockItems_takes (h : inner.Reads depth) {items : List Node}
    (hw : statementsWellFormed items = true) (hl : statementLevels items ≤ depth) :
    Takes (blockItems inner) (braced (statementTokens items)) anyKind
      fun xs => eraseAll xs = eraseAll items := by
  refine Takes.token (expectDelim_takes _ _) fun _ _ => ?_
  rw [statementTokens_eq_flatMap]
  -- each item is read back at its own level
  have hitem : ∀ s ∈ items, Takes inner.statement (s.asStatement s.tokens) anyKind
      fun x => x.erasePos = s.erasePos := by
    intro s hs
    exact h.statement s (statementsWellFormed_mem hw hs)
      (Nat.le_trans (asStatementLevels_le_of_mem hs) hl)
  -- no item begins with what ends a block
  have hhead : ∀ s ∈ items, ∃ k ks, s.asStatement s.tokens = k :: ks ∧ endsBlock k = false ∧
      anyKind k = true := by
    intro s hs
    obtain ⟨k, ks, hks, hk⟩ := Node.asStatement_head (statementsWellFormed_mem hw hs)
    refine ⟨k, ks, hks, ?_, rfl⟩
    rcases hk with ⟨w, rfl⟩ | rfl | rfl <;> rfl
  refine (repeatWhile_takes run_moreItems hitem hhead fun _ _ => rfl).bind (fun _ _ => rfl)
    fun xs hxs => ?_
  refine (expectDelim_takes _ _).result fun _ _ => ?_
  rw [eraseAll_eq_map, eraseAll_eq_map, hxs]

/-- So is a block. -/
theorem block_takes (h : inner.Reads depth) {items : List Node}
    (hw : statementsWellFormed items = true) (hl : statementLevels items ≤ depth) :
    Takes (block inner) (Node.block items).tokens anyKind
      fun x => x.erasePos = (Node.block items).erasePos := by
  rw [Node.tokens]
  refine (blockItems_takes h hw hl).result fun xs hxs => ?_
  rw [Node.erasePos, Node.erasePos, hxs]

/-- A definition from `fn` on, with its name or without one. -/
theorem functionDef_takes (h : inner.Reads depth) (name : Option String) (ps : List String)
    (isAsync : Bool) {items : List Node} (hw : statementsWellFormed items = true)
    (hl : statementLevels items ≤ depth) :
    Takes (functionDef inner name.isSome isAsync)
      (.keyword .fnKw :: ((name.toList.map .identifier) ++
        (ofParams ps ++ braced (statementTokens items)))) anyKind
      fun d => d.erasePos = FunctionDef.erasePos ⟨name, ps, .block items, isAsync, .nowhere⟩ := by
  refine Takes.token (expectKeyword_takes _ _) fun start _ => ?_
  -- from the parameters on, both forms of the definition are read alike
  have hrest : ∀ name' : Option String, name' = name →
      Takes (do
          let params ← params
          let body ← blockItems inner
          return { name := name', params, body := .block body, isAsync, pos := start.pos })
        (ofParams ps ++ braced (statementTokens items)) anyKind
        fun d : FunctionDef Node =>
          d.erasePos = FunctionDef.erasePos ⟨name, ps, .block items, isAsync, .nowhere⟩ := by
    rintro _ rfl
    refine (params_takes ps).bind (fun _ _ => rfl) fun ps' hps => ?_
    refine (blockItems_takes h hw hl).result fun xs hxs => ?_
    rw [FunctionDef.erasePos, FunctionDef.erasePos, eraseBody, eraseBody, hxs, hps]
  cases name with
  | none => exact hrest none rfl
  | some f =>
    refine Takes.token ((expectIdentifier_takes f _).mapped fun x hx => ?_) hrest
    rw [hx]

end

end BrailleScript.Parser
