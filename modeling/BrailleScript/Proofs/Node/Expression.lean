import BrailleScript.Proofs.Node.Reads

/-!
# Reading expressions

Every expression is given back by the parser for expressions, one level above a level that reads
what is written (`Level.Reads`).  A written expression has at most one operator, call or member on
its own level, since its operands stand in parentheses; so each form goes through the layers of the
grammar (`primary`, `unary`, `operators`, `assignment`) up to its own, and then through the others
unchanged.

## Key results

- `primary_group`: a parenthesised expression is given back by every layer
- `unary_of_primary`, `climb_of_unary`, `assignmentFuel_of_operators`: the layers that add nothing
- `assignment_takes`: every expression is given back
-/

namespace BrailleScript.Parser

open TokenKind

variable {inner : Level} {depth : Nat} {k : TokenKind} {ks ks₁ ks₂ : List TokenKind}
variable {post : Node → Prop}

/-! ## The layers of the grammar -/

/-- The kinds that are unary operators. -/
def startsUnary : TokenKind → Bool
  | .operator .bang | .operator .minus | .keyword .awaitKw => true
  | _ => false

/-- Nothing more is taken behind an operand that ends. -/
theorem postfixFuel_done (e : Node) (fuel : Nat) :
    Takes (postfixFuel inner e (fuel + 1)) [] endsOperand (· = e) := by
  refine Takes.peekAny fun t => ?_
  refine Takes.acceptNot (fun k hk => (not_postfix_of_endsOperand hk).1) ?_
  refine Takes.acceptNot (fun k hk => (not_postfix_of_endsOperand hk).2.1) ?_
  refine Takes.acceptNot (fun k hk => (not_postfix_of_endsOperand hk).2.2) ?_
  exact Takes.done rfl

/-- An operand is a primary expression with calls, members and indices behind it. -/
theorem unary_of_suffix {q : Node → Prop} (hk : startsUnary k = false)
    (hp : Takes (primary inner) (k :: ks₁) anyKind q)
    (hpost : ∀ e, q e → ∀ fuel, ks₂.length < fuel →
      Takes (postfixFuel inner e fuel) ks₂ endsOperand post) :
    Takes (unary inner) (k :: ks₁ ++ ks₂) endsOperand post := by
  -- the primary is read first, and then what stands behind it
  have hpostfixed : Takes (postfixed inner) (k :: ks₁ ++ ks₂) endsOperand post := by
    refine hp.bind (fun _ _ => rfl) fun e he => ?_
    exact Takes.fuel fun s hs => hpost e he (s.length + 1) (by omega)
  refine Takes.peekCons fun t ht => ?_
  rw [ht]
  split
  · cases hk
  · cases hk
  · cases hk
  · exact hpostfixed

/-- A primary that begins with no operator is an operand. -/
theorem unary_of_primary (hk : startsUnary k = false)
    (hp : Takes (primary inner) (k :: ks) anyKind post) :
    Takes (unary inner) (k :: ks) endsOperand post := by
  have h : Takes (unary inner) (k :: ks ++ []) endsOperand post := by
    refine unary_of_suffix hk hp fun e he fuel hfuel => ?_
    rw [List.length_nil] at hfuel
    obtain ⟨fuel, rfl⟩ : ∃ n, fuel = n + 1 := ⟨fuel - 1, by omega⟩
    exact (postfixFuel_done e fuel).imp fun x hx => hx ▸ he
  rwa [List.append_nil] at h

/-- Nothing that may follow is an infix operator, whatever strength is asked for. -/
theorem infixAtLeast?_none {min : Nat} {t : Token} (h : endsOperators t.kind = true) :
    infixAtLeast? min t = none := by
  unfold infixAtLeast?
  split
  · next op hop =>
    rw [hop] at h
    rw [not_infix_of_endsOperators h, Bool.false_and]
    rfl
  · rfl

/-- Nothing more is taken behind operators that end. -/
theorem climbFuel_done (right : Nat → Parser Node) (min : Nat) (left : Node) (fuel : Nat) :
    Takes (climbFuel right min left (fuel + 1)) [] endsOperators (· = left) := by
  refine Takes.peekHead (q := fun k => endsOperators k = true) (fun _ h => h) fun t ht => ?_
  rw [infixAtLeast?_none ht]
  exact Takes.done rfl

/-- An operand alone is a row of operators. -/
theorem climb_of_unary (levels min : Nat) (h : Takes (unary inner) ks endsOperand post) :
    Takes (climb inner levels min) ks endsOperators post := by
  cases levels with
  | zero => exact h.before fun _ => endsOperand_of_endsOperators
  | succ levels =>
    refine h.finish (fun _ => endsOperand_of_endsOperators) fun left hleft => ?_
    refine Takes.fuel fun s _ => ?_
    exact (climbFuel_done _ min left s.length).imp fun x hx => hx ▸ hleft

/-- Such a row is an expression. -/
theorem assignmentFuel_of_operators (fuel : Nat) (hl : NoLambda ks)
    (h : Takes (operators inner) ks endsOperators post) :
    Takes (assignmentFuel inner (fuel + 1)) ks endsExpression post := by
  refine Takes.peekAny fun start => ?_
  -- first lambdas are tried, and an assignment is tried last
  refine Takes.look (q := (· = none)) (fun ts rest hts hrest => ⟨_, hl ts rest hts hrest, rfl⟩) ?_
  rintro _ rfl
  refine h.finish (fun _ => endsOperators_of_endsExpression) fun e he => ?_
  refine Takes.peekAny fun t => ?_
  refine Takes.acceptNot (fun k hk => not_operator_of_endsExpression hk _) ?_
  exact Takes.done he

/-- So is a primary alone. -/
theorem assignmentFuel_of_primary (fuel : Nat) (hk : startsUnary k = false)
    (hl : NoLambda (k :: ks)) (h : Takes (primary inner) (k :: ks) anyKind post) :
    Takes (assignmentFuel inner (fuel + 1)) (k :: ks) endsExpression post :=
  assignmentFuel_of_operators fuel hl (climb_of_unary 7 2 (unary_of_primary hk h))

/-! ## Expressions in parentheses -/

section

variable (h : inner.Reads depth) {e : Node} (he : e.IsTerm) (hle : e.levels ≤ depth)

include h he hle

/-- A term in brackets is a primary. -/
theorem primary_group :
    Takes (primary inner) (parenthesized e.tokens) anyKind fun x => x.erasePos = e.erasePos := by
  refine Takes.peekCons fun t ht => ?_
  rw [ht]
  refine Takes.token (next_takes rfl) fun _ _ => ?_
  refine (h.expression e he hle).bind (fun _ _ => rfl) fun x hx => ?_
  exact (expectDelim_takes _ _).result fun _ _ => hx

/-- It is an operand. -/
theorem unary_group :
    Takes (unary inner) (parenthesized e.tokens) endsOperand fun x => x.erasePos = e.erasePos :=
  unary_of_primary rfl (primary_group h he hle)

/-- It is an expression. -/
theorem assignmentFuel_group (fuel : Nat) :
    Takes (assignmentFuel inner (fuel + 1)) (parenthesized e.tokens) endsExpression
      fun x => x.erasePos = e.erasePos := by
  have hl : NoLambda (parenthesized e.tokens ++ []) :=
    noLambda_group he fun k hk => not_operator_of_endsExpression hk _
  rw [List.append_nil] at hl
  exact assignmentFuel_of_primary fuel rfl hl (primary_group h he hle)

end

/-! ## Arguments and entries -/

/-- Arguments, array items and the like, up to the closing delimiter. -/
theorem expressions_takes (h : inner.Reads depth) {args : List Node}
    (hw : expressionsWellFormed args = true) (hl : expressionLevels args ≤ depth)
    {close : Delimiter} (hclose : endsExpression (.delimiter close) = true)
    (hne : close ≠ .comma) (hopen : close ≠ .parenOpen) (message : String) :
    Takes (listUntil close message inner.expression)
      (separated (expressionTokens args) ++ [.delimiter close]) anyKind
      fun xs => eraseAll xs = eraseAll args := by
  have hitem : ∀ e ∈ args, Takes inner.expression (parenthesized e.tokens) endsExpression
      fun x => x.erasePos = e.erasePos := by
    intro e he
    exact h.grouped e (expressionsWellFormed_mem hw he) (Nat.le_trans (levels_le_of_mem he) hl)
  -- an argument begins with its parenthesis, so the list is not at its end
  have hhead : ∀ e ∈ args, ∃ k ks, parenthesized e.tokens = k :: ks ∧
      k.isDelimiter close = false :=
    fun e _ => ⟨_, _, rfl, beq_eq_false_iff_ne.mpr hopen⟩
  rw [expressionTokens_eq_map]
  refine (listUntil_takes message hitem hhead rfl hclose hne).imp fun xs hxs => ?_
  rw [eraseAll_eq_map, eraseAll_eq_map, hxs]

/-- Arguments are read back. -/
theorem arguments_takes (h : inner.Reads depth) {args : List Node}
    (hw : expressionsWellFormed args = true) (hl : expressionLevels args ≤ depth) :
    Takes (arguments inner) (separated (expressionTokens args) ++ [.delimiter .parenClose])
      anyKind fun xs => eraseAll xs = eraseAll args :=
  expressions_takes h hw hl rfl (by decide) (by decide) _

/-- So is the key of an entry. -/
theorem mapKey_takes (before : Token) {key : Node} (hkey : key.isKey = true) :
    Takes (mapKey before) [ofKey key] anyKind (· = key) := by
  cases key with
  | number x =>
    refine Takes.checkHead false (fun _ _ => rfl) ?_
    refine Takes.token (next_takes rfl) fun t ht => ?_
    simp only [ht, ofKey]
    exact Takes.done rfl
  | text s =>
    refine Takes.checkHead false (fun _ _ => rfl) ?_
    refine Takes.token (next_takes rfl) fun t ht => ?_
    simp only [ht, ofKey]
    exact Takes.done rfl
  | _ => cases hkey

/-- Entries begin with their key, which is no delimiter. -/
theorem separated_pairTokens_cons {pair : Node × Node} {pairs : List (Node × Node)}
    (hw : pairsWellFormed (pair :: pairs) = true) :
    ∃ k ks, separated (pairTokens (pair :: pairs)) = k :: ks ∧
      ∀ d, k.isDelimiter d = false := by
  obtain ⟨key, value⟩ := pair
  simp only [pairsWellFormed, Bool.and_eq_true] at hw
  obtain ⟨ks, hks⟩ := separated_cons (ofKey key)
    (.delimiter .colon :: parenthesized value.tokens) (pairTokens pairs)
  refine ⟨ofKey key, ks, by rw [pairTokens, hks], fun d => ?_⟩
  -- keys are names or numbers
  cases key with
  | number x => rfl
  | text s => rfl
  | _ => cases hw.1.1

/-- So are the entries of a map. -/
theorem mapEntries_takes (h : inner.Reads depth) {pairs : List (Node × Node)} (hne : pairs ≠ [])
    (hw : pairsWellFormed pairs = true) (hl : pairLevels pairs ≤ depth) (before : Token)
    (fuel : Nat) (hfuel : pairs.length ≤ fuel) :
    Takes (mapEntries inner before fuel) (separated (pairTokens pairs))
      (·.isDelimiter .braceClose) fun xs => erasePairs xs = erasePairs pairs := by
  induction pairs generalizing before fuel with
  | nil => exact absurd rfl hne
  | cons pair pairs ih =>
    obtain ⟨key, value⟩ := pair
    rw [List.length_cons] at hfuel
    obtain ⟨fuel, rfl⟩ : ∃ n, fuel = n + 1 := ⟨fuel - 1, by omega⟩
    simp only [pairsWellFormed, Bool.and_eq_true] at hw
    rw [pairLevels] at hl
    obtain ⟨⟨hkey, hvalue⟩, hrest⟩ := hw
    have hgroup := h.grouped value hvalue (by omega)
    -- only behind the last entry is there no comma
    cases pairs with
    | nil =>
      rw [pairTokens, pairTokens, separated]
      refine Takes.token (mapKey_takes before hkey) fun key' hkey' => ?_
      refine Takes.token (expectDelim_takes _ _) fun _ _ => ?_
      refine hgroup.finish (fun k hk => ?_) fun v hv => ?_
      · rw [eq_of_isDelimiter hk]
        rfl
      refine Takes.peekAny fun separator => ?_
      refine Takes.acceptNot (fun k hk => ?_) (Takes.done ?_)
      · rw [eq_of_isDelimiter hk]
        rfl
      · simp only [erasePairs, hkey', hv]
    | cons pair' pairs =>
      have htokens : separated (pairTokens ((key, value) :: pair' :: pairs)) =
          ofKey key :: .delimiter .colon :: (parenthesized value.tokens ++
            .delimiter .comma :: separated (pairTokens (pair' :: pairs))) := rfl
      rw [htokens]
      refine Takes.token (mapKey_takes before hkey) fun key' hkey' => ?_
      refine Takes.token (expectDelim_takes _ _) fun _ _ => ?_
      refine hgroup.bind (fun _ _ => rfl) fun v hv => ?_
      refine Takes.peekAny fun separator => ?_
      refine Takes.acceptHead rfl rfl ?_
      refine Takes.checkHead false (fun _ _ => ?_) ?_
      · -- behind the comma comes a key and not the closing brace
        obtain ⟨k, ks, hks, hk⟩ := separated_pairTokens_cons hrest
        rw [hks]
        exact hk _
      have hpairs := ih (List.cons_ne_nil _ _) hrest (by omega) separator fuel (by omega)
      refine hpairs.result fun xs hxs => ?_
      simp only [erasePairs, hxs, hkey', hv]

/-- Each entry has a token. -/
theorem length_le_pairTokens (pairs : List (Node × Node)) :
    pairs.length ≤ (separated (pairTokens pairs)).length := by
  -- each entry begins with its key
  have hmap : pairTokens pairs =
      pairs.map fun p => ofKey p.1 :: .delimiter .colon :: parenthesized p.2.tokens := by
    induction pairs with
    | nil => rw [pairTokens, List.map_nil]
    | cons p pairs ih =>
      obtain ⟨key, value⟩ := p
      rw [pairTokens, ih, List.map_cons]
  rw [hmap]
  exact length_le_separated fun _ _ => Nat.succ_pos _

/-- A map is read back in its braces. -/
theorem mapLiteral_takes (h : inner.Reads depth) {pairs : List (Node × Node)}
    (hw : pairsWellFormed pairs = true) (hl : pairLevels pairs ≤ depth) :
    Takes (mapLiteral inner) (braced (separated (pairTokens pairs))) anyKind
      fun x => x.erasePos = (Node.map pairs).erasePos := by
  refine Takes.token (expectDelim_takes _ _) fun start _ => ?_
  cases pairs with
  | nil =>
    refine Takes.checkHead true (fun _ _ => rfl) ?_
    simp only [↓reduceIte, pure_bind]
    exact (expectDelim_takes .braceClose _).result fun _ _ => rfl
  | cons pair pairs =>
    -- each entry has tokens, so the fuel is enough for the entries
    have hlen := length_le_pairTokens (pair :: pairs)
    refine Takes.checkHead false (fun _ _ => ?_) ?_
    · obtain ⟨k, ks, hks, hk⟩ := separated_pairTokens_cons hw
      rw [hks]
      exact hk _
    · refine Takes.fuel fun s hs => ?_
      rw [List.length_append] at hs
      have hentries := mapEntries_takes h (List.cons_ne_nil pair pairs) hw hl start (s.length + 1)
        (by omega)
      refine hentries.bind (fun _ _ => rfl) fun xs hxs => ?_
      refine (expectDelim_takes .braceClose _).result fun _ _ => ?_
      rw [Node.erasePos, Node.erasePos, hxs]

/-! ## Operators, calls and members -/

/-- Two operands with an infix operator between them. -/
theorem operators_between (h : inner.Reads depth) {op : Operator} (hop : op.isInfix = true)
    {a b : Node} (ha : a.IsTerm) (hb : b.IsTerm) (hla : a.levels ≤ depth)
    (hlb : b.levels ≤ depth) :
    Takes (operators inner) (parenthesized a.tokens ++ .operator op :: parenthesized b.tokens)
      endsOperators fun n => ∃ x y pos, n = infixNode op x y pos ∧
        x.erasePos = a.erasePos ∧ y.erasePos = b.erasePos := by
  have hends : endsOperand (.operator op) = true := by cases op <;> first | rfl | cases hop
  have hfound : ∀ t : Token, t.kind = .operator op → infixAtLeast? 2 t = some op := by
    intro t ht
    simp only [infixAtLeast?, ht, hop, Bool.true_and]
    cases op <;> first | rfl | cases hop
  refine (unary_group h ha hla).bind (fun _ _ => hends) fun x hx => ?_
  refine Takes.fuel fun s hs => ?_
  -- two rounds: one for the operator, one that finds no other
  obtain ⟨fuel, hfuel⟩ : ∃ n, s.length = n + 1 := ⟨s.length - 1, by simp at hs; omega⟩
  rw [hfuel]
  refine Takes.peekCons fun t ht => ?_
  rw [hfound t ht]
  refine Takes.token (next_takes rfl) fun _ _ => ?_
  -- the right operand is a group, so it takes no operator of any precedence
  refine (climb_of_unary 6 _ (unary_group h hb hlb)).finish (fun _ h => h) fun y hy => ?_
  refine (climbFuel_done _ 2 _ fuel).imp fun n hn => ?_
  exact ⟨x, y, t.pos, hn, hx, hy⟩

/-- So is a unary operator before a term. -/
theorem unary_operator (h : inner.Reads depth) (op : UnaryOp) {a : Node} (ha : a.IsTerm)
    (hla : 1 + a.levels ≤ depth) (pos : Pos) :
    Takes (unary inner) (.operator op.operator :: parenthesized a.tokens) endsOperand
      fun x => x.erasePos = (Node.unary op a pos).erasePos := by
  refine Takes.peekCons fun t ht => ?_
  rw [ht]
  cases op
  all_goals
    refine Takes.token (next_takes rfl) fun _ _ => ?_
    refine (h.operand a ha hla).result fun x hx => ?_
    rw [Node.erasePos, Node.erasePos, hx]

/-- So is the word to wait for one. -/
theorem unary_await (h : inner.Reads depth) {a : Node} (ha : a.IsTerm)
    (hla : 1 + a.levels ≤ depth) :
    Takes (unary inner) (.keyword .awaitKw :: parenthesized a.tokens) endsOperand
      fun x => x.erasePos = (Node.await a).erasePos := by
  refine Takes.peekCons fun t ht => ?_
  rw [ht]
  refine Takes.token (next_takes rfl) fun _ _ => ?_
  refine (h.operand a ha hla).result fun x hx => ?_
  rw [Node.erasePos, Node.erasePos, hx]

/-- A call, member or index behind an expression in parentheses. -/
theorem operators_suffix (h : inner.Reads depth) {e : Node} (he : e.IsTerm)
    (hle : e.levels ≤ depth)
    (hpost : ∀ x fuel, x.erasePos = e.erasePos →
      Takes (postfixFuel inner x (fuel + 2)) ks endsOperand post) (hks : ks ≠ []) :
    Takes (operators inner) (parenthesized e.tokens ++ ks) endsOperators post := by
  refine climb_of_unary 7 2 (unary_of_suffix rfl (primary_group h he hle) ?_)
  intro x hx fuel hfuel
  have hpos := List.length_pos_iff.mpr hks
  obtain ⟨fuel, rfl⟩ : ∃ n, fuel = n + 2 := ⟨fuel - 2, by omega⟩
  exact hpost x fuel hx

/-- So is a call behind an expression. -/
theorem postfixFuel_call (h : inner.Reads depth) {e x : Node} (hx : x.erasePos = e.erasePos)
    {args : List Node} (hw : expressionsWellFormed args = true)
    (hl : expressionLevels args ≤ depth) (pos : Pos) (fuel : Nat) :
    Takes (postfixFuel inner x (fuel + 2)) (parenthesized (separated (expressionTokens args)))
      endsOperand fun n => n.erasePos = (Node.call e args pos).erasePos := by
  refine Takes.peekCons fun t _ => ?_
  refine Takes.acceptHead rfl rfl ?_
  refine (arguments_takes h hw hl).finish (fun _ _ => rfl) fun xs hxs => ?_
  refine (postfixFuel_done _ fuel).imp fun n hn => ?_
  rw [hn, Node.erasePos, Node.erasePos, hx, hxs]

/-- So is a member. -/
theorem postfixFuel_member {e x : Node} (hx : x.erasePos = e.erasePos) (name : String)
    (pos : Pos) (fuel : Nat) :
    Takes (postfixFuel inner x (fuel + 2)) [.operator .dot, .identifier name] endsOperand
      fun n => n.erasePos = (Node.member e name pos).erasePos := by
  refine Takes.peekCons fun t _ => ?_
  refine Takes.acceptNot (fun _ _ => rfl) ?_
  refine Takes.acceptHead rfl rfl ?_
  refine Takes.token (expectMemberName_takes name) fun name' hname => ?_
  refine (postfixFuel_done _ fuel).imp fun n hn => ?_
  rw [hn, Node.erasePos, Node.erasePos, hx, hname]

/-- So is an item. -/
theorem postfixFuel_index (h : inner.Reads depth) {e x : Node} (hx : x.erasePos = e.erasePos)
    {i : Node} (hi : i.IsTerm) (hli : 1 + i.levels ≤ depth) (pos : Pos) (fuel : Nat) :
    Takes (postfixFuel inner x (fuel + 2)) (bracketed (parenthesized i.tokens)) endsOperand
      fun n => n.erasePos = (Node.index e i pos).erasePos := by
  refine Takes.peekCons fun t _ => ?_
  refine Takes.acceptNot (fun _ _ => rfl) ?_
  refine Takes.acceptNot (fun _ _ => rfl) ?_
  refine Takes.acceptHead rfl rfl ?_
  refine (h.grouped i hi hli).bind (fun _ _ => rfl) fun y hy => ?_
  refine Takes.token (expectDelim_takes _ _) fun _ _ => ?_
  refine (postfixFuel_done _ fuel).imp fun n hn => ?_
  rw [hn, Node.erasePos, Node.erasePos, hx, hy]

/-! ## Assignments and lambdas -/

/-- Positions do not matter for targets. -/
theorem isTarget_erasePos (e : Node) : isTarget e.erasePos = isTarget e := by
  cases e <;> rfl

/-- A target is an expression. -/
theorem isExpression_of_isTarget {e : Node} (h : isTarget e = true) : e.isExpression = true := by
  cases e <;> first | rfl | cases h

/-- An assignment is read back. -/
theorem assignmentFuel_assign (h : inner.Reads depth) {a b : Node} (ha : a.IsTerm)
    (hb : b.IsTerm) (htarget : isTarget a = true) (hla : a.levels ≤ depth)
    (hlb : b.levels ≤ depth) (pos : Pos) (fuel : Nat) :
    Takes (assignmentFuel inner (fuel + 2))
      (parenthesized a.tokens ++ .operator .assign :: parenthesized b.tokens) endsExpression
      fun n => n.erasePos = (Node.assign a b pos).erasePos := by
  refine Takes.peekAny fun start => ?_
  have hl : NoLambda (parenthesized a.tokens ++ .operator .assign :: parenthesized b.tokens) :=
    noLambda_group ha fun _ _ => rfl
  refine Takes.look (q := (· = none)) (fun ts rest hts hrest => ⟨_, hl ts rest hts hrest, rfl⟩) ?_
  rintro _ rfl
  refine (climb_of_unary 7 2 (unary_group h ha hla)).bind (fun _ _ => rfl) fun x hx => ?_
  refine Takes.peekCons fun t _ => ?_
  refine Takes.acceptHead rfl rfl ?_
  -- whether the left side can be assigned to does not depend on positions
  have hx' : isTarget x = true := by rw [← isTarget_erasePos, hx, isTarget_erasePos, htarget]
  simp only [↓reduceIte, hx']
  refine (assignmentFuel_group h hb hlb fuel).result fun y hy => ?_
  rw [Node.erasePos, Node.erasePos, hx, hy]

/-- A lambda with an arrow; its body is a block or an expression in parentheses. -/
theorem assignmentFuel_lambda (h : inner.Reads depth) (ps : List String)
    {body : FunctionBody Node} (pos : Pos) (fuel : Nat)
    (hbody : ∀ items, body = .block items →
      statementsWellFormed items = true ∧ statementLevels items ≤ depth)
    (hvalue : ∀ e, body = .expr e → e.IsTerm ∧ e.levels ≤ depth) :
    Takes (assignmentFuel inner (fuel + 2)) (ofParams ps ++ .operator .arrow :: bodyTokens body)
      endsExpression fun n => n.erasePos = (Node.lambda ⟨none, ps, body, false, pos⟩).erasePos := by
  refine Takes.peekAny fun start => ?_
  refine (lambdaParams?_takes ps).bind (fun _ _ => rfl) ?_
  rintro _ rfl
  refine Takes.token (expectOp_takes _ _) fun _ _ => ?_
  -- a block begins with its brace, and an expression with a parenthesis
  cases body with
  | block items =>
    obtain ⟨hw, hl⟩ := hbody items rfl
    rw [bodyTokens]
    refine Takes.checkHead true (fun _ _ => rfl) ?_
    simp only [↓reduceIte, map_eq_pure_bind, bind_assoc, pure_bind]
    refine ((blockItems_takes h hw hl).before fun _ _ => rfl).result fun xs hxs => ?_
    simp only [Node.erasePos, eraseBody, hxs]
  | expr e =>
    obtain ⟨he, hl⟩ := hvalue e rfl
    rw [bodyTokens]
    refine Takes.checkHead false (fun _ _ => rfl) ?_
    simp only [Bool.false_eq_true, ↓reduceIte, map_eq_pure_bind, bind_assoc, pure_bind]
    refine (assignmentFuel_group h he hl fuel).result fun x hx => ?_
    simp only [Node.erasePos, eraseBody, hx]

/-! ## Operators between two operands -/

/-- So is a binary operator between two terms. -/
theorem assignmentFuel_binary (h : inner.Reads depth) {op : Operator} (hop : op.isBinary = true)
    {a b : Node} (ha : a.IsTerm) (hb : b.IsTerm) (hla : a.levels ≤ depth) (hlb : b.levels ≤ depth)
    (pos : Pos) (fuel : Nat) :
    Takes (assignmentFuel inner (fuel + 1))
      (parenthesized a.tokens ++ .operator op :: parenthesized b.tokens) endsExpression
      fun x => x.erasePos = (Node.binary op a b pos).erasePos := by
  have hbetween : op.isInfix = true := by cases op <;> first | rfl | cases hop
  have hno : NoLambda (parenthesized a.tokens ++ .operator op :: parenthesized b.tokens) :=
    noLambda_group ha fun _ _ => by cases op <;> first | rfl | cases hop
  refine assignmentFuel_of_operators _ hno ?_
  refine (operators_between h hbetween ha hb hla hlb).imp ?_
  rintro _ ⟨x, y, pos, rfl, hx, hy⟩
  -- the pipe and the logical operators give other nodes, and are not among these
  have hnode : infixNode op x y pos = .binary op x y pos := by
    cases op <;> first | rfl | cases hop
  rw [hnode, Node.erasePos, Node.erasePos, hx, hy]

/-- So is a logical one. -/
theorem assignmentFuel_logical (h : inner.Reads depth) (op : LogicalOp) {a b : Node} (ha : a.IsTerm)
    (hb : b.IsTerm) (hla : a.levels ≤ depth) (hlb : b.levels ≤ depth) (fuel : Nat) :
    Takes (assignmentFuel inner (fuel + 1))
      (parenthesized a.tokens ++ .operator op.operator :: parenthesized b.tokens) endsExpression
      fun x => x.erasePos = (Node.logical op a b).erasePos := by
  have hbetween : op.operator.isInfix = true := by cases op <;> rfl
  refine assignmentFuel_of_operators _ (noLambda_group ha fun _ _ => by cases op <;> rfl) ?_
  refine (operators_between h hbetween ha hb hla hlb).imp ?_
  rintro _ ⟨x, y, pos, rfl, hx, hy⟩
  have hnode : infixNode op.operator x y pos = .logical op x y := by cases op <;> rfl
  rw [hnode, Node.erasePos, Node.erasePos, hx, hy]

/-! ## Calls of primitives and functions without an arrow -/

/-- So is the call of a primitive. -/
theorem primary_primitive (h : inner.Reads depth) (p : Primitive) {args : List Node}
    (hw : expressionsWellFormed args = true) (hl : expressionLevels args ≤ depth) (pos : Pos) :
    Takes (primary inner) (.keyword p.keyword :: parenthesized (separated (expressionTokens args)))
      anyKind fun x => x.erasePos = (Node.primitive p args pos).erasePos := by
  -- the name and the arguments are read alike for every primitive
  have hcall : ∀ pos', Takes (primitiveCall inner p.keyword p pos')
      (parenthesized (separated (expressionTokens args))) anyKind
      fun x => x.erasePos = (Node.primitive p args pos).erasePos := by
    intro pos'
    refine Takes.token (expectDelim_takes _ _) fun _ _ => ?_
    refine (arguments_takes h hw hl).result fun xs hxs => ?_
    rw [Node.erasePos, Node.erasePos, hxs]
  refine Takes.peekCons fun t ht => ?_
  rw [ht]
  cases p
  all_goals
    refine Takes.peekAtHead rfl ?_
    exact Takes.token (next_takes rfl) fun _ _ => hcall t.pos

/-- So is an asynchronous function without a name. -/
theorem primary_asyncLambda (h : inner.Reads depth) (ps : List String) {items : List Node}
    (hw : statementsWellFormed items = true) (hl : statementLevels items ≤ depth) (pos : Pos) :
    Takes (primary inner)
      (.keyword .asyncKw :: .keyword .fnKw :: (ofParams ps ++ braced (statementTokens items)))
      anyKind fun x => x.erasePos =
        (Node.lambda ⟨none, ps, .block items, true, pos⟩).erasePos := by
  refine Takes.peekCons fun t ht => ?_
  rw [ht]
  refine Takes.peekAtHead (n := 1) rfl ?_
  refine Takes.token (next_takes rfl) fun _ _ => ?_
  refine (functionDef_takes h none ps true hw hl).result fun d hd => ?_
  exact congrArg Node.lambda hd

/-- A lambda with `async` is written with `fn`, the others with an arrow. -/
theorem assignmentFuel_function (h : inner.Reads depth) {d : FunctionDef Node}
    (hw : (Node.lambda d).wellFormed = true) (hl : (Node.lambda d).levels ≤ depth + 1) (fuel : Nat) :
    Takes (assignmentFuel inner (fuel + 2)) (Node.lambda d).tokens endsExpression
      fun x => x.erasePos = (Node.lambda d).erasePos := by
  obtain ⟨name, ps, body, isAsync, pos⟩ := d
  rw [Node.levels] at hl
  rw [Node.tokens]
  -- only a lambda with a block can have `async` in front of it
  cases body with
  | block items =>
    simp only [Node.wellFormed, Bool.and_eq_true, Option.isNone_iff_eq_none] at hw
    obtain ⟨rfl, hitems⟩ := hw
    rw [bodyLevels] at hl
    cases isAsync with
    | true =>
      exact assignmentFuel_of_primary _ rfl (noLambda_of_head rfl rfl)
        (primary_asyncLambda h ps hitems (by omega) pos)
    | false =>
      refine assignmentFuel_lambda h ps pos fuel ?_ fun e he => by cases he
      rintro _ ⟨⟩
      exact ⟨hitems, by omega⟩
  | expr value =>
    simp only [Node.wellFormed, Bool.and_eq_true, Option.isNone_iff_eq_none,
      Bool.not_eq_true'] at hw
    obtain ⟨⟨rfl, rfl⟩, hvalue⟩ := hw
    rw [bodyLevels] at hl
    refine assignmentFuel_lambda h ps pos fuel (fun items hi => by cases hi) ?_
    rintro _ ⟨⟩
    exact ⟨hvalue, by omega⟩

/-! ## Literals and methods of a parent -/

/-- So is a method of the parent class. -/
theorem primary_super (method : String) (pos : Pos) :
    Takes (primary inner) (Node.super method pos).tokens anyKind
      fun x => x.erasePos = (Node.super method pos).erasePos := by
  rw [Node.tokens]
  refine Takes.peekCons fun t ht => ?_
  rw [ht]
  refine Takes.token (next_takes rfl) fun _ _ => ?_
  refine Takes.token (expectOp_takes _ _) fun _ _ => ?_
  refine (expectMemberName_takes method).result fun name hname => ?_
  rw [Node.erasePos, Node.erasePos, hname]

/-- So is an array. -/
theorem primary_array (h : inner.Reads depth) {items : List Node}
    (hw : expressionsWellFormed items = true) (hl : expressionLevels items ≤ depth) :
    Takes (primary inner) (Node.array items).tokens anyKind
      fun x => x.erasePos = (Node.array items).erasePos := by
  rw [Node.tokens]
  refine Takes.peekCons fun t ht => ?_
  rw [ht]
  refine Takes.token (next_takes rfl) fun _ _ => ?_
  refine (expressions_takes h hw hl rfl (by decide) (by decide) _).result fun xs hxs => ?_
  rw [Node.erasePos, Node.erasePos, hxs]

/-! ## All expressions -/

/-- Every term is read back as an expression. -/
theorem assignmentFuel_takes (h : inner.Reads depth) {e : Node} (he : e.IsTerm)
    (hl : e.levels ≤ depth + 1) (fuel : Nat) :
    Takes (assignmentFuel inner (fuel + 2)) e.tokens endsExpression
      fun x => x.erasePos = e.erasePos := by
  obtain ⟨hexpr, hw⟩ := he
  -- one case for each kind of expression, by the level of its operator
  cases e with
  | assign a b pos =>
    simp only [Node.wellFormed, Bool.and_eq_true] at hw
    obtain ⟨⟨htarget, ha⟩, hb⟩ := hw
    rw [Node.levels] at hl
    rw [Node.tokens]
    exact assignmentFuel_assign h ⟨isExpression_of_isTarget htarget, ha⟩ hb htarget (by omega)
      (by omega) pos fuel
  | binary op a b pos =>
    simp only [Node.wellFormed, Bool.and_eq_true] at hw
    obtain ⟨⟨hop, ha⟩, hb⟩ := hw
    rw [Node.levels] at hl
    rw [Node.tokens]
    exact assignmentFuel_binary h hop ha hb (by omega) (by omega) pos _
  | logical op a b =>
    simp only [Node.wellFormed, Bool.and_eq_true] at hw
    obtain ⟨ha, hb⟩ := hw
    rw [Node.levels] at hl
    rw [Node.tokens]
    exact assignmentFuel_logical h op ha hb (by omega) (by omega) _
  | unary op a pos =>
    rw [Node.wellFormed, Bool.and_eq_true] at hw
    rw [Node.levels] at hl
    rw [Node.tokens]
    exact assignmentFuel_of_operators _ (noLambda_of_head rfl rfl)
      (climb_of_unary 7 2 (unary_operator h op hw (by omega) pos))
  | await a =>
    rw [Node.wellFormed, Bool.and_eq_true] at hw
    rw [Node.levels] at hl
    rw [Node.tokens]
    exact assignmentFuel_of_operators _ (noLambda_of_head rfl rfl)
      (climb_of_unary 7 2 (unary_await h hw (by omega)))
  | call c args pos =>
    simp only [Node.wellFormed, Bool.and_eq_true] at hw
    rw [Node.levels] at hl
    rw [Node.tokens]
    refine assignmentFuel_of_operators _ (noLambda_group hw.1 fun _ _ => rfl) ?_
    refine operators_suffix h hw.1 (by omega) (fun x fuel hx => ?_) (List.cons_ne_nil _ _)
    exact postfixFuel_call h hx hw.2 (by omega) pos fuel
  | member a name pos =>
    rw [Node.wellFormed, Bool.and_eq_true] at hw
    rw [Node.levels] at hl
    rw [Node.tokens]
    refine assignmentFuel_of_operators _ (noLambda_group hw fun _ _ => rfl) ?_
    refine operators_suffix h hw (by omega) (fun x fuel hx => ?_) (List.cons_ne_nil _ _)
    exact postfixFuel_member hx name pos fuel
  | index a i pos =>
    simp only [Node.wellFormed, Bool.and_eq_true] at hw
    rw [Node.levels] at hl
    rw [Node.tokens]
    refine assignmentFuel_of_operators _ (noLambda_group hw.1 fun _ _ => rfl) ?_
    refine operators_suffix h hw.1 (by omega) (fun x fuel hx => ?_) (List.cons_ne_nil _ _)
    exact postfixFuel_index h hx hw.2 (by omega) pos fuel
  | lambda d => exact assignmentFuel_function h hw hl fuel
  | primitive p args pos =>
    rw [Node.wellFormed] at hw
    rw [Node.levels] at hl
    rw [Node.tokens]
    exact assignmentFuel_of_primary _ (by cases p <;> rfl) (noLambda_of_head rfl rfl)
      (primary_primitive h p hw (by omega) pos)
  | identifier name pos =>
    rw [Node.tokens]
    refine assignmentFuel_of_primary _ rfl (noLambda_identifier name) ?_
    refine Takes.peekCons fun t ht => ?_
    rw [ht]
    exact (next_takes rfl).result fun _ _ => rfl
  | super method pos =>
    exact assignmentFuel_of_primary _ rfl (noLambda_of_head rfl rfl) (primary_super method pos)
  | array items =>
    rw [Node.wellFormed] at hw
    rw [Node.levels] at hl
    exact assignmentFuel_of_primary _ rfl (noLambda_of_head rfl rfl)
      (primary_array h hw (by omega))
  | map pairs =>
    rw [Node.wellFormed] at hw
    rw [Node.levels] at hl
    rw [Node.tokens]
    refine assignmentFuel_of_primary _ rfl (noLambda_of_head rfl rfl) ?_
    refine Takes.peekCons fun t ht => ?_
    rw [ht]
    exact mapLiteral_takes h hw (by omega)
  | number | text | null | this =>
    rw [Node.tokens]
    refine assignmentFuel_of_primary _ rfl (noLambda_of_head rfl rfl) ?_
    refine Takes.peekCons fun t ht => ?_
    rw [ht]
    exact (next_takes rfl).result fun _ _ => rfl
  | bool b =>
    rw [Node.tokens]
    cases b
    all_goals
      refine assignmentFuel_of_primary _ rfl (noLambda_of_head rfl rfl) ?_
      refine Takes.peekCons fun t ht => ?_
      rw [ht]
      exact (next_takes rfl).result fun _ _ => rfl
  | program | declare | function | classDecl | importModule | block | print | returnValue
  | yieldValue | breakLoop | continueLoop | halt | ifElse | whileLoop | loop | forEach | tryCatch
  | switch | error => cases hexpr

/-- So it is with the fuel that the parser has. -/
theorem assignment_takes (h : inner.Reads depth) {e : Node} (he : e.IsTerm)
    (hl : e.levels ≤ depth + 1) :
    Takes (assignment inner) e.tokens endsExpression fun x => x.erasePos = e.erasePos := by
  refine Takes.fuel fun s hs => ?_
  -- an expression has a token, and so the parser has fuel for it
  have hpos : 0 < e.tokens.length := by
    rcases Node.tokens_of_isExpression he.1 with ⟨name, hname⟩ | ⟨k, ks, hks, -⟩
    · rw [hname]
      exact Nat.one_pos
    · rw [hks]
      exact Nat.succ_pos _
  obtain ⟨fuel, hfuel⟩ : ∃ n, s.length = n + 1 := ⟨s.length - 1, by omega⟩
  rw [hfuel]
  exact assignmentFuel_takes h he hl fuel

end BrailleScript.Parser
