import BrailleScript.Proofs.Node.Expression

/-!
# Reading statements

Every statement is given back by the parser for statements, one level above a level that reads what
is written (`Level.Reads`).  The first token decides between the forms; a block is told from a map
by what stands behind its brace, and a declared function from a lambda by its name.

## Key results

- `looksLikeMap_block`: a written block is never taken for a map
- `bareStatement_takes`, `statement_takes`: every statement is given back, without its semicolon and
  with it
-/

namespace BrailleScript.Parser

open TokenKind

variable {inner : Level} {depth : Nat} {k : TokenKind} {ks : List TokenKind}
variable {post : Node → Prop}

/-- What follows a statement as it is written. -/
def atSemicolon (k : TokenKind) : Bool :=
  k.isDelimiter .semicolon

/-- Only the semicolon ends a statement in written code. -/
theorem eq_of_atSemicolon (h : atSemicolon k = true) : k = .delimiter .semicolon :=
  eq_of_isDelimiter h

/-- An expression in parentheses as the last part of a statement. -/
theorem grouped_last (h : inner.Reads depth) {e : Node} (he : e.IsTerm)
    (hl : 1 + e.levels ≤ depth) :
    Takes inner.expression (parenthesized e.tokens) atSemicolon
      fun x => x.erasePos = e.erasePos := by
  refine (h.grouped e he hl).before fun k hk => ?_
  rw [eq_of_atSemicolon hk]
  rfl

/-- The block of a loop, a branch or a handler. -/
theorem branch_takes (h : inner.Reads depth) {b : Node} (hb : b.isBlock = true)
    (hw : b.wellFormed = true) (hl : b.levels ≤ depth + 1) :
    Takes (block inner) b.tokens anyKind fun x => x.erasePos = b.erasePos := by
  obtain ⟨items, rfl⟩ := Node.eq_block_of_isBlock hb
  rw [Node.wellFormed] at hw
  rw [Node.levels] at hl
  exact block_takes h hw (by omega)

/-- A block begins with its brace. -/
theorem tokens_of_isBlock {b : Node} (hb : b.isBlock = true) :
    ∃ ks, b.tokens = .delimiter .braceOpen :: ks := by
  obtain ⟨items, rfl⟩ := Node.eq_block_of_isBlock hb
  exact ⟨_, rfl⟩

/-! ## Declarations and definitions -/

/-- A declaration is read back, and so are the other statements below. -/
theorem declaration_takes (h : inner.Reads depth) (name : String) {value : Option Node}
    {constant : Bool} (hc : (!constant || value.isSome) = true)
    (hw : valueWellFormed value = true) (hl : valueLevels value ≤ depth) (pos : Pos)
    (kw : Keyword) :
    Takes (declaration inner constant)
      (.keyword kw :: .identifier name :: initialTokens value) atSemicolon
      fun x => x.erasePos = (Node.declare name value constant pos).erasePos := by
  refine Takes.token (next_takes rfl) fun t _ => ?_
  refine Takes.token (expectIdentifier_takes name _) fun name' hname => ?_
  -- without a value the statement ends behind the name
  cases value with
  | none =>
    rw [Option.isSome_none, Bool.or_false, Bool.not_eq_true'] at hc
    refine Takes.acceptNot (fun k hk => ?_) ?_
    · show (k : TokenKind).isOperator .assign = false
      rw [eq_of_atSemicolon hk]
      rfl
    · rw [hc, hname]
      exact Takes.done rfl
  | some e =>
    rw [valueWellFormed, Bool.and_eq_true] at hw
    rw [valueLevels] at hl
    refine Takes.acceptHead rfl rfl ?_
    refine (grouped_last h hw hl).result fun x hx => ?_
    rw [Node.erasePos, Node.erasePos, eraseValue, eraseValue, hx, hname]

/-- A declared function, from `async` or `fn` on. -/
theorem method_takes (h : inner.Reads depth) (f : String) (ps : List String) (isAsync : Bool)
    {items : List Node} (hw : statementsWellFormed items = true)
    (hl : statementLevels items ≤ depth) (pos : Pos) :
    Takes (method inner) (ofFunction (some f) ps isAsync (braced (statementTokens items)))
      (fun k => !k.isDelimiter .semicolon)
      fun d => d.erasePos = FunctionDef.erasePos ⟨some f, ps, .block items, isAsync, pos⟩ := by
  have hdef := functionDef_takes h (some f) ps isAsync hw hl
  -- a method may end with a semicolon, but none is written
  have hrest : Takes (do
        let d ← functionDef inner true isAsync
        let _ ← acceptDelim .semicolon
        return d)
      (.keyword .fnKw :: .identifier f :: (ofParams ps ++ braced (statementTokens items)))
      (fun k => !k.isDelimiter .semicolon)
      fun d => d.erasePos = FunctionDef.erasePos ⟨some f, ps, .block items, isAsync, pos⟩ := by
    refine hdef.finish (fun _ _ => rfl) fun d hd => ?_
    exact Takes.acceptNot (fun k hk => by simpa using hk) (Takes.done hd)
  cases isAsync with
  | true => exact Takes.acceptHead rfl rfl hrest
  | false => exact Takes.acceptNot (fun _ _ => rfl) hrest

/-- The methods of a class. -/
theorem methods_takes (h : inner.Reads depth) {methods : List (FunctionDef Node)}
    (hw : methodsWellFormed methods = true) (hl : methodLevels methods ≤ depth) :
    Takes (repeatWhile (do return !(← checkDelim .braceClose) && !(← atEnd)) (method inner))
      (methodTokens methods) endsBlock fun ds => eraseDefs ds = eraseDefs methods := by
  have hitem : ∀ d ∈ methods, Takes (method inner)
      (ofFunction d.name d.params d.isAsync (bodyTokens d.body))
      (fun k => !k.isDelimiter .semicolon) fun x => x.erasePos = d.erasePos := by
    -- a method has a name and a block
    intro d hd
    obtain ⟨hname, hbody⟩ := methodsWellFormed_mem hw hd
    have hlevels := bodyLevels_le_of_mem hd
    obtain ⟨name, ps, body, isAsync, pos⟩ := d
    obtain ⟨f, rfl⟩ := Option.isSome_iff_exists.mp hname
    cases body with
    | block items =>
      rw [bodyWellFormed] at hbody
      rw [bodyLevels] at hlevels
      exact method_takes h f ps isAsync hbody (Nat.le_trans hlevels hl) pos
    | expr value => cases hbody
  have hhead : ∀ d ∈ methods, ∃ k ks,
      ofFunction d.name d.params d.isAsync (bodyTokens d.body) = k :: ks ∧
        endsBlock k = false ∧ (!k.isDelimiter .semicolon) = true := by
    intro d _
    obtain ⟨name, ps, body, isAsync, pos⟩ := d
    cases isAsync with
    | true => exact ⟨_, _, rfl, rfl, rfl⟩
    | false => exact ⟨_, _, rfl, rfl, rfl⟩
  have hstop : ∀ k : TokenKind, endsBlock k = true → (!k.isDelimiter .semicolon) = true := by
    intro k hk
    cases k with
    | delimiter d => cases d <;> first | rfl | cases hk
    | _ => rfl
  rw [methodTokens_eq_flatMap]
  refine (repeatWhile_takes run_moreItems hitem hhead hstop).imp fun ds hds => ?_
  rw [eraseDefs_eq_map, eraseDefs_eq_map, hds]

/-- A class. -/
theorem classDecl_takes (h : inner.Reads depth) (name : String) (parent : Option String)
    {methods : List (FunctionDef Node)} (hw : methodsWellFormed methods = true)
    (hl : methodLevels methods ≤ depth) (pos : Pos) :
    Takes (classDecl inner) (Node.classDecl name parent methods pos).tokens anyKind
      fun x => x.erasePos = (Node.classDecl name parent methods pos).erasePos := by
  -- with or without a parent, the class goes on with its body
  have hbody : ∀ pos', Takes (do
        let _ ← expectDelim .braceOpen "Expected '\x7b' to start class body"
        let methods ← repeatWhile (do return !(← checkDelim .braceClose) && !(← atEnd))
          (method inner)
        let _ ← expectDelim .braceClose "Expected '\x7d' after class body"
        return Node.classDecl name parent methods pos')
      (braced (methodTokens methods)) anyKind
      fun x => x.erasePos = (Node.classDecl name parent methods pos).erasePos := by
    intro pos'
    refine Takes.token (expectDelim_takes _ _) fun _ _ => ?_
    refine (methods_takes h hw hl).bind (fun _ _ => rfl) fun ds hds => ?_
    refine (expectDelim_takes _ _).result fun _ _ => ?_
    rw [Node.erasePos, Node.erasePos, hds]
  rw [Node.tokens]
  refine Takes.token (next_takes rfl) fun t _ => ?_
  refine Takes.token (expectIdentifier_takes name _) ?_
  rintro _ rfl
  cases parent with
  | none => exact Takes.acceptNot (fun _ _ => rfl) (hbody t.pos)
  | some p =>
    refine Takes.acceptHead rfl rfl ?_
    refine Takes.token (q := (· = some p)) ((expectIdentifier_takes p _).mapped ?_) ?_
    · rintro _ rfl
      rfl
    · rintro _ rfl
      exact hbody t.pos

/-! ## Conditionals and loops -/

/-- A condition, with the fuel of its tokens. -/
theorem conditionalFuel_takes (h : inner.Reads depth) (fuel : Nat) {n : Node}
    (hn : n.isConditional = true) (hw : n.wellFormed = true) (hl : n.levels ≤ depth + 1)
    (hfuel : n.tokens.length ≤ fuel) :
    Takes (conditionalFuel inner fuel) n.tokens atSemicolon fun x => x.erasePos = n.erasePos := by
  -- a chain of `else if` goes down in fuel, not in levels
  induction fuel generalizing n with
  | zero =>
    cases n with
    | ifElse c t e => cases hfuel
    | _ => cases hn
  | succ fuel ih =>
    cases n with
    | ifElse c t e =>
      simp only [Node.wellFormed, Bool.and_eq_true] at hw
      obtain ⟨⟨hc, ht⟩, he⟩ := hw
      rw [Node.levels] at hl
      rw [Node.tokens] at hfuel ⊢
      have hbranch : Takes (block inner) t.tokens anyKind fun x => x.erasePos = t.erasePos :=
        branch_takes h ht.1 ht.2 (by omega)
      obtain ⟨ks, hks⟩ := tokens_of_isBlock ht.1
      refine Takes.token (next_takes rfl) fun _ _ => ?_
      refine (h.grouped c hc (by omega)).bind (fun _ _ => by rw [hks]; rfl) fun x hx => ?_
      refine hbranch.bind (fun _ _ => rfl) fun y hy => ?_
      cases e with
      | none =>
        refine Takes.acceptNot (fun k hk => ?_) (Takes.done ?_)
        · show (k : TokenKind).isKeyword .elseKw = false
          rw [eq_of_atSemicolon hk]
          rfl
        · simp only [Node.erasePos, eraseValue, hx, hy]
      | some e =>
        simp only [elseWellFormed, Bool.and_eq_true, Bool.or_eq_true] at he
        rw [elseLevels] at hl
        rw [elseTokens] at hfuel ⊢
        refine Takes.acceptHead rfl rfl ?_
        -- what stands behind `else` tells a last branch from a further condition
        rcases he with ⟨hblock | hcond, hwe⟩
        · obtain ⟨ks', hks'⟩ := tokens_of_isBlock hblock
          refine Takes.checkHead false (fun _ _ => by rw [hks']; rfl) ?_
          have hlast := branch_takes h hblock hwe (by omega)
          refine (hlast.before fun _ _ => rfl).result fun z hz => ?_
          simp only [Node.erasePos, eraseValue, hx, hy, hz]
        · refine Takes.checkHead true (fun _ _ => ?_) ?_
          · cases e with
            | ifElse => rfl
            | _ => cases hcond
          · simp only [List.length_cons, List.length_append] at hfuel
            refine (ih hcond hwe (by omega) (by omega)).result fun z hz => ?_
            simp only [Node.erasePos, eraseValue, hx, hy, hz]
    | _ => cases hn

/-- A loop with a condition. -/
theorem whileLoop_takes (h : inner.Reads depth) {c b : Node} (hc : c.IsTerm)
    (hb : b.isBlock = true) (hw : b.wellFormed = true) (hlc : 1 + c.levels ≤ depth)
    (hlb : b.levels ≤ depth + 1) :
    Takes (whileLoop inner) (Node.whileLoop c b).tokens anyKind
      fun x => x.erasePos = (Node.whileLoop c b).erasePos := by
  obtain ⟨ks, hks⟩ := tokens_of_isBlock hb
  rw [Node.tokens]
  refine Takes.token (next_takes rfl) fun _ _ => ?_
  refine (h.grouped c hc hlc).bind (fun _ _ => by rw [hks]; rfl) fun x hx => ?_
  refine (branch_takes h hb hw hlb).result fun y hy => ?_
  rw [Node.erasePos, Node.erasePos, hx, hy]

/-- A loop over items. -/
theorem forLoop_takes (h : inner.Reads depth) (var : String) {i b : Node} (hi : i.IsTerm)
    (hb : b.isBlock = true) (hw : b.wellFormed = true) (hli : 1 + i.levels ≤ depth)
    (hlb : b.levels ≤ depth + 1) :
    Takes (forLoop inner) (Node.forEach var i b).tokens anyKind
      fun x => x.erasePos = (Node.forEach var i b).erasePos := by
  obtain ⟨ks, hks⟩ := tokens_of_isBlock hb
  rw [Node.tokens]
  refine Takes.token (next_takes rfl) fun _ _ => ?_
  -- the loop is not written in parentheses
  refine Takes.checkHead false (fun _ _ => rfl) ?_
  refine Takes.peekAtHead (n := 1) rfl ?_
  refine Takes.peekAtHead (n := 2) rfl ?_
  simp only [Bool.false_and, Bool.false_eq_true, ↓reduceIte]
  refine Takes.token (expectIdentifier_takes var _) fun var' hvar => ?_
  refine Takes.token (expectKeyword_takes _ _) fun _ _ => ?_
  refine (h.grouped i hi hli).bind (fun _ _ => by rw [hks]; rfl) fun x hx => ?_
  refine (branch_takes h hb hw hlb).result fun y hy => ?_
  rw [Node.erasePos, Node.erasePos, hx, hy, hvar]

/-! ## Handlers -/

/-- The name of a caught failure. -/
theorem catchName_takes (name : Option String) :
    Takes catchName (ofCatchName name) (·.isDelimiter .braceOpen) (· = name) := by
  -- without a name the block of the handler follows
  cases name with
  | none =>
    refine Takes.acceptNot (fun k hk => ?_) ?_
    · show (k : TokenKind).isDelimiter .parenOpen = false
      rw [eq_of_isDelimiter hk]
      rfl
    · refine Takes.peekHead (q := (· = .delimiter .braceOpen)) (fun k hk => eq_of_isDelimiter hk)
        fun t ht => ?_
      rw [ht]
      exact Takes.done rfl
  | some x =>
    refine Takes.acceptHead rfl rfl ?_
    refine Takes.token (expectIdentifier_takes x _) fun x' hx => ?_
    refine ((expectDelim_takes _ _).result fun _ _ => ?_).before fun _ _ => rfl
    rw [hx]

/-- A try statement. -/
theorem tryStatement_takes (h : inner.Reads depth) (name : Option String) {b c : Node}
    (hb : b.isBlock = true ∧ b.wellFormed = true) (hc : c.isBlock = true ∧ c.wellFormed = true)
    (hlb : b.levels ≤ depth + 1) (hlc : c.levels ≤ depth + 1) :
    Takes (tryStatement inner) (Node.tryCatch b name c).tokens anyKind
      fun x => x.erasePos = (Node.tryCatch b name c).erasePos := by
  -- the handler begins with its brace, so it is not taken for a name
  obtain ⟨ks, hks⟩ := tokens_of_isBlock hc.1
  rw [Node.tokens]
  refine Takes.token (next_takes rfl) fun _ _ => ?_
  refine (branch_takes h hb.1 hb.2 hlb).bind (fun _ _ => rfl) fun x hx => ?_
  refine Takes.token (expectKeyword_takes _ _) fun _ _ => ?_
  refine (catchName_takes name).bind (fun _ _ => by rw [hks]; rfl) fun name' hname => ?_
  refine (branch_takes h hc.1 hc.2 hlc).result fun y hy => ?_
  rw [Node.erasePos, Node.erasePos, hx, hy, hname]

/-! ## Switches -/

/-- The default and the end of a switch. -/
theorem switchFuel_default (h : inner.Reads depth) (cases : List (SwitchCase Node))
    {default : Option (List Node)} (hw : defaultWellFormed default = true)
    (hl : defaultLevels default ≤ depth) (fuel : Nat) :
    Takes (switchFuel inner cases none (fuel + 2)) (defaultTokens default)
      (·.isDelimiter .braceClose)
      fun r => r.1 = cases.reverse ∧ eraseDefault r.2 = eraseDefault default := by
  -- at the closing brace the cases are in reverse order
  have hend : ∀ d fuel, eraseDefault d = eraseDefault default →
      Takes (switchFuel inner cases d (fuel + 1)) [] (·.isDelimiter .braceClose)
        fun r => r.1 = cases.reverse ∧ eraseDefault r.2 = eraseDefault default := by
    intro d fuel hd
    refine Takes.checkHead true (fun _ h => h) ?_
    refine Takes.checkHead false (fun k hk => ?_) ?_
    · rw [eq_of_isDelimiter hk]
      rfl
    · exact Takes.done ⟨rfl, hd⟩
  cases default with
  | none => exact hend none (fuel + 1) rfl
  | some items =>
    rw [defaultWellFormed] at hw
    rw [defaultLevels] at hl
    refine Takes.checkHead false (fun _ _ => rfl) ?_
    refine Takes.checkHead false (fun _ _ => rfl) ?_
    refine Takes.acceptNot (fun _ _ => rfl) ?_
    refine Takes.acceptHead rfl rfl ?_
    refine Takes.acceptHead rfl rfl ?_
    refine (blockItems_takes h hw hl).finish (fun _ _ => rfl) fun xs hxs => ?_
    exact hend (some xs) fuel (by rw [eraseDefault, eraseDefault, hxs])

/-- The cases of a switch, behind those already read. -/
theorem switchFuel_takes (h : inner.Reads depth) {rest : List (SwitchCase Node)}
    {default : Option (List Node)} (hw : casesWellFormed rest = true)
    (hd : defaultWellFormed default = true) (hl : caseLevels rest ≤ depth)
    (hld : defaultLevels default ≤ depth) (cases : List (SwitchCase Node)) (fuel : Nat)
    (hfuel : rest.length + 2 ≤ fuel) :
    Takes (switchFuel inner cases none fuel) (caseTokens rest ++ defaultTokens default)
      (·.isDelimiter .braceClose)
      fun r => eraseCases r.1 = eraseCases (cases.reverse ++ rest) ∧
        eraseDefault r.2 = eraseDefault default := by
  -- `cases` are the ones that were read already, the last of them first
  induction rest generalizing cases fuel with
  | nil =>
    obtain ⟨fuel, rfl⟩ : ∃ n, fuel = n + 2 := ⟨fuel - 2, by omega⟩
    refine (switchFuel_default h cases hd hld fuel).imp fun r hr => ?_
    rw [hr.1, List.append_nil]
    exact ⟨rfl, hr.2⟩
  | cons c rest ih =>
    obtain ⟨value, body⟩ := c
    simp only [casesWellFormed, Bool.and_eq_true] at hw
    rw [caseLevels] at hl
    rw [List.length_cons] at hfuel
    obtain ⟨fuel, rfl⟩ : ∃ n, fuel = n + 1 := ⟨fuel - 1, by omega⟩
    have htokens : caseTokens (⟨value, body⟩ :: rest) ++ defaultTokens default =
        .keyword .caseKw :: (parenthesized value.tokens ++ .delimiter .colon ::
          (braced (statementTokens body) ++ (caseTokens rest ++ defaultTokens default))) := by
      simp only [caseTokens, List.cons_append, List.append_assoc]
    rw [htokens]
    refine Takes.checkHead false (fun _ _ => rfl) ?_
    refine Takes.checkHead false (fun _ _ => rfl) ?_
    refine Takes.acceptHead rfl rfl ?_
    refine (h.grouped value hw.1.1 (by omega)).bind (fun _ _ => rfl) fun x hx => ?_
    refine Takes.acceptHead rfl rfl ?_
    refine (blockItems_takes h hw.1.2 (by omega)).bind (fun _ _ => rfl) fun xs hxs => ?_
    refine (ih hw.2 (by omega) (⟨x, xs⟩ :: cases) fuel (by omega)).imp fun r hr => ⟨?_, hr.2⟩
    rw [hr.1, List.reverse_cons, List.append_assoc, List.singleton_append, eraseCases_append,
      eraseCases_append, eraseCases, eraseCases, hx, hxs]

/-- Each case has a token. -/
theorem length_le_caseTokens (cases : List (SwitchCase Node)) :
    cases.length ≤ (caseTokens cases).length := by
  induction cases with
  | nil => exact Nat.zero_le _
  | cons c rest ih =>
    simp only [caseTokens, List.length_cons, List.length_append]
    omega

/-- A switch. -/
theorem switchStatement_takes (h : inner.Reads depth) {subject : Node}
    {cases : List (SwitchCase Node)} {default : Option (List Node)} (hs : subject.IsTerm)
    (hw : casesWellFormed cases = true) (hd : defaultWellFormed default = true)
    (hls : 1 + subject.levels ≤ depth) (hl : caseLevels cases ≤ depth)
    (hld : defaultLevels default ≤ depth) :
    Takes (switchStatement inner) (Node.switch subject cases default).tokens anyKind
      fun x => x.erasePos = (Node.switch subject cases default).erasePos := by
  rw [Node.tokens]
  refine Takes.token (next_takes rfl) fun _ _ => ?_
  refine (h.grouped subject hs hls).bind (fun _ _ => rfl) fun x hx => ?_
  refine Takes.token (expectDelim_takes _ _) fun _ _ => ?_
  refine Takes.fuel fun s hlen => ?_
  -- each case has tokens, so the fuel is enough for them
  have hcases := length_le_caseTokens cases
  simp only [List.length_append, List.length_singleton] at hlen
  refine (switchFuel_takes h hw hd hl hld [] (s.length + 1) (by omega)).bind (fun _ _ => rfl)
    fun r hr => ?_
  obtain ⟨cases', default'⟩ := r
  refine (expectDelim_takes _ _).result fun _ _ => ?_
  rw [Node.erasePos, Node.erasePos, hx, hr.1, hr.2]
  rfl

/-! ## Simple statements -/

/-- A return. -/
theorem returnStatement_takes (h : inner.Reads depth) {value : Option Node}
    (hw : valueWellFormed value = true) (hl : valueLevels value ≤ depth) :
    Takes (returnStatement inner) (Node.returnValue value).tokens atSemicolon
      fun x => x.erasePos = (Node.returnValue value).erasePos := by
  rw [Node.tokens]
  refine Takes.token (next_takes rfl) fun _ _ => ?_
  -- without a value the statement ends behind the word
  cases value with
  | none =>
    refine Takes.look (q := (· = true)) (fun ts rest hts hrest => ⟨_, run_atStatementEnd _, ?_⟩) ?_
    · obtain rfl : ts = [] := List.map_eq_nil_iff.mp hts
      rw [List.nil_append, eq_of_atSemicolon hrest]
      rfl
    · rintro _ rfl
      exact Takes.done rfl
  | some e =>
    rw [valueWellFormed, Bool.and_eq_true] at hw
    rw [valueLevels] at hl
    refine Takes.look (q := (· = false)) (fun ts rest hts _ => ⟨_, run_atStatementEnd _, ?_⟩) ?_
    · rw [headKind_append, hts]
      rfl
    · rintro _ rfl
      refine (grouped_last h hw hl).result fun x hx => ?_
      rw [Node.erasePos, Node.erasePos, eraseValue, eraseValue, hx]

/-- A print statement. -/
theorem print_takes (h : inner.Reads depth) {args : List Node}
    (hw : expressionsWellFormed args = true) (hl : expressionLevels args ≤ depth) :
    Takes (print inner) (Node.print args).tokens anyKind
      fun x => x.erasePos = (Node.print args).erasePos := by
  rw [Node.tokens]
  refine Takes.token (next_takes rfl) fun _ _ => ?_
  refine Takes.acceptHead rfl rfl ?_
  refine (arguments_takes h hw hl).result fun xs hxs => ?_
  rw [Node.erasePos, Node.erasePos, hxs]

/-- A statement of one word. -/
theorem single_takes (n : Node) (hk : k.isEndOfInput = false) :
    Takes (single n) [k] anyKind (· = n) :=
  (next_takes hk).result fun _ _ => rfl

/-- A written block is never taken for a map: behind its brace stands no key. -/
theorem looksLikeMap_block {items : List Node} (hw : statementsWellFormed items = true)
    {ts rest : List Token} (hts : ts.map (·.kind) = (Node.block items).tokens) :
    looksLikeMap (ts ++ rest) = false := by
  rw [Node.tokens] at hts
  obtain ⟨t, us, rfl, -, hus⟩ := List.map_eq_cons_iff.mp hts
  cases items with
  | nil =>
    obtain ⟨u, rfl, hu⟩ := List.map_eq_singleton_iff.mp hus
    cases rest with
    | nil => rfl
    | cons v rest => simp only [List.cons_append, List.nil_append, looksLikeMap, hu]; rfl
  | cons s items =>
    -- a statement begins with a keyword, `(` or `{`, and a key is none of these
    obtain ⟨k, ks, hks, hk⟩ :=
      Node.asStatement_head (statementsWellFormed_mem hw List.mem_cons_self)
    rw [statementTokens, hks] at hus
    obtain ⟨u, vs, rfl, hu, -⟩ := List.map_eq_cons_iff.mp hus
    rw [List.cons_append, List.cons_append]
    cases vs ++ rest with
    | nil => rfl
    | cons v vs =>
      rcases hk with ⟨w, rfl⟩ | rfl | rfl
      all_goals simp only [looksLikeMap, hu]; rfl

/-! ## All statements -/

/-- A declared function from its first token on; the name behind `fn` tells it from a lambda. -/
theorem bareStatement_function (h : inner.Reads depth) (f : String) (ps : List String)
    (isAsync : Bool) {items : List Node} (hw : statementsWellFormed items = true)
    (hl : statementLevels items ≤ depth) (pos : Pos) :
    Takes (bareStatement inner) (ofFunction (some f) ps isAsync (braced (statementTokens items)))
      anyKind fun x => x.erasePos =
        (Node.function ⟨some f, ps, .block items, isAsync, pos⟩).erasePos := by
  have hdef := functionDef_takes h (some f) ps isAsync hw hl
  -- the parser looks behind `fn`, which is one token further with `async`
  cases isAsync with
  | true =>
    refine Takes.peekCons fun t ht => ?_
    rw [ht]
    refine Takes.peekAtHead (n := 1) rfl ?_
    refine Takes.peekAtHead (n := 2) rfl ?_
    refine Takes.token (next_takes rfl) fun _ _ => ?_
    exact hdef.result fun d hd => congrArg Node.function hd
  | false =>
    refine Takes.peekCons fun t ht => ?_
    rw [ht]
    refine Takes.peekAtHead (n := 1) rfl ?_
    exact hdef.result fun d hd => congrArg Node.function hd

/-- An expression as a statement. -/
theorem bareStatement_expression (h : inner.Reads depth) {e : Node} (he : e.IsTerm)
    (hl : 1 + e.levels ≤ depth) :
    Takes (bareStatement inner) (parenthesized e.tokens) atSemicolon
      fun x => x.erasePos = e.erasePos := by
  refine Takes.peekCons fun t ht => ?_
  rw [ht]
  exact grouped_last h he hl

/-- A block as a statement. -/
theorem bareStatement_block (h : inner.Reads depth) {items : List Node}
    (hw : statementsWellFormed items = true) (hl : statementLevels items ≤ depth) :
    Takes (bareStatement inner) (Node.block items).tokens anyKind
      fun x => x.erasePos = (Node.block items).erasePos := by
  refine Takes.peekHead (q := (· = .delimiter .braceOpen)) (fun _ _ => rfl) fun t ht => ?_
  rw [ht]
  refine Takes.look (q := fun tokens => looksLikeMap tokens = false)
    (fun ts rest hts _ => ⟨_, rfl, looksLikeMap_block hw hts⟩) fun tokens hmap => ?_
  rw [hmap]
  exact block_takes h hw hl

/-- Every statement without its semicolon. -/
theorem bareStatement_takes (h : inner.Reads depth) {s : Node} (hexpr : s.isExpression = false)
    (hw : s.wellFormed = true) (hl : s.levels ≤ depth + 1) :
    Takes (bareStatement inner) s.tokens atSemicolon fun x => x.erasePos = s.erasePos := by
  -- a statement that ends by itself may also be followed by a semicolon
  have hany : ∀ {p : Parser Node}, Takes p s.tokens anyKind (fun x => x.erasePos = s.erasePos) →
      Takes p s.tokens atSemicolon fun x => x.erasePos = s.erasePos :=
    fun hp => hp.before fun _ _ => rfl
  cases s with
  | declare name value constant pos =>
    rw [Node.wellFormed, Bool.and_eq_true] at hw
    rw [Node.levels] at hl
    rw [Node.tokens]
    refine Takes.peekCons fun t ht => ?_
    rw [ht]
    cases constant
    all_goals exact declaration_takes h name hw.1 hw.2 (by omega) pos _
  | function d =>
    obtain ⟨name, ps, body, isAsync, pos⟩ := d
    rw [Node.wellFormed, Bool.and_eq_true] at hw
    obtain ⟨f, rfl⟩ := Option.isSome_iff_exists.mp hw.1
    rw [Node.levels] at hl
    cases body with
    | block items =>
      rw [bodyLevels] at hl
      exact hany (bareStatement_function h f ps isAsync hw.2 (by omega) pos)
    | expr value => cases hw.2
  | classDecl name parent methods pos =>
    rw [Node.wellFormed] at hw
    rw [Node.levels] at hl
    refine Takes.peekCons fun t ht => ?_
    rw [ht]
    exact hany (classDecl_takes h name parent hw (by omega) pos)
  | importModule module pos =>
    rw [Node.tokens]
    refine Takes.peekCons fun t ht => ?_
    rw [ht]
    refine Takes.token (next_takes rfl) fun t' _ => ?_
    refine ((expectIdentifier_takes module _).result fun m hm => ?_).before fun _ _ => rfl
    rw [Node.erasePos, Node.erasePos, hm]
  | block items =>
    rw [Node.wellFormed] at hw
    rw [Node.levels] at hl
    exact hany (bareStatement_block h hw (by omega))
  | print args =>
    rw [Node.wellFormed] at hw
    rw [Node.levels] at hl
    refine Takes.peekCons fun t ht => ?_
    rw [ht]
    exact hany (print_takes h hw (by omega))
  | returnValue value =>
    rw [Node.wellFormed] at hw
    rw [Node.levels] at hl
    refine Takes.peekCons fun t ht => ?_
    rw [ht]
    exact returnStatement_takes h hw (by omega)
  | yieldValue e =>
    rw [Node.wellFormed, Bool.and_eq_true] at hw
    rw [Node.levels] at hl
    rw [Node.tokens]
    refine Takes.peekCons fun t ht => ?_
    rw [ht]
    refine Takes.token (next_takes rfl) fun _ _ => ?_
    refine (grouped_last h hw (by omega)).result fun x hx => ?_
    rw [Node.erasePos, Node.erasePos, hx]
  | breakLoop | continueLoop | halt =>
    rw [Node.tokens]
    refine Takes.peekCons fun t ht => ?_
    rw [ht]
    exact ((single_takes _ rfl).imp fun x hx => by rw [hx]).before fun _ _ => rfl
  | ifElse c t e =>
    refine Takes.peekCons fun t ht => ?_
    rw [ht]
    refine Takes.fuel fun tokens hlen => conditionalFuel_takes h _ rfl hw hl ?_
    rw [Node.tokens]
    omega
  | whileLoop c b =>
    simp only [Node.wellFormed, Bool.and_eq_true] at hw
    rw [Node.levels] at hl
    refine Takes.peekCons fun t ht => ?_
    rw [ht]
    exact hany (whileLoop_takes h hw.1 hw.2.1 hw.2.2 (by omega) (by omega))
  | loop b =>
    rw [Node.wellFormed, Bool.and_eq_true] at hw
    rw [Node.levels] at hl
    rw [Node.tokens]
    refine Takes.peekCons fun t ht => ?_
    rw [ht]
    refine Takes.token (next_takes rfl) fun _ _ => ?_
    refine ((branch_takes h hw.1 hw.2 hl).result fun x hx => ?_).before fun _ _ => rfl
    rw [Node.erasePos, Node.erasePos, hx]
  | forEach var i b =>
    simp only [Node.wellFormed, Bool.and_eq_true] at hw
    rw [Node.levels] at hl
    refine Takes.peekCons fun t ht => ?_
    rw [ht]
    exact hany (forLoop_takes h var hw.1 hw.2.1 hw.2.2 (by omega) (by omega))
  | tryCatch b name c =>
    simp only [Node.wellFormed, Bool.and_eq_true] at hw
    rw [Node.levels] at hl
    refine Takes.peekCons fun t ht => ?_
    rw [ht]
    exact hany (tryStatement_takes h name hw.1 hw.2 (by omega) (by omega))
  | switch subject cases default =>
    simp only [Node.wellFormed, Bool.and_eq_true] at hw
    rw [Node.levels] at hl
    refine Takes.peekCons fun t ht => ?_
    rw [ht]
    exact hany (switchStatement_takes h hw.1.1 hw.1.2 hw.2 (by omega) (by omega) (by omega))
  | program | error => cases hw
  | assign | lambda | binary | logical | unary | await | call | member | index | primitive
  | identifier | this | super | number | text | bool | null | array | map => cases hexpr

/-- Every statement with it. -/
theorem statement_takes (h : inner.Reads depth) {s : Node} (hw : s.wellFormed = true)
    (hl : s.asStatementLevels s.levels ≤ depth + 1) :
    Takes (statement inner) (s.asStatement s.tokens) anyKind
      fun x => x.erasePos = s.erasePos := by
  have hbare : Takes (bareStatement inner)
      (if s.isExpression then parenthesized s.tokens else s.tokens) atSemicolon
      fun x => x.erasePos = s.erasePos := by
    cases hexpr : s.isExpression with
    | true =>
      rw [Node.asStatementLevels, hexpr, if_pos rfl] at hl
      exact bareStatement_expression h ⟨hexpr, hw⟩ (by omega)
    | false =>
      rw [Node.asStatementLevels, hexpr] at hl
      exact bareStatement_takes h hexpr hw hl
  -- the semicolon is taken after the statement, whatever follows it
  refine hbare.bind (fun _ _ => rfl) fun x hx => ?_
  exact Takes.acceptHead rfl rfl (Takes.done hx)

end BrailleScript.Parser
