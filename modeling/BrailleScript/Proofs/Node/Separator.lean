import BrailleScript.Proofs.Node.Steady

/-!
# Semicolons separate programs

The statements of a program are parsed alike with a semicolon and another program behind them, since
the parsers of every level agree there.  The last statement takes the semicolon if it has none of its
own, and the statements behind it are those of the other program.

## Key results

- `statement_takes_semicolon`, `statements_separated`: statements up to the semicolon
- `statements_settle`: statements up to the end of input
- `parse_separated`: two programs with a semicolon between them
-/

namespace BrailleScript

namespace Parser

variable {b : Boundary} {before : List Token} {t : Token}

/-! ## Statements -/

/-- A parser that moves leaves fewer tokens. -/
theorem Moves.length_le {α : Type} {k : Nat} {p : Parser α} (hp : Moves k p) {eof : Token}
    (hupto : Upto before eof) {x : α} {left : List Token}
    (hrun : p.run (before ++ [eof]) = .ok (x, left ++ [eof])) : left.length + k ≤ before.length := by
  obtain ⟨o, ho, hrun'⟩ := hp 0 before eof hupto
  rw [hrun' 0 (Nat.le_refl 0) []] at hrun
  -- the parser has settled on what is left, whatever stands behind it
  cases o with
  | error e => exact nomatch hrun
  | ok r =>
    have hleft := (Prod.mk.inj (Except.ok.inj hrun)).2
    exact List.append_cancel_right hleft ▸ ho.2

/-- At the end of input there are no more statements. -/
theorem run_repeatFuel_atEnd {item : Parser Node} {eof : Token} (heof : eof.kind = .endOfInput)
    (m : Nat) : (repeatFuel (do return !(← atEnd)) item (m + 1)).run [eof] = .ok ([], [eof]) := by
  rw [repeatFuel, run_bind_ok (run_bind_ok (run_atEnd _)), headKind, heof]
  rfl

/-- So none are read there. -/
theorem repeatFuel_eq_nil {item : Parser Node} {eof : Token} (heof : eof.kind = .endOfInput) {m : Nat}
    {items : List Node} {s : List Token}
    (hrun : (repeatFuel (do return !(← atEnd)) item m).run [eof] = .ok (items, s)) : items = [] := by
  -- without fuel the repetition fails
  cases m with
  | zero =>
    obtain ⟨_, _, -, hfail⟩ := exists_run_of_bind hrun
    exact nomatch hfail
  | succ m =>
    rw [run_repeatFuel_atEnd heof] at hrun
    cases hrun
    rfl

/-- Changing a result changes the outcome of the run. -/
theorem run_result {α β : Type} (p : Parser α) (f : α → β) (s : List Token) :
    (p >>= fun x => pure (f x)).run s = (p.run s).map fun r => (f r.1, r.2) := by
  rw [StateT.run_bind]
  cases p.run s <;> rfl

/-- Tokens that are gone once a semicolon may be taken are none, if the last of them is no semicolon. -/
theorem eq_nil_of_accept {left : List Token} {taken : Bool}
    (hlast : ∀ t ∈ left.getLast?, t.kind ≠ .delimiter .semicolon)
    (haccept : (acceptDelim .semicolon).run (left ++ [b.eof]) = .ok (taken, [b.eof])) : left = [] := by
  -- one token that is left would be the semicolon
  cases left with
  | nil => rfl
  | cons t rest =>
    cases ht : t.kind.isDelimiter .semicolon with
    | false =>
      rw [acceptDelim, run_accept_not (s := t :: rest ++ [b.eof]) ht] at haccept
      simpa using (Prod.mk.inj (Except.ok.inj haccept)).2
    | true =>
      have hkind := eq_of_isDelimiter ht
      rw [acceptDelim, List.cons_append, run_accept_cons ht (by rw [hkind]; rfl)] at haccept
      obtain rfl : rest = [] := by simpa using (Prod.mk.inj (Except.ok.inj haccept)).2
      exact absurd hkind (hlast t rfl)

section

variable {inner : Level} (h : inner.Agrees b)
include h

/-- The last statement takes the semicolon behind it if it has none of its own. -/
theorem statement_takes_semicolon {node : Node}
    (hlast : ∀ t ∈ before.getLast?, t.kind ≠ .delimiter .semicolon)
    (hrun : (Parser.statement inner).run (before ++ [b.eof]) = .ok (node, [b.eof])) :
    (Parser.statement inner).run (before ++ b.semicolon :: b.after) = .ok (node, b.after) := by
  obtain ⟨node', s', hbare, hrun⟩ := exists_run_of_bind hrun
  obtain ⟨left, rfl, hleft, hbare'⟩ := bareStatement_steady h before node' s' hbare
  obtain ⟨taken, s'', haccept, hrun⟩ := exists_run_of_bind hrun
  cases hrun
  -- nothing of the first text is left, as it was parsed to its end
  obtain rfl : left = [] := by
    obtain ⟨front, rfl⟩ := hleft
    exact eq_nil_of_accept (fun t ht => hlast t (List.mem_getLast?_append_of_mem_getLast? ht)) haccept
  have hsemicolon : (acceptDelim .semicolon).run (b.semicolon :: b.after) = .ok (true, b.after) :=
    run_accept_cons (by rw [b.isSemicolon]; rfl) (by rw [b.isSemicolon]; rfl) b.after
  rw [Parser.statement, run_bind_ok (hbare' (.inl trivial)), List.nil_append,
    run_bind_ok hsemicolon]
  rfl

/-- The statements in front of the semicolon are those in front of the end of input, and behind it
the tokens are read on. -/
theorem statements_separated {m : Nat} {items : List Node} {s : List Token} (hne : before ≠ [])
    (hend : ∀ t ∈ before, t.kind.isEndOfInput = false)
    (hlast : ∀ t ∈ before.getLast?, t.kind ≠ .delimiter .semicolon)
    (hrun : (repeatFuel (do return !(← atEnd)) (Parser.statement inner) m).run (before ++ [b.eof]) =
      .ok (items, s)) {n : Nat} (hn : before.length + b.after.length < n) :
    ∃ k, b.after.length < k ∧
      (repeatFuel (do return !(← atEnd)) (Parser.statement inner) n).run
        (before ++ b.semicolon :: b.after) =
      ((repeatFuel (do return !(← atEnd)) (Parser.statement inner) k).run b.after).map
        fun r => (items ++ r.1, r.2) := by
  -- on the fuel of the run in front of the end of input: each round takes a statement off both lists
  induction m generalizing before items n with
  | zero =>
    obtain ⟨_, _, -, hfail⟩ := exists_run_of_bind hrun
    exact nomatch hfail
  | succ m ih =>
    obtain ⟨n, rfl⟩ : ∃ k, n = k + 1 := ⟨n - 1, by omega⟩
    -- there is a statement, since there is a token
    have hmore (tokens : List Token) : (do return !(← atEnd) : Parser Bool).run (before ++ tokens) =
        .ok (true, before ++ tokens) := by
      obtain ⟨t, rest, rfl⟩ := List.exists_cons_of_ne_nil hne
      rw [run_bind_ok (run_atEnd _), List.cons_append, headKind, hend t List.mem_cons_self]
      rfl
    rw [repeatFuel, run_bind_ok (hmore _), if_pos rfl] at hrun ⊢
    obtain ⟨node, s', hnode, hrun⟩ := exists_run_of_bind hrun
    obtain ⟨left, rfl, hleft, hnode'⟩ := statement_steady h before node s' hnode
    obtain ⟨nodes, s'', hnodes, hrun⟩ := exists_run_of_bind hrun
    cases hrun
    have hlength := (statement_moves h.moves).length_le ⟨b.isEnd, hend⟩ hnode
    by_cases hnil : left = []
    · -- the last statement in front of the semicolon
      subst hnil
      obtain rfl := repeatFuel_eq_nil b.isEnd hnodes
      refine ⟨n, by omega, ?_⟩
      rw [run_bind_ok (statement_takes_semicolon h hlast hnode), run_result]
      rfl
    · obtain ⟨front, rfl⟩ := hleft
      obtain ⟨k, hk, hrun'⟩ := ih hnil (fun t ht => hend t (List.mem_append_right front ht))
        (fun t ht => hlast t (List.mem_getLast?_append_of_mem_getLast? ht)) hnodes (n := n) (by omega)
      refine ⟨k, hk, ?_⟩
      rw [run_bind_ok (hnode' (.inr hnil)), run_result, hrun']
      cases StateT.run (repeatFuel _ _ k) b.after <;> rfl

end

/-! ## Whole programs -/

/-- The end of input that is put behind the tokens. -/
def endBehind (tokens : List Token) : Token :=
  { kind := .endOfInput, raw := "", offset := 0, pos := (tokens.getLast?.map (·.pos)).getD ⟨1, 1⟩ }

/-- The end of input that is put behind some tokens comes from the last of them. -/
theorem endBehind_append (front : List Token) {back : List Token} (hback : back ≠ []) :
    endBehind (front ++ back) = endBehind back := by
  rw [endBehind, List.getLast?_append_of_ne_nil front hback, ← endBehind]

/-- Leaving comments out adds no end of input. -/
theorem kept_noEnd {tokens : List Token} (h : ∀ t ∈ tokens, t.kind ≠ .endOfInput) :
    ∀ t ∈ tokens.filter (!·.kind.isComment), t.kind.isEndOfInput = false :=
  fun t ht => Bool.eq_false_iff.2 fun hend => h t (List.mem_of_mem_filter ht) (eq_endOfInput hend)

/-- Tokens without an end of input get one behind them. -/
theorem prepare_of_noEnd {tokens : List Token} (h : ∀ t ∈ tokens, t.kind ≠ .endOfInput) :
    prepare tokens = tokens.filter (!·.kind.isComment) ++
      [endBehind (tokens.filter (!·.kind.isComment))] := by
  rw [prepare, endBehind]
  cases hlast : (tokens.filter (!·.kind.isComment)).getLast? with
  | none => rw [List.getLast?_eq_none_iff.1 hlast]; rfl
  | some t =>
    simp only [kept_noEnd h t (List.mem_of_getLast? hlast), Bool.false_eq_true, if_false,
      Option.map_some, Option.getD_some]

/-- The statements of a program, with fuel for one round more than there are tokens. -/
theorem parse_eq_ok_iff {tokens : List Token} {items : List Node} :
    parse tokens = .ok (.program items) ↔ ∃ s, (repeatFuel (do return !(← atEnd))
      (Level.at maxNesting).statement ((prepare tokens).length + 1)).run (prepare tokens) =
        .ok (items, s) := by
  -- the fuel is one more than there are tokens
  have hwhile : (repeatWhile (do return !(← atEnd)) (Level.at maxNesting).statement).run
      (prepare tokens) = (repeatFuel (do return !(← atEnd)) (Level.at maxNesting).statement
        ((prepare tokens).length + 1)).run (prepare tokens) := run_bind_ok (run_get _)
  rw [parse, program, run_result, hwhile]
  cases StateT.run (repeatFuel _ _ _) (prepare tokens) with
  | error e => simp [Except.map]
  | ok r => simp [Except.map, Prod.ext_iff]

/-- Statements come to the same with more fuel, and wherever the end of input behind them says to be. -/
theorem statements_settle {item : Parser Node} (hitem : Moves 1 item) {tokens : List Token}
    (hend : ∀ t ∈ tokens, t.kind.isEndOfInput = false) {m : Nat} (hm : tokens.length < m)
    {items : List Node} {s : List Token}
    (hrun : (repeatFuel (do return !(← atEnd)) item m).run (tokens ++ [endBehind tokens]) =
      .ok (items, s)) (front : List Token) {k : Nat} (hk : tokens.length < k) :
    ∃ s', (repeatFuel (do return !(← atEnd)) item k).run
      (tokens ++ [endBehind (front ++ tokens)]) = .ok (items, s') := by
  by_cases hnil : tokens = []
  · -- the end of input is another one then, but it ends the statements all the same
    subst hnil
    obtain ⟨k, rfl⟩ : ∃ n, k = n + 1 := ⟨k - 1, (Nat.succ_pred_eq_of_pos hk).symm⟩
    rw [repeatFuel_eq_nil rfl hrun]
    exact ⟨_, run_repeatFuel_atEnd rfl k⟩
  · rw [endBehind_append front hnil]
    have hmore : Moves 0 (do return !(← atEnd) : Parser Bool) := atEnd_moves.bind fun _ => .pure _
    have hupto : Upto tokens (endBehind tokens) := ⟨rfl, hend⟩
    obtain ⟨o, -, ho⟩ := repeatFuel_settles hmore hitem tokens hupto
    rw [ho m hm []] at hrun
    rw [ho k hk []]
    exact ⟨s, hrun⟩

/-- **A semicolon separates programs.**  The statements of two programs with a semicolon between them
are those of the first and those of the second, if the first has a statement and does not end with a
semicolon itself. -/
theorem parse_separated {front back : List Token} {semicolon : Token} {items more : List Node}
    (hfront : ∀ t ∈ front, t.kind ≠ .endOfInput) (hback : ∀ t ∈ back, t.kind ≠ .endOfInput)
    (hsemicolon : semicolon.kind = .delimiter .semicolon) (hitems : items ≠ [])
    (hlast : ∀ t ∈ (front.filter (!·.kind.isComment)).getLast?, t.kind ≠ .delimiter .semicolon)
    (hparse : parse front = .ok (.program items)) (hmore : parse back = .ok (.program more)) :
    parse (front ++ [semicolon] ++ back) = .ok (.program (items ++ more)) := by
  have hkept : (front ++ [semicolon] ++ back).filter (!·.kind.isComment) =
      front.filter (!·.kind.isComment) ++ [semicolon] ++ back.filter (!·.kind.isComment) := by
    simp [hsemicolon, TokenKind.isComment]
  have hsemicolon' : semicolon.kind ≠ .endOfInput := by simp [hsemicolon]
  have hprepare := prepare_of_noEnd (List.forall_mem_append.2
    ⟨List.forall_mem_append.2 ⟨hfront, List.forall_mem_singleton.2 hsemicolon'⟩, hback⟩)
  obtain ⟨s, hrun⟩ := parse_eq_ok_iff.1 hparse
  obtain ⟨s', hrun'⟩ := parse_eq_ok_iff.1 hmore
  rw [prepare_of_noEnd hfront] at hrun
  rw [prepare_of_noEnd hback] at hrun'
  have hend := kept_noEnd hfront
  have hend' := kept_noEnd hback
  -- from here on only the tokens that are no comments play a part
  rw [parse_eq_ok_iff, hprepare, hkept]
  generalize front.filter (!·.kind.isComment) = first at *
  generalize back.filter (!·.kind.isComment) = second at *
  have hne : first ≠ [] := by
    -- without a token there is no statement
    rintro rfl
    exact hitems (repeatFuel_eq_nil rfl hrun)
  let b : Boundary := ⟨endBehind first, semicolon,
    second ++ [endBehind (first ++ [semicolon] ++ second)], rfl, hsemicolon⟩
  obtain ⟨k, hk, hseparated⟩ := statements_separated (b := b) (Level.at_agrees 255) hne hend hlast hrun
    (n := (first ++ [semicolon] ++ second ++ [endBehind (first ++ [semicolon] ++ second)]).length + 1)
    (by simp only [b, List.length_append, List.length_singleton]; omega)
  have hk' : second.length < k := Nat.lt_of_succ_lt (by simpa [b] using hk)
  obtain ⟨s'', hrest⟩ := statements_settle (Level.at_moves maxNesting).statement hend'
    (by simp only [List.length_append]; omega) hrun' (first ++ [semicolon]) hk'
  refine ⟨s'', ?_⟩
  rw [List.append_assoc, List.append_assoc] at hseparated ⊢
  exact hseparated.trans (congrArg _ hrest)

/-- A name with a comment behind it, and a name in parentheses.  The semicolon keeps the second from
being the argument of a call. -/
theorem parse_separated_parentheses :
    let name (x : String) (col : Nat) : Token := ⟨.identifier x, x, 0, ⟨1, col⟩⟩
    let sign (d : Delimiter) (col : Nat) : Token := ⟨.delimiter d, "", 0, ⟨1, col⟩⟩
    let front := [name "f" 1, ⟨.comment "", "", 0, ⟨1, 2⟩⟩]
    let back := [sign .parenOpen 4, name "x" 5, sign .parenClose 6]
    parse (front ++ [sign .semicolon 3] ++ back) =
        .ok (.program [.identifier "f" ⟨1, 1⟩, .identifier "x" ⟨1, 5⟩]) ∧
      parse (front ++ back) =
        .ok (.program [.call (.identifier "f" ⟨1, 1⟩) [.identifier "x" ⟨1, 5⟩] ⟨1, 4⟩]) := by
  intro name sign front back
  have hfront : parse front = .ok (.program [.identifier "f" ⟨1, 1⟩]) := by rfl
  have hback : parse back = .ok (.program [.identifier "x" ⟨1, 5⟩]) := by rfl
  -- without the semicolon the parser is run
  refine ⟨parse_separated ?_ ?_ rfl (by simp) ?_ hfront hback, by rfl⟩
  · simp [front, name]
  · simp [back, name, sign]
  · simp [front, name, TokenKind.isComment]

end Parser

end BrailleScript
