import BrailleScript.Proofs.Node.Statement

/-!
# The parser gives back what is written

Every program has a written form (`Node.tokens`), and the parser reads it as that program again,
whatever texts, offsets and positions its tokens carry: the grammar has a text for each program, and
no text stands for two of them.

The recursion of the grammar is a recursion on the levels that are left, and so is the proof:
`Level.at_reads` says that with `depth` levels left, everything that is written within `depth`
levels is given back.

## Key results

- `Level.at_reads`: each level reads what is written within it
- `program_takes`: so does the parser for whole programs
- `parse_written`: parsing a written program gives that program up to positions, and no other
  program is written the same
-/

namespace BrailleScript

open TokenKind

namespace Parser

/-- With `depth` levels left, what is written within `depth` levels is given back. -/
theorem Level.at_reads (depth : Nat) : (Level.at depth).Reads depth := by
  induction depth with
  | zero =>
    -- everything that is written needs a level
    refine ⟨fun e he hl => ?_, fun e he hl => ?_, fun e he hl => ?_, fun s hs hl => ?_⟩
    · have := Node.levels_pos he.2
      omega
    · omega
    · omega
    · have := Node.levels_pos hs
      rw [Node.asStatementLevels] at hl
      split at hl <;> omega
  | succ depth ih =>
    refine ⟨fun e he hl => ?_, fun e he hl => ?_, fun e he hl => ?_, fun s hs hl => ?_⟩
    · -- what stands inside is read one level deeper
      exact assignment_takes ih he hl
    · exact Takes.fuel fun tokens _ => assignmentFuel_group ih he (by omega) tokens.length
    · exact unary_group ih he (by omega)
    · exact statement_takes ih hs hl

/-- Statements up to the end of input. -/
theorem program_takes {items : List Node} (hw : statementsWellFormed items = true)
    (hl : statementLevels items ≤ maxNesting) :
    Takes program (statementTokens items) isEndOfInput
      fun x => x.erasePos = (Node.program items).erasePos := by
  have hmore : ∀ s, StateT.run (do return !(← atEnd) : Parser Bool) s
      = .ok (!(headKind s).isEndOfInput, s) := fun s => by
    rw [run_bind_ok (run_atEnd s)]
    rfl
  have hitem : ∀ s ∈ items, Takes (Level.at maxNesting).statement (s.asStatement s.tokens) anyKind
      fun x => x.erasePos = s.erasePos := by
    intro s hs
    exact (Level.at_reads maxNesting).statement s (statementsWellFormed_mem hw hs)
      (Nat.le_trans (asStatementLevels_le_of_mem hs) hl)
  -- no statement begins with the end of the input
  have hhead : ∀ s ∈ items, ∃ k ks, s.asStatement s.tokens = k :: ks ∧
      k.isEndOfInput = false ∧ anyKind k = true := by
    intro s hs
    obtain ⟨k, ks, hks, hk⟩ := Node.asStatement_head (statementsWellFormed_mem hw hs)
    refine ⟨k, ks, hks, ?_, rfl⟩
    rcases hk with ⟨w, rfl⟩ | rfl | rfl <;> rfl
  rw [statementTokens_eq_flatMap]
  refine (repeatWhile_takes hmore hitem hhead fun _ _ => rfl).result fun xs hxs => ?_
  rw [Node.erasePos, Node.erasePos, eraseAll_eq_map, eraseAll_eq_map, hxs]

/-! ## Whole programs -/

/-- Written statements end with semicolons. -/
theorem getLast?_statementTokens (items : List Node) :
    ∀ k ∈ (statementTokens items).getLast?, k = .delimiter .semicolon := by
  induction items with
  | nil => nofun
  | cons s rest ih =>
    intro k hk
    rw [statementTokens, List.getLast?_append, Option.mem_def, Option.or_eq_some_iff] at hk
    -- the last token is that of the last statement
    rcases hk with hk | ⟨-, hk⟩
    · exact ih k hk
    · rw [Node.asStatement, List.getLast?_concat, Option.some.injEq] at hk
      exact hk.symm

/-- Before a written program is parsed, only the end of input is added. -/
theorem prepare_written {items : List Node} {tokens : List Token}
    (h : tokens.map (·.kind) = statementTokens items) :
    ∃ t : Token, t.kind = .endOfInput ∧ prepare tokens = tokens ++ [t] := by
  -- a written program has no comments
  have hkept : tokens.filter (!·.kind.isComment) = tokens := by
    refine List.filter_eq_self.mpr fun t ht => ?_
    have hall : noComment (tokens.map (·.kind)) = true := h ▸ noComment_statements items
    exact List.all_eq_true.mp hall t.kind (List.mem_map_of_mem ht)
  cases hlast : tokens.getLast? with
  | none =>
    rw [List.getLast?_eq_none_iff.mp hlast]
    exact ⟨_, rfl, rfl⟩
  | some t =>
    have ht : t.kind ∈ (statementTokens items).getLast? := by
      rw [← h, List.getLast?_map, hlast]
      rfl
    -- the last token is a semicolon, so the end of input is not there yet
    simp only [prepare, hkept, hlast, getLast?_statementTokens items t.kind ht]
    exact ⟨_, rfl, rfl⟩

/-- A written program is parsed, and gives the program back. -/
theorem parse_program {items : List Node} (hw : statementsWellFormed items = true)
    (hl : statementLevels items ≤ maxNesting) {tokens : List Token}
    (h : tokens.map (·.kind) = statementTokens items) :
    ∃ n, parse tokens = .ok n ∧ n.erasePos = (Node.program items).erasePos := by
  obtain ⟨t, ht, hprepare⟩ := prepare_written h
  -- only the end of input stands behind the program
  have hend : (headKind [t]).isEndOfInput = true := by
    rw [headKind, ht]
    rfl
  obtain ⟨n, hn, herase⟩ := program_takes hw hl tokens [t] h hend
  refine ⟨n, ?_, herase⟩
  rw [parse, hprepare, hn]
  rfl

end Parser

/-- Every program within the nesting limit is the result of parsing its written form, up to
positions; the tokens may carry any texts, offsets and positions.  No other program is written the
same. -/
theorem parse_written {program : Node} (hw : program.isProgram = true)
    (hl : program.levels ≤ Parser.maxNesting) {tokens : List Token}
    (htokens : tokens.map (·.kind) = program.tokens) :
    (∃ n, parse tokens = .ok n ∧ n.erasePos = program.erasePos) ∧
      ∀ other : Node, other.isProgram = true → other.levels ≤ Parser.maxNesting →
        other.tokens = program.tokens → other.erasePos = program.erasePos := by
  have hparse : ∀ p : Node, p.isProgram = true → p.levels ≤ Parser.maxNesting →
      tokens.map (·.kind) = p.tokens → ∃ n, parse tokens = .ok n ∧ n.erasePos = p.erasePos := by
    intro p hp hlevels hp'
    cases p with
    | program items =>
      rw [Node.isProgram] at hp
      rw [Node.levels] at hlevels
      rw [Node.tokens] at hp'
      exact Parser.parse_program hp hlevels hp'
    | _ => cases hp
  obtain ⟨n, hn, herase⟩ := hparse program hw hl htokens
  refine ⟨⟨n, hn, herase⟩, fun other ho hlo hsame => ?_⟩
  -- the other program is the result of parsing the same tokens
  obtain ⟨m, hm, hother⟩ := hparse other ho hlo (htokens.trans hsame.symm)
  rw [hn] at hm
  cases hm
  rw [← hother, herase]

/-- A program with the forms that lookahead must tell apart: lambdas and groups, maps and blocks,
functions with and without a name, chained conditionals. -/
def lookaheads : Node :=
  let x := Node.identifier "x" .start
  let f := Node.identifier "f" .start
  .program
    [ .declare "f" (some (.lambda ⟨none, ["x"], .expr (.binary .plus x (.text "!") .start), false,
        .start⟩)) true .start,
      .function ⟨some "g", ["x", "y"], .block [.returnValue (some (.call f [x] .start))], true,
        .start⟩,
      .declare "h" (some (.lambda ⟨none, [], .block [.yieldValue x], true, .start⟩)) false .start,
      .map [],
      .block [],
      .assign (.member x "value" .start) (.map [(.text "x", x), (.text "f", f)]) .start,
      .ifElse (.unary .not x .start) (.block [.print [x, f]])
        (some (.ifElse f (.block [x]) (some (.block [])))),
      .forEach "x" (.array [x, f]) (.block [.breakLoop]) ]

/-- Where the parser has to look ahead, the program is read back too. -/
theorem parse_written_lookaheads :
    ∃ n, parse (lookaheads.tokens.map fun k => ⟨k, "", 0, .start⟩) = .ok n ∧
      n.erasePos = lookaheads.erasePos :=
  (@parse_written lookaheads rfl (by decide) _ (by rw [List.map_map]; exact List.map_id _)).1

end BrailleScript
