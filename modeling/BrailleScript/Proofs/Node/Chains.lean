import BrailleScript.Proofs.Completeness
import BrailleScript.Proofs.Node.Bounds

/-!
# Chains that go on at one level

An assignment goes on to its value, a short lambda to its body and a conditional to the one behind
its `else` without going a level further in.  Each of them takes a token of its own to go on, and a
row in a parsed program is no longer than there are such tokens.  The nesting limit is no bound on
it: a conditional may have any number of alternatives.

## Key results

- `rows_le_chainLinks`: the rows of a parsed program
- `exists_parse_alternatives`: rows of every length are parsed
- `rows_beyond_nesting`: no multiple of the nesting limit bounds them
-/

namespace BrailleScript

namespace Parser

/-- Rows go on no more often than there are assignment signs, arrows and `else` in front of the end
of input. -/
theorem rows_le_chainLinks {tokens : List Token} {n : Node} (h : parse tokens = .ok n) :
    n.RowsLe (chainLinks tokens) :=
  (parse_spans h).2.rows

/-- In two assignments, the value of the last is gone on to twice. -/
theorem rows_le_chainLinks_assignments :
    let x : Token := ⟨.identifier "x", "", 0, .start⟩
    let sign : Token := ⟨.operator .assign, "", 0, .start⟩
    ∃ n, parse [x, sign, x, sign, x] = .ok n ∧ n.RowsLe 2 := by
  intro x sign
  let e := Node.identifier "x" .start
  have hparse : parse [x, sign, x, sign, x] =
      .ok (.program [.assign e (.assign e e .start) .start]) := by
    rfl
  exact ⟨_, hparse, rows_le_chainLinks hparse⟩

/-- A conditional with `m` more behind each other's `else`. -/
def alternatives : Nat → Node
  | 0 => .ifElse .null (.block []) none
  | m + 1 => .ifElse .null (.block []) (some (alternatives m))

/-- A row of alternatives is a condition. -/
theorem alternatives_isConditional (m : Nat) : (alternatives m).isConditional = true := by
  cases m <;> rfl

/-- It is well-formed. -/
theorem alternatives_wellFormed (m : Nat) : (alternatives m).wellFormed = true := by
  induction m with
  | zero => rfl
  | succ m ih =>
    -- behind `else` stands the next condition
    have helse : elseWellFormed (some (alternatives m)) = true := by
      rw [elseWellFormed, alternatives_isConditional, ih, Bool.or_true, Bool.and_self]
    rw [alternatives, Node.wellFormed, helse]
    rfl

/-- The levels stay the same however many alternatives there are. -/
theorem alternatives_levels (m : Nat) : (alternatives m).levels = 3 := by
  induction m with
  | zero => rfl
  | succ m ih =>
    rw [alternatives, Node.levels, elseLevels, ih]
    rfl

/-- What is parsed as one is a condition. -/
theorem exists_ifElse_of_erasePos {n : Node} {m : Nat}
    (h : n.erasePos = (alternatives m).erasePos) : ∃ c t e, n = .ifElse c t e := by
  cases n with
  | ifElse c t e => exact ⟨c, t, e, rfl⟩
  | _ => cases m <;> cases h

/-- A node that has alternatives, up to positions, goes on for each of them. -/
theorem exists_row_of_erasePos {n : Node} {m : Nat} (h : n.erasePos = (alternatives m).erasePos) :
    ∃ row, row.head? = some n ∧ Node.IsRow row ∧ row.length = m + 1 := by
  induction m generalizing n with
  | zero => exact ⟨[n], rfl, .singleton n, rfl⟩
  | succ m ih =>
    obtain ⟨c, t, e, rfl⟩ := exists_ifElse_of_erasePos h
    simp only [alternatives, Node.erasePos, Node.ifElse.injEq] at h
    cases e with
    | none => cases h.2.2
    | some e =>
      -- what is behind `else` has the other alternatives, so the node goes on to it
      have he := Option.some.inj h.2.2
      obtain ⟨row, hhead, hrow, hlen⟩ := ih he
      obtain ⟨rest, rfl⟩ := List.head?_eq_some_iff.1 hhead
      obtain ⟨c', t', e', rfl⟩ := exists_ifElse_of_erasePos he
      refine ⟨_ :: _ :: rest, rfl, List.isChain_cons_cons.2 ⟨rfl, hrow⟩, ?_⟩
      rw [List.length_cons, hlen]

/-- A program is parsed in which a row goes on `m` times. -/
theorem exists_parse_alternatives (m : Nat) :
    ∃ tokens n row, parse tokens = .ok (.program [n]) ∧ row.head? = some n ∧ Node.IsRow row ∧
      row.length = m + 1 := by
  have hwell : statementsWellFormed [alternatives m] = true := by
    rw [statementsWellFormed, alternatives_wellFormed]
    rfl
  have hlevels : statementLevels [alternatives m] ≤ maxNesting := by
    have hstatement : (alternatives m).isExpression = false := by cases m <;> rfl
    rw [statementLevels, Node.asStatementLevels, hstatement, alternatives_levels]
    decide
  let tokens := (statementTokens [alternatives m]).map fun k => (⟨k, "", 0, .start⟩ : Token)
  have htokens : tokens.map (·.kind) = statementTokens [alternatives m] := by
    rw [List.map_map]
    exact List.map_id _
  obtain ⟨p, hp, herase⟩ := parse_program hwell hlevels htokens
  -- the program has the one statement
  obtain ⟨items, rfl⟩ : ∃ items, p = .program items := by
    cases p with
    | program items => exact ⟨items, rfl⟩
    | _ => cases herase
  rw [Node.erasePos, Node.erasePos, Node.program.injEq, eraseAll_eq_map, eraseAll_eq_map] at herase
  obtain ⟨n, rfl, hn⟩ := List.map_eq_singleton_iff.1 herase
  obtain ⟨row, hrow⟩ := exists_row_of_erasePos hn
  exact ⟨tokens, n, row, hp, hrow⟩

/-- No multiple of the nesting limit bounds the rows of parsed programs. -/
theorem rows_beyond_nesting :
    ¬ ∃ K, ∀ tokens n, parse tokens = .ok n → n.RowsLe (K * maxNesting) := by
  rintro ⟨K, h⟩
  obtain ⟨tokens, n, row, hn, hhead, hrow, hlen⟩ := exists_parse_alternatives (K * maxNesting + 1)
  have hle := h tokens (.program [n]) hn n row (.child (.head _)) hhead hrow
  omega

end Parser

end BrailleScript
