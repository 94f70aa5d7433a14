import BrailleScript.Proofs.Node.Counter
import BrailleScript.Proofs.Node.Nesting

/-!
# Bounds on parsed programs

A program is parsed from the tokens in front of the first end of input, with all levels there are.
So what holds of the highest level holds of every program that is parsed: its brackets are at most
two for each level, its prefix operators at most one, and its rows no longer than there are links.

## Key results

- `beforeEnd_prepare`: comments are all that is dropped in front of the first end of input
- `parse_spans`: the brackets and the measures of a parsed program
- `nesting_bounded`: the nesting counter, the open brackets and the prefix operators
-/

namespace BrailleScript

/-! ## Tokens in front of the end -/

/-- A comment turns no bracket. -/
theorem TokenKind.turn_of_isComment {k : TokenKind} (h : k.isComment = true) (w : List Delimiter) :
    k.turn w = some w := by
  cases k with
  | comment => rfl
  | _ => cases h

/-- Comments open and close nothing. -/
theorem awaited_filter (w : List Delimiter) (ts : List Token) :
    awaited w (ts.filter (!·.kind.isComment)) = awaited w ts := by
  induction ts generalizing w with
  | nil => rfl
  | cons t ts ih =>
    -- a comment is left out and turns no bracket
    cases ht : t.kind.isComment with
    | true =>
      rw [List.filter_cons_of_neg (by simp [ht]), ih, awaited, awaited, List.foldlM_cons,
        TokenKind.turn_of_isComment ht]
      rfl
    | false =>
      rw [List.filter_cons_of_pos (by simp [ht]), awaited, awaited, List.foldlM_cons,
        List.foldlM_cons]
      exact congrArg _ (funext fun w => ih w)

namespace Parser

/-- In front of the first end of input, comments are all that is dropped. -/
theorem beforeEnd_prepare (tokens : List Token) :
    beforeEnd (prepare tokens) = (beforeEnd tokens).filter (!·.kind.isComment) := by
  -- a comment is no end of input
  have hkept : beforeEnd (tokens.filter (!·.kind.isComment)) =
      (beforeEnd tokens).filter (!·.kind.isComment) := by
    rw [beforeEnd, beforeEnd, List.takeWhile_filter]
    congr 2
    funext t
    cases t.kind <;> rfl
  have hend (kept : List Token) (t : Token) (ht : t.kind = .endOfInput) :
      beforeEnd (kept ++ [t]) = beforeEnd kept := by
    induction kept with
    | nil => simp [beforeEnd, ht, TokenKind.isEndOfInput]
    | cons u kept ih =>
      rw [beforeEnd, beforeEnd] at ih ⊢
      rw [List.cons_append, List.takeWhile_cons, List.takeWhile_cons, ih]
  unfold prepare
  dsimp only
  split
  next t _ =>
    split
    · exact hkept
    · exact (hend _ _ rfl).trans hkept
  next hnone =>
    rw [← hkept, List.getLast?_eq_none_iff.1 hnone]
    rfl

/-- Comments are no links of a chain. -/
theorem chainLinks_prepare (tokens : List Token) :
    chainLinks (prepare tokens) = chainLinks tokens := by
  rw [chainLinks, chainLinks, beforeEnd_prepare, List.countP_filter]
  congr 1
  funext t
  -- a link is no comment
  cases t.kind <;> simp [TokenKind.isChainLink, TokenKind.isComment]

/-- The end of input is where it is met first. -/
theorem beforeEnd_append {ts s : List Token} (hts : ∀ t ∈ ts, t.kind.isEndOfInput = false)
    (hs : (headKind s).isEndOfInput = true) : beforeEnd (ts ++ s) = ts := by
  induction ts with
  | nil =>
    cases s with
    | nil => rfl
    | cons t s => exact List.takeWhile_cons_of_neg (by simpa [headKind] using hs)
  | cons t ts ih =>
    rw [List.forall_mem_cons] at hts
    rw [List.cons_append, beforeEnd_cons hts.1, ih hts.2]

/-! ## Parsed programs -/

/-- Items that go on to the end of input leave nothing in front of it. -/
theorem repeatFuel_atEnd {α : Type} {item : Parser α} {fuel : Nat} {s s' : List Token} {xs : List α}
    (h : (repeatFuel (do return !(← atEnd)) item fuel).run s = .ok (xs, s')) :
    (headKind s').isEndOfInput = true := by
  -- the fuel only runs out in failure
  induction fuel generalizing s xs with
  | zero =>
    obtain ⟨t, s₁, -, h⟩ := exists_run_of_bind h
    exact nomatch h
  | succ fuel ih =>
    obtain ⟨more, s₁, hmore, h⟩ := exists_run_of_bind h
    rw [run_bind_ok (run_atEnd s)] at hmore
    cases hmore
    cases hend : (headKind s).isEndOfInput with
    | true =>
      rw [hend] at h
      cases h
      exact hend
    | false =>
      rw [hend] at h
      obtain ⟨x, s₂, -, h⟩ := exists_run_of_bind h
      obtain ⟨xs, s₃, hrest, h⟩ := exists_run_of_bind h
      cases h
      exact ih hrest

/-- A program is parsed up to the end of input. -/
theorem program_atEnd {s s' : List Token} {n : Node} (h : Parser.program.run s = .ok (n, s')) :
    (headKind s').isEndOfInput = true := by
  obtain ⟨items, s₁, hitems, hn⟩ := exists_run_of_bind h
  cases hn
  obtain ⟨tokens, s₂, hget, hfuel⟩ := exists_run_of_bind hitems
  exact repeatFuel_atEnd hfuel

/-- Its rows are bounded by the links ahead, and its brackets by the nesting. -/
theorem program_spans (K : Nat) :
    Spans K (2 * maxNesting) [] Parser.program (·.Bounded maxNesting K) := by
  have hmore : Looks (do return !(← atEnd) : Parser Bool) := atEnd_looks.bind fun _ => .pure _
  refine (repeatWhile_spans hmore ((Level.at_spans maxNesting).statement K)).bind (Nat.le_refl _)
    fun items hitems => .pure ?_
  exact .node rfl rfl (by simpa using hitems)

/-- The brackets in front of the end of input, and the measures of the program. -/
theorem parse_spans {tokens : List Token} {n : Node} (h : parse tokens = .ok n) :
    Closes (2 * maxNesting) [] (beforeEnd (prepare tokens)) ∧
      n.Bounded maxNesting (chainLinks tokens) := by
  unfold parse at h
  cases hrun : Parser.program.run (prepare tokens) with
  | error e =>
    rw [hrun] at h
    exact nomatch h
  | ok o =>
    rw [hrun] at h
    obtain rfl : o.1 = n := Except.ok.inj h
    obtain ⟨ts, hts, hcloses, hbounded⟩ :=
      program_spans (chainLinks tokens) _ (Nat.le_of_eq (chainLinks_prepare tokens)) o.1 o.2 hrun
    rw [List.length_nil, Nat.zero_add] at hcloses
    -- all that stands in front of the end of input is taken
    rw [hts, beforeEnd_append hcloses.noEnd (program_atEnd hrun)]
    exact ⟨hcloses, hbounded⟩

/-! ## Nesting -/

/-- Nesting is bounded on the tokens. -/
structure NestingBounded (tokens : List Token) : Prop where
  /-- Every parser of the grammar can be run with a counter in place of the levels that are left.
  It comes to the same, the counter is not above the limit at any time, and at the end, be that in
  an error or not, it is what it was at the start. -/
  counter : ∃ plans : Guarded → Plan Node, (∀ g, (plans g).Describes g.rule) ∧
    ∀ {α : Type} (P : Level → Parser α), Rule P → ∃ plan : Plan α, plan.Describes P ∧
      ∀ fuel (c : Counter), c.Within → maxNesting - c.depth < fuel → ∀ s, s <:+ prepare tokens →
        ∃ c' : Counter, plan.count (guarded plans fuel) s c =
            ((P (Level.at (maxNesting - c.depth))).run s, c') ∧
          c'.depth = c.depth ∧ c'.Within
  /-- Brackets match in front of the end of input, and at no point are more than two open for each
  level. -/
  brackets : ∀ n, parse tokens = .ok n → ∀ front, front <+: beforeEnd tokens →
    ∃ w, awaited [] front = some w ∧ w.length ≤ 2 * maxNesting
  /-- On no way down from the root are more prefix operators than levels. -/
  prefixes : ∀ n, parse tokens = .ok n → ∀ path, path.head? = some n → Node.IsPath path →
    path.countP Node.isPrefixed ≤ maxNesting

/-- On every token list the nesting is bounded. -/
theorem nesting_bounded (tokens : List Token) : NestingBounded tokens := by
  refine ⟨?_, fun n h front hfront => ?_, fun n h => (parse_spans h).2.prefixes⟩
  · have hplans (g : Guarded) := g.rule_isRule.planned
    refine ⟨fun g => (hplans g).choose, fun g => (hplans g).choose_spec, fun P hP => ?_⟩
    -- each parser of the grammar has a plan, and plans keep the count
    obtain ⟨plan, hplan⟩ := hP.planned
    refine ⟨plan, hplan, fun fuel c hc hfuel s _ => ?_⟩
    exact hplan.count_keeps (guarded_keeps (fun g => (hplans g).choose_spec) fuel) s c hc hfuel
  · have hcloses := (parse_spans h).1
    -- without its comments the source has the same brackets
    rw [beforeEnd_prepare] at hcloses
    rw [← awaited_filter]
    exact hcloses.awaited_of_prefix (hfront.filter _)

end Parser

end BrailleScript
