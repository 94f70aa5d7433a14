import BrailleScript.Proofs.Node.Expression
import BrailleScript.Proofs.Node.Grouping

/-!
# Precedence climbing builds the tree of the rule

The parser never looks for the operator where an expression is split.  It goes from left to right
and compares each operator with the least strength it may take.  What stands on its left is grouped
already, and binds at least as tight as the operator that comes next; so this operator is the split
of what has been taken with it (`climbFuel_run`).

## Key results

- `climb_run`: with a least strength, exactly the operators before the first looser one are taken
- `readsOperand_at`: an operand is read by a level for each pair of parentheses around another
- `precedence_climbing`: the whole expression is taken and the tree is that of the rule
-/

namespace BrailleScript

/-! ## Binding strengths -/

/-- The parser counts the ranks of the documentation from two. -/
theorem Operator.precedence_eq {o : Operator} (h : o.isInfix = true) :
    o.precedence = o.rank + 2 := by
  cases o <;> first | rfl | cases h

/-- There are seven of them. -/
theorem Operator.rank_le (o : Operator) : o.rank ≤ 6 := by
  cases o <;> decide

/-- A link joins its operands as the parser does. -/
theorem Link.join_eq (l : Link) (left right : Node) :
    l.join left right = Parser.infixNode l.op left right l.pos := by
  obtain ⟨op, pos, r⟩ := l
  cases op <;> rfl

namespace Parser

variable {inner : Level} {min : Nat}

/-- On these tokens, with an allowed kind behind them, the parser takes them and gives this
result. -/
def Yields {α : Type} (p : Parser α) (ts : List Token) (follow : TokenKind → Bool) (x : α) : Prop :=
  ∀ rest : List Token, follow (headKind rest) = true → p.run (ts ++ rest) = .ok (x, rest)

/-- The operator in front of an operand binds at least as tight as asked. -/
def bindsAtLeast (min : Nat) (p : Sign × Operand) : Bool :=
  min ≤ p.1.op.precedence

/-- An operator is taken when it binds tightly enough. -/
theorem infixAtLeast?_sign (s : Sign) :
    infixAtLeast? min s.token = if min ≤ s.op.precedence then some s.op else none := by
  simp only [infixAtLeast?, Sign.token, Site.token, s.isInfix, Bool.true_and,
    decide_eq_true_eq]

/-- An operator ends the operand before it. -/
theorem endsOperand_sign (s : Sign) : endsOperand s.token.kind = true := by
  obtain ⟨op, site, h⟩ := s
  cases op <;> first | rfl | cases h

/-! ## Climbing -/

/-- The links are those of the operators one by one. -/
theorem links_eq_map (xs : List (Sign × Operand)) :
    links xs = xs.map fun p => p.1.link p.2.tree := by
  induction xs with
  | nil => rfl
  | cons p xs ih => rw [links, ih, List.map_cons]

/-- Each operator has a token. -/
theorem length_le_restTokens (xs : List (Sign × Operand)) : xs.length ≤ (restTokens xs).length := by
  induction xs with
  | nil => exact Nat.le_refl 0
  | cons p xs ih =>
    rw [restTokens, List.length_cons, List.length_cons, List.length_append]
    omega

/-- The strengths of the links are those of their operators. -/
theorem rank_of_mem_links {xs : List (Sign × Operand)} {q : Nat → Prop}
    (h : ∀ p ∈ xs, q p.1.op.rank) : ∀ l ∈ links xs, q l.op.rank := by
  intro l hl
  rw [links_eq_map] at hl
  obtain ⟨p, hp, rfl⟩ := List.mem_map.mp hl
  exact h p hp

/-- The operand is read with its unary operators, calls and members: it has none. -/
def ReadsOperand (inner : Level) (x : Operand) : Prop :=
  Yields (unary inner) x.tokens endsOperand x.tree

/-- The parser takes an operand and the operators that bind at least as tight as `min`, up to the
first that does not, and groups them. -/
def Climbs (inner : Level) (min : Nat) (p : Parser Node) : Prop :=
  ∀ (x : Operand) (xs : List (Sign × Operand)) (tail : List Token), ReadsOperand inner x →
    (∀ y ∈ xs, ReadsOperand inner y.2) → endsOperators (headKind tail) = true →
    p.run (x.tokens ++ (restTokens xs ++ tail)) =
      .ok (grouped x.tree (links (xs.takeWhile (bindsAtLeast min))),
        restTokens (xs.dropWhile (bindsAtLeast min)) ++ tail)

/-- Whatever stands behind an operand ends it. -/
theorem endsOperand_headKind_restTokens (xs : List (Sign × Operand)) {tail : List Token}
    (htail : endsOperators (headKind tail) = true) :
    endsOperand (headKind (restTokens xs ++ tail)) = true := by
  cases xs with
  | nil => exact endsOperand_of_endsOperators htail
  | cons p xs => exact endsOperand_sign p.1

/-- The operator binds tighter than `s`, and is taken by the right operand of `s`. -/
def tighter (s : Sign) : Sign × Operand → Bool :=
  bindsAtLeast (s.op.precedence + 1)

/-- Operators bind tighter when their rank is greater. -/
theorem tighter_iff {s : Sign} {p : Sign × Operand} :
    tighter s p = true ↔ s.op.rank < p.1.op.rank := by
  have hs := Operator.precedence_eq s.isInfix
  have hp := Operator.precedence_eq p.1.isInfix
  simp only [tighter, bindsAtLeast, decide_eq_true_eq]
  omega

/-- Those that the right operand takes do. -/
theorem rank_lt_of_mem_takeWhile {s : Sign} {xs : List (Sign × Operand)} :
    ∀ l ∈ links (xs.takeWhile (tighter s)), s.op.rank < l.op.rank :=
  rank_of_mem_links fun p hp => tighter_iff.mp (List.all_eq_true.mp List.all_takeWhile p hp)

/-- What binds at least as tight as `min` begins with what binds tighter than an operator that
does. -/
theorem takeWhile_tighter {s : Sign} (hs : min ≤ s.op.precedence) (xs : List (Sign × Operand)) :
    xs.takeWhile (tighter s) ++ (xs.dropWhile (tighter s)).takeWhile (bindsAtLeast min) =
      xs.takeWhile (bindsAtLeast min) ∧
    (xs.dropWhile (tighter s)).dropWhile (bindsAtLeast min) = xs.dropWhile (bindsAtLeast min) := by
  -- what binds tighter than the operator binds tight enough
  have hall : ∀ p ∈ xs.takeWhile (tighter s), bindsAtLeast min p = true := by
    intro p hp
    have hb := List.all_eq_true.mp List.all_takeWhile p hp
    simp only [tighter, bindsAtLeast, decide_eq_true_eq] at hb ⊢
    omega
  rw [← List.takeWhile_append_of_pos hall, ← List.dropWhile_append_of_pos hall,
    List.takeWhile_append_dropWhile]
  exact ⟨rfl, rfl⟩

/-- Everything in `done` binds at least as tight as the operator that comes next. -/
def Grouped (done : List Link) (xs : List (Sign × Operand)) : Prop :=
  ∀ p ∈ xs.head?, ∀ l ∈ done, p.1.op.rank ≤ l.op.rank

/-- Before the first operator nothing needs to be grouped. -/
theorem Grouped.nil (xs : List (Sign × Operand)) : Grouped [] xs :=
  fun _ _ _ hl => absurd hl List.not_mem_nil

/-- An operator and what its right operand has taken may join what is grouped: behind them comes an
operator that binds no tighter. -/
theorem Grouped.round {done : List Link} {s : Sign} {y : Operand} {xs : List (Sign × Operand)}
    (h : Grouped done ((s, y) :: xs)) :
    Grouped (done ++ s.link y.tree :: links (xs.takeWhile (tighter s)))
      (xs.dropWhile (tighter s)) := by
  intro p hp l hl
  -- the next operator was left behind by the right operand
  have hle : p.1.op.rank ≤ s.op.rank := by
    have hnot := List.head?_dropWhile_not (tighter s) xs
    rw [Option.mem_def.mp hp] at hnot
    exact Nat.le_of_not_lt fun hlt => Bool.false_ne_true (hnot.symm.trans (tighter_iff.mpr hlt))
  rw [List.mem_append, List.mem_cons] at hl
  rcases hl with hl | rfl | hl
  · exact Nat.le_trans hle (h _ rfl l hl)
  · exact hle
  · exact Nat.le_trans hle (Nat.le_of_lt (rank_lt_of_mem_takeWhile l hl))

/-- What the right operand has taken binds tighter than the operator in front of it, so this
operator is where the whole is split. -/
theorem Grouped.join {done : List Link} {s : Sign} {y : Operand} {xs : List (Sign × Operand)}
    (h : Grouped done ((s, y) :: xs)) (first : Node) :
    infixNode s.op (grouped first done) (grouped y.tree (links (xs.takeWhile (tighter s))))
        s.token.pos =
      grouped first (done ++ s.link y.tree :: links (xs.takeWhile (tighter s))) := by
  rw [grouped_append (h _ rfl) rank_lt_of_mem_takeWhile, Link.join_eq]
  rfl

/-- The loop over operators, with what is grouped already on its left. -/
theorem climbFuel_run {right : Nat → Parser Node} (hright : ∀ m, min < m → Climbs inner m (right m))
    (first : Node) (done : List Link) {xs : List (Sign × Operand)} {tail : List Token}
    (hdone : Grouped done xs) (hxs : ∀ y ∈ xs, ReadsOperand inner y.2)
    (htail : endsOperators (headKind tail) = true) (fuel : Nat) (hfuel : xs.length < fuel) :
    (climbFuel right min (grouped first done) fuel).run (restTokens xs ++ tail) =
      .ok (grouped first (done ++ links (xs.takeWhile (bindsAtLeast min))),
        restTokens (xs.dropWhile (bindsAtLeast min)) ++ tail) := by
  induction fuel generalizing xs done with
  | zero => omega
  | succ fuel ih =>
    cases xs with
    | nil =>
      obtain ⟨x, hx, rfl⟩ := climbFuel_done right min (grouped first done) fuel [] tail rfl htail
      simpa [restTokens, links] using hx
    | cons p xs =>
      obtain ⟨s, y⟩ := p
      obtain ⟨hy, hxs⟩ := List.forall_mem_cons.mp hxs
      rw [List.length_cons] at hfuel
      have htokens : restTokens ((s, y) :: xs) ++ tail =
          s.token :: (y.tokens ++ (restTokens xs ++ tail)) := by
        rw [restTokens, List.cons_append, List.append_assoc]
      rw [htokens, climbFuel, run_bind_ok (run_peek_cons _ _), infixAtLeast?_sign]
      by_cases hs : min ≤ s.op.precedence
      · rw [if_pos hs, run_bind_ok (run_next_cons rfl _)]
        -- the right operand takes what binds tighter, and the loop goes on behind that
        have hoperand := hright (s.op.precedence + 1) (by omega) y xs tail hy hxs htail
        have hlater := List.dropWhile_sublist (tighter s) (l := xs)
        have hlen := hlater.length_le
        rw [run_bind_ok hoperand]
        have hloop := ih _ hdone.round (fun q hq => hxs q (hlater.subset hq)) (by omega)
        obtain ⟨htaken, hleft⟩ := takeWhile_tighter hs xs
        rw [← hdone.join, hleft] at hloop
        refine hloop.trans ?_
        rw [List.takeWhile_cons_of_pos (by simp [bindsAtLeast, hs]),
          List.dropWhile_cons_of_pos (by simp [bindsAtLeast, hs]), ← htaken]
        simp only [links, links_eq_map, List.map_append, List.append_assoc, List.cons_append]
      · have hnot : bindsAtLeast min (s, y) = false := decide_eq_false hs
        rw [if_neg hs, List.takeWhile_cons_of_neg (by simp [hnot]),
          List.dropWhile_cons_of_neg (by simp [hnot]), links, List.append_nil, htokens]
        rfl

/-- With `levels` strengths left above `min` every operator is read at its strength. -/
theorem climb_run (levels : Nat) (hmin : 9 ≤ levels + min) :
    Climbs inner min (climb inner levels min) := by
  induction levels generalizing min with
  | zero =>
    intro x xs tail hx _ htail
    -- `min` is beyond the strength of every operator, so none is taken
    have hnone : ∀ p ∈ xs.head?, bindsAtLeast min p = false := by
      intro p _
      have hp := Operator.precedence_eq p.1.isInfix
      have hrank := Operator.rank_le p.1.op
      simp only [bindsAtLeast, decide_eq_false_iff_not]
      omega
    have hxs : xs.takeWhile (bindsAtLeast min) = [] ∧ xs.dropWhile (bindsAtLeast min) = xs := by
      cases xs with
      | nil => exact ⟨rfl, rfl⟩
      | cons p xs =>
        have hp := hnone p rfl
        exact ⟨List.takeWhile_cons_of_neg (by simp [hp]), List.dropWhile_cons_of_neg (by simp [hp])⟩
    rw [hxs.1, hxs.2, links, grouped_nil]
    exact hx _ (endsOperand_headKind_restTokens xs htail)
  | succ levels ih =>
    intro x xs tail hx hxs htail
    have hright : ∀ m, min < m → Climbs inner m (climb inner levels m) :=
      fun m hm => ih (by omega)
    have hlen := length_le_restTokens xs
    rw [climb, run_bind_ok (hx _ (endsOperand_headKind_restTokens xs htail)),
      run_bind_ok (run_get _)]
    have hloop := climbFuel_run hright x.tree [] (.nil xs) hxs htail
      ((restTokens xs ++ tail).length + 1) (by rw [List.length_append]; omega)
    rwa [grouped_nil] at hloop

/-- All infix operators are strong enough for an expression. -/
theorem operators_run {x : Operand} {xs : List (Sign × Operand)} (hx : ReadsOperand inner x)
    (hxs : ∀ y ∈ xs, ReadsOperand inner y.2) :
    Yields (operators inner) (x.tokens ++ restTokens xs) endsOperators
      (grouped x.tree (links xs)) := by
  intro tail htail
  have hall : ∀ p ∈ xs, bindsAtLeast 2 p = true := by
    intro p _
    have hp := Operator.precedence_eq p.1.isInfix
    simp only [bindsAtLeast, decide_eq_true_eq]
    omega
  -- so the climb takes all of the links
  have htake : xs.takeWhile (bindsAtLeast 2) = xs := by
    rw [← List.append_nil xs, List.takeWhile_append_of_pos hall, List.takeWhile_nil]
  have hdrop : xs.dropWhile (bindsAtLeast 2) = [] := by
    rw [← List.append_nil xs, List.dropWhile_append_of_pos hall, List.dropWhile_nil]
  have hclimbs : Climbs inner 2 (operators inner) := climb_run 7 (Nat.le_refl 9)
  have hclimb := hclimbs x xs tail hx hxs htail
  rw [htake, hdrop] at hclimb
  rw [List.append_assoc]
  exact hclimb

/-! ## Lambdas -/

/-- Behind an operand of the chain stands an operator of the chain, or what stands behind it. -/
theorem isOperator_arrow_head (xs : List (Sign × Operand)) {tail : List Token}
    (htail : (headKind tail).isOperator .arrow = false) :
    (headKind (restTokens xs ++ tail)).isOperator .arrow = false := by
  cases xs with
  | nil => exact htail
  | cons p xs =>
    obtain ⟨⟨op, site, h⟩, y⟩ := p
    cases op <;> first | rfl | cases h

/-- Parentheses with operands in them are no parameters if no arrow follows. -/
theorem namesThenArrow_chain (x : Operand) (xs : List (Sign × Operand)) (closing : Site)
    {tail : List Token} (htail : (headKind tail).isOperator .arrow = false) :
    namesThenArrow (x.tokens ++ (restTokens xs ++
      (closing.token (.delimiter .parenClose) :: tail))) = false := by
  cases x with
  | group opening first rest closing' =>
    -- names are not in parentheses of their own
    rw [Operand.tokens, List.cons_append]
    cases hus : first.tokens ++ (restTokens rest ++ [closing'.token (.delimiter .parenClose)]) ++
      (restTokens xs ++ (closing.token (.delimiter .parenClose) :: tail)) <;> rfl
  | atom a site =>
    cases xs with
    | nil =>
      -- only the arrow is missing behind a single name
      cases tail with
      | nil => cases a <;> rfl
      | cons t tail => cases a <;> first | exact htail | rfl
    | cons p xs => cases a <;> rfl

/-- A chain does not look like the parameters of a function. -/
theorem looksLikeLambda_chain (x : Operand) (xs : List (Sign × Operand)) {tail : List Token}
    (htail : (headKind tail).isOperator .arrow = false) :
    looksLikeLambda (x.tokens ++ (restTokens xs ++ tail)) = false := by
  -- an atom is no parenthesis, and behind a group stands no arrow
  cases x with
  | atom a site =>
    rw [Operand.tokens, List.singleton_append]
    cases restTokens xs ++ tail <;> cases a <;> rfl
  | group opening first rest closing =>
    have hnames := namesThenArrow_chain first rest closing (isOperator_arrow_head xs htail)
    obtain ⟨t, ts, hts, hclose⟩ := first.tokens_cons
    rw [hts] at hnames
    simp only [Operand.tokens, hts, List.cons_append, List.append_assoc, List.nil_append] at hnames ⊢
    rw [looksLikeLambda, hclose, hnames]
    exact Bool.and_false _

/-- So none are taken from it. -/
theorem lambdaParams?_chain (x : Operand) (xs : List (Sign × Operand)) {tail : List Token}
    (htail : endsExpression (headKind tail) = true) :
    lambdaParams?.run (x.tokens ++ (restTokens xs ++ tail)) =
      .ok (none, x.tokens ++ (restTokens xs ++ tail)) := by
  have harrow := not_operator_of_endsExpression htail .arrow
  refine run_lambdaParams?_none ?_ (looksLikeLambda_chain x xs harrow)
  -- only a name in front of an arrow could be taken for a parameter
  cases x with
  | atom a site =>
    show (a.kind.isIdentifier && (headKind (restTokens xs ++ tail)).isOperator .arrow) = false
    rw [isOperator_arrow_head xs harrow, Bool.and_false]
  | group opening first rest closing => rfl

/-! ## Whole expressions -/

/-- A chain of operands that are read is read as its grouped tree. -/
theorem assignment_run {x : Operand} {xs : List (Sign × Operand)} (hx : ReadsOperand inner x)
    (hxs : ∀ y ∈ xs, ReadsOperand inner y.2) :
    Yields (assignment inner) (x.tokens ++ restTokens xs) endsExpression
      (grouped x.tree (links xs)) := by
  intro tail htail
  have hlambda := lambdaParams?_chain x xs htail
  rw [← List.append_assoc] at hlambda
  obtain ⟨start, hstart, -⟩ := run_peek (x.tokens ++ restTokens xs ++ tail)
  obtain ⟨t, ht, -⟩ := run_peek tail
  rw [assignment, run_bind_ok (run_get _), assignmentFuel, run_bind_ok hstart, run_bind_ok hlambda]
  dsimp only
  -- behind the operators stands no assignment
  rw [run_bind_ok (operators_run hx hxs tail (endsOperators_of_endsExpression htail)),
    run_bind_ok ht, acceptOp,
    run_bind_ok (run_accept_not (not_operator_of_endsExpression htail .assign))]
  rfl

/-- A primary with nothing behind it is read alone. -/
theorem postfixed_run {e : Node} {ts : List Token}
    (h : ∀ rest, (primary inner).run (ts ++ rest) = .ok (e, rest)) :
    Yields (postfixed inner) ts endsOperand e := by
  intro rest hrest
  obtain ⟨y, hy, rfl⟩ := postfixFuel_done e rest.length [] rest rfl hrest
  rw [postfixed, run_bind_ok (h rest), run_bind_ok (run_get rest)]
  exact hy

/-- A single token is read as its node. -/
theorem primary_atom (a : Atom) (site : Site) (rest : List Token) :
    (primary inner).run (site.token a.kind :: rest) = .ok (a.node site.pos, rest) := by
  cases a <;> rfl

/-- A group is read as the tree between its brackets. -/
theorem primary_group_run {x : Operand} {xs : List (Sign × Operand)}
    (h : Yields inner.expression (x.tokens ++ restTokens xs) endsExpression
      (grouped x.tree (links xs))) (opening closing : Site) (rest : List Token) :
    (primary inner).run ((Operand.group opening x xs closing).tokens ++ rest) =
      .ok ((Operand.group opening x xs closing).tree, rest) := by
  have hinside := h (closing.token (.delimiter .parenClose) :: rest) rfl
  obtain ⟨_, hclose, -⟩ := expectDelim_takes .parenClose "Expected ')'"
    [closing.token (.delimiter .parenClose)] rest rfl rfl
  rw [List.singleton_append] at hclose
  -- the parentheses stand around the tokens of the chain
  have hshape : (Operand.group opening x xs closing).tokens ++ rest =
      opening.token (.delimiter .parenOpen) :: (x.tokens ++ restTokens xs ++
        closing.token (.delimiter .parenClose) :: rest) := by
    simp only [Operand.tokens, List.cons_append, List.append_assoc, List.nil_append]
  rw [hshape, primary, run_bind_ok (run_peek_cons _ _)]
  show (next >>= _).run _ = _
  rw [run_bind_ok (run_next_cons rfl _), run_bind_ok hinside, run_bind_ok hclose]
  rfl

/-- Operands begin with no unary operator. -/
theorem unary_eq_postfixed (x : Operand) (rest : List Token) :
    (unary inner).run (x.tokens ++ rest) = (postfixed inner).run (x.tokens ++ rest) := by
  cases x with
  | atom a site => cases a <;> rfl
  | group opening first xs closing => rfl

/-- A single token is read as an operand. -/
theorem readsOperand_atom (a : Atom) (site : Site) : ReadsOperand inner (.atom a site) := by
  intro rest hrest
  rw [unary_eq_postfixed]
  exact postfixed_run (primary_atom a site) rest hrest

/-- So is a group. -/
theorem readsOperand_group {x : Operand} {xs : List (Sign × Operand)}
    (h : Yields inner.expression (x.tokens ++ restTokens xs) endsExpression
      (grouped x.tree (links xs))) (opening closing : Site) :
    ReadsOperand inner (.group opening x xs closing) := by
  intro rest hrest
  rw [unary_eq_postfixed]
  exact postfixed_run (primary_group_run h opening closing) rest hrest

/-- Every operand is as deep as the row at most. -/
theorem depth_le_restDepth {xs : List (Sign × Operand)} {y : Sign × Operand} (hy : y ∈ xs) :
    y.2.depth ≤ restDepth xs := by
  induction xs with
  | nil => cases hy
  | cons p xs ih =>
    rw [restDepth]
    rcases List.mem_cons.mp hy with rfl | hmem
    · omega
    · have := ih hmem
      omega

/-- One level for each pair of parentheses around an operand is enough. -/
theorem readsOperand_at (depth : Nat) :
    ∀ x : Operand, x.depth ≤ depth → ReadsOperand (Level.at depth) x := by
  induction depth with
  | zero =>
    intro x hx
    cases x with
    | atom a site => exact readsOperand_atom a site
    | group opening first xs closing => simp [Operand.depth] at hx
  | succ depth ih =>
    intro x hx
    cases x with
    | atom a site => exact readsOperand_atom a site
    | group opening first xs closing =>
      rw [Operand.depth] at hx
      -- the parser for what stands in the parentheses has one level less, and so have its operands
      refine readsOperand_group (assignment_run (ih first (by omega)) fun y hy => ih y.2 ?_)
        opening closing
      have := depth_le_restDepth hy
      omega

/-- One level more is enough for the expression, whatever ends it. -/
theorem expression_run (c : Chain) {depth : Nat} (hdepth : c.depth ≤ depth) :
    Yields (Level.at (depth + 1)).expression c.tokens endsExpression c.tree := by
  rw [Chain.depth] at hdepth
  refine assignment_run (readsOperand_at depth c.first (by omega)) fun y hy => ?_
  have := depth_le_restDepth hy
  exact readsOperand_at depth y.2 (by omega)

mutual

/-- There is no comment in an operand. -/
theorem noComment_operand : (x : Operand) → ∀ t ∈ x.tokens, t.kind.isComment = false
  | .atom a site => by
    intro t ht
    rw [Operand.tokens, List.mem_singleton] at ht
    cases a <;> rw [ht] <;> rfl
  | .group opening first rest closing => by
    intro t ht
    simp only [Operand.tokens, List.mem_cons, List.mem_append, List.not_mem_nil, or_false] at ht
    -- brackets are no comments, and neither is anything in between
    rcases ht with rfl | hfirst | hrest | rfl
    · rfl
    · exact noComment_operand first t hfirst
    · exact noComment_rest rest t hrest
    · rfl

/-- Nor is there one behind it. -/
theorem noComment_rest : (xs : List (Sign × Operand)) → ∀ t ∈ restTokens xs,
    t.kind.isComment = false
  | [] => by simp [restTokens]
  | (s, x) :: xs => by
    intro t ht
    simp only [restTokens, List.mem_cons, List.mem_append] at ht
    rcases ht with rfl | hx | hxs
    · rfl
    · exact noComment_operand x t hx
    · exact noComment_rest xs t hxs

end

/-- There are no comments to drop, and the end of input is there already. -/
theorem prepare_tokens (c : Chain) (last : Site) :
    prepare (c.tokens ++ [last.token .endOfInput]) = c.tokens ++ [last.token .endOfInput] := by
  -- no token is a comment
  have hkept : (c.tokens ++ [last.token .endOfInput]).filter (!·.kind.isComment) =
      c.tokens ++ [last.token .endOfInput] := by
    rw [List.filter_eq_self]
    intro t ht
    rw [List.mem_append, List.mem_singleton, Chain.tokens, List.mem_append] at ht
    rcases ht with (hfirst | hrest) | rfl
    · rw [noComment_operand c.first t hfirst]
      rfl
    · rw [noComment_rest c.rest t hrest]
      rfl
    · rfl
  rw [prepare, hkept, List.getLast?_concat]
  rfl

/-- An expression of operands with infix operators between them is taken up to the end of input, and
its tree is the one of the rule. -/
theorem precedence_climbing (c : Chain) (hdepth : c.depth < maxNesting) (last : Site) :
    (Level.at maxNesting).expression.run (prepare (c.tokens ++ [last.token .endOfInput])) =
      .ok (c.tree, [last.token .endOfInput]) ∧
    parseExpression (c.tokens ++ [last.token .endOfInput]) = .ok c.tree := by
  have hrun := expression_run c (Nat.le_of_lt_succ hdepth) [last.token .endOfInput] rfl
  rw [parseExpression, prepare_tokens]
  refine ⟨hrun, ?_⟩
  show (StateT.run (Level.at maxNesting).expression _).map _ = _
  exact congrArg (Except.map Prod.fst) hrun

/-- `a - b * (c || d) |> e` is a call of `e`. -/
theorem precedence_climbing_pipe :
    let p (n : Nat) : Site := ⟨"", n, ⟨1, n + 1⟩⟩
    let name (s : String) (n : Nat) : Operand := .atom (.identifier s) (p n)
    let c : Chain := ⟨name "a" 0, [(⟨.minus, p 1, rfl⟩, name "b" 2),
      (⟨.star, p 3, rfl⟩, .group (p 4) (name "c" 5) [(⟨.either, p 6, rfl⟩, name "d" 7)] (p 8)),
      (⟨.pipe, p 9, rfl⟩, name "e" 10)]⟩
    c.depth < maxNesting ∧
      parseExpression (c.tokens ++ [(p 11).token .endOfInput]) =
        .ok (.call (.identifier "e" ⟨1, 11⟩)
          [.binary .minus (.identifier "a" ⟨1, 1⟩)
            (.binary .star (.identifier "b" ⟨1, 3⟩)
              (.logical .or (.identifier "c" ⟨1, 6⟩) (.identifier "d" ⟨1, 8⟩)) ⟨1, 4⟩) ⟨1, 2⟩]
          ⟨1, 10⟩) := by
  intro p name c
  have hdepth : c.depth < maxNesting := by decide
  refine ⟨hdepth, (precedence_climbing c hdepth (p 11)).2.trans (congrArg Except.ok ?_)⟩
  simp [c, name, p, Chain.tree, Operand.tree, links, Sign.link, Atom.node, grouped, splitLoosest,
    Operator.rank, Link.join]

end Parser

end BrailleScript
