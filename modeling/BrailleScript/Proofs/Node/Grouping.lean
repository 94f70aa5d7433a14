import BrailleScript.Node
import BrailleScript.Token

/-!
# Operators and their operands

An expression as it is written: operands with infix operators between them, where an operand is a
name, a number, a string or such an expression in parentheses.  `grouped` is the rule for what it
means: it is split at the rightmost of the operators that bind loosest, and so are both sides.

## Key results

- `splitLoosest_eq_some`, `splitLoosest_append`: where a list of links is split, from the strengths
  on both sides
- `grouped_append`: what is grouped at a link that is looser than those behind it, and not tighter
  than those in front of it
-/

namespace BrailleScript

/-! ## The rule -/

/-- How tight an infix operator binds: the pipe loosest, `*`, `/` and `%` tightest. -/
def Operator.rank : Operator → Nat
  | pipe => 0
  | either => 1
  | both => 2
  | equal | notEqual => 3
  | less | lessEqual | greater | greaterEqual => 4
  | plus | minus => 5
  | _ => 6

/-- An infix operator at its place, with the tree of the operand on its right. -/
structure Link where
  op : Operator
  pos : Pos
  right : Node

/-- The operator between the tree on its left and the tree on its right. -/
def Link.join (l : Link) (left right : Node) : Node :=
  match l.op with
  | .pipe => .call right [left] l.pos
  | .both => .logical .and left right
  | .either => .logical .or left right
  | op => .binary op left right l.pos

/-- The rightmost of the links that bind loosest, between what stands in front of it and behind
it. -/
def splitLoosest : List Link → Option (List Link × Link × List Link)
  | [] => none
  | l :: ls =>
    match splitLoosest ls with
    | none => some ([], l, [])
    | some (before, m, after) =>
      if m.op.rank ≤ l.op.rank then some (l :: before, m, after) else some ([], l, ls)

/-- Only an empty row has no loosest operator. -/
theorem splitLoosest_eq_none {ls : List Link} (h : splitLoosest ls = none) : ls = [] := by
  cases ls with
  | nil => rfl
  | cons l ls =>
    unfold splitLoosest at h
    split at h
    · cases h
    · split at h <;> cases h

/-- What is split is put together again, and the link between the parts is the rightmost of those
that bind loosest. -/
theorem splitLoosest_eq_some {ls before after : List Link} {m : Link}
    (h : splitLoosest ls = some (before, m, after)) :
    ls = before ++ m :: after ∧ (∀ l ∈ before, m.op.rank ≤ l.op.rank) ∧
      ∀ l ∈ after, m.op.rank < l.op.rank := by
  induction ls generalizing before m after with
  | nil => cases h
  | cons l ls ih =>
    unfold splitLoosest at h
    split at h
    · next hnone =>
      cases h
      rw [splitLoosest_eq_none hnone]
      simp
    · next before' m' after' hsome =>
      obtain ⟨heq, hbefore, hafter⟩ := ih hsome
      split at h
      · next hle =>
        cases h
        exact ⟨by rw [heq, List.cons_append], List.forall_mem_cons.mpr ⟨hle, hbefore⟩, hafter⟩
      · next hlt =>
        cases h
        -- the new link is strictly looser than the loosest so far, so than every other
        have hall : ∀ x ∈ ls, l.op.rank < x.op.rank := by
          intro x hx
          rw [heq, List.mem_append, List.mem_cons] at hx
          rcases hx with hx | rfl | hx
          · have := hbefore x hx
            omega
          · omega
          · have := hafter x hx
            omega
        exact ⟨rfl, by simp, hall⟩

/-- A list has one such split only. -/
theorem splitLoosest_append {before after : List Link} {m : Link}
    (hbefore : ∀ l ∈ before, m.op.rank ≤ l.op.rank) (hafter : ∀ l ∈ after, m.op.rank < l.op.rank) :
    splitLoosest (before ++ m :: after) = some (before, m, after) := by
  induction before with
  | nil =>
    rw [List.nil_append, splitLoosest]
    split
    · -- nothing behind the link, so it is the loosest itself
      next hnone => rw [splitLoosest_eq_none hnone]
    · next before' m' after' hsome =>
      -- a split behind the link would be at a tighter one
      have hmem : m' ∈ after := by
        rw [(splitLoosest_eq_some hsome).1]
        simp
      have hlt := hafter m' hmem
      rw [if_neg (by omega)]
  | cons l before ih =>
    obtain ⟨hl, hrest⟩ := List.forall_mem_cons.mp hbefore
    rw [List.cons_append, splitLoosest, ih hrest]
    exact if_pos hl

/-- The tree of operands with operators between them: the first operand, and each further one with
the operator in front of it. -/
def grouped (first : Node) (links : List Link) : Node :=
  match _ : splitLoosest links with
  | none => first
  | some (before, m, after) => m.join (grouped first before) (grouped m.right after)
termination_by links.length
decreasing_by
  all_goals
    have hlen := congrArg List.length (splitLoosest_eq_some ‹_›).1
    simp only [List.length_append, List.length_cons] at hlen
    omega

/-- One operand alone is its own tree. -/
@[simp] theorem grouped_nil (first : Node) : grouped first [] = first := by
  rw [grouped, splitLoosest]

/-- A row is grouped around its loosest operator, the rightmost of these. -/
theorem grouped_append {first : Node} {before after : List Link} {m : Link}
    (hbefore : ∀ l ∈ before, m.op.rank ≤ l.op.rank) (hafter : ∀ l ∈ after, m.op.rank < l.op.rank) :
    grouped first (before ++ m :: after) = m.join (grouped first before) (grouped m.right after) := by
  rw [grouped]
  -- a row with an operator in it has a loosest one
  split
  · next hnone => cases before <;> cases splitLoosest_eq_none hnone
  · next before' m' after' hsome =>
    rw [splitLoosest_append hbefore hafter] at hsome
    cases hsome
    rfl

/-! ## What is written -/

/-- Where a token stands. -/
structure Site where
  raw : String
  offset : Nat
  pos : Pos

/-- A token of a kind at a place. -/
def Site.token (p : Site) (kind : TokenKind) : Token :=
  { kind, raw := p.raw, offset := p.offset, pos := p.pos }

/-- An operand that is a single token. -/
inductive Atom where
  | identifier (name : String)
  | number (x : Float)
  | text (s : String)

/-- The kind of token that an operand is written as. -/
def Atom.kind : Atom → TokenKind
  | identifier name => .identifier name
  | number x => .number x
  | text s => .text s

/-- The node that it stands for. -/
def Atom.node (pos : Pos) : Atom → Node
  | identifier name => .identifier name pos
  | number x => .number x
  | text s => .text s

/-- An infix operator at its place. -/
structure Sign where
  op : Operator
  site : Site
  isInfix : op.isInfix = true

/-- The token of an operator. -/
def Sign.token (s : Sign) : Token :=
  s.site.token (.operator s.op)

/-- The operator with the tree of the operand behind it. -/
def Sign.link (s : Sign) (right : Node) : Link :=
  ⟨s.op, s.site.pos, right⟩

/-- An operand; in parentheses stands a first operand, and each further one with the operator in
front of it. -/
inductive Operand where
  | atom (a : Atom) (site : Site)
  | group (opening : Site) (first : Operand) (rest : List (Sign × Operand)) (closing : Site)

mutual

/-- The tokens of an operand, with the brackets of a group. -/
def Operand.tokens : Operand → List Token
  | .atom a site => [site.token a.kind]
  | .group opening first rest closing =>
    opening.token (.delimiter .parenOpen) :: (first.tokens ++
      (restTokens rest ++ [closing.token (.delimiter .parenClose)]))

/-- The tokens behind the first operand. -/
def restTokens : List (Sign × Operand) → List Token
  | [] => []
  | (s, x) :: rest => s.token :: (x.tokens ++ restTokens rest)

end

mutual

/-- How deep parentheses nest. -/
def Operand.depth : Operand → Nat
  | .atom .. => 0
  | .group _ first rest _ => max first.depth (restDepth rest) + 1

/-- How deeply groups stand inside each other there. -/
def restDepth : List (Sign × Operand) → Nat
  | [] => 0
  | (_, x) :: rest => max x.depth (restDepth rest)

end

mutual

/-- The tree of an operand; parentheses are grouped by the same rule. -/
def Operand.tree : Operand → Node
  | .atom a site => a.node site.pos
  | .group _ first rest _ => grouped first.tree (links rest)

/-- The operators behind the first operand, with what stands behind each. -/
def links : List (Sign × Operand) → List Link
  | [] => []
  | (s, x) :: rest => s.link x.tree :: links rest

end

/-- An operand begins with a token that closes nothing. -/
theorem Operand.tokens_cons (x : Operand) :
    ∃ t ts, x.tokens = t :: ts ∧ t.kind.isDelimiter .parenClose = false := by
  cases x with
  | atom a site => exact ⟨_, _, rfl, by cases a <;> rfl⟩
  | group opening first rest closing => exact ⟨_, _, rfl, rfl⟩

/-- Operands with infix operators between them. -/
structure Chain where
  first : Operand
  rest : List (Sign × Operand)

namespace Chain

/-- The tokens of a chain. -/
def tokens (c : Chain) : List Token :=
  c.first.tokens ++ restTokens c.rest

/-- How deeply groups stand inside each other in it. -/
def depth (c : Chain) : Nat :=
  max c.first.depth (restDepth c.rest)

/-- The tree that the rule about precedence gives for it. -/
def tree (c : Chain) : Node :=
  grouped c.first.tree (links c.rest)

end Chain

end BrailleScript
