import BrailleScript.Proofs.Node.Parts

/-!
# Ways down a tree

Two measures of how deep a tree is.  One counts the prefix operators on a way from the root down;
the other is the length of a row, in which each node goes on to the next without a bracket or a
keyword around it: an assignment to its value, a short lambda to its body, and a conditional to the
conditional behind its `else`.

## Key results

- `Node.Bounded.node`, `Node.Bounded.prefixed`, `Node.Bounded.goingOn`: the measures of a node from
  those of its children
-/

namespace BrailleScript

namespace Node

/-- The node has a prefix operator in front of its operand. -/
def isPrefixed : Node → Bool
  | .unary .. | .await _ => true
  | _ => false

/-- A way down from the first node, a child at a time. -/
def IsPath (path : List Node) : Prop :=
  path.IsChain fun n c => c ∈ n.children

/-- What a node goes on to: the value that is assigned, the body of a short lambda, or the
conditional behind `else`. -/
def next? : Node → Option Node
  | .assign _ value _ => some value
  | .lambda ⟨_, _, .expr value, _, _⟩ => some value
  | .ifElse _ _ (some (.ifElse c t e)) => some (.ifElse c t e)
  | _ => none

/-- A row of nodes, each of which goes on to the next. -/
def IsRow (row : List Node) : Prop :=
  row.IsChain fun n m => n.next? = some m

/-- On no way down from the root are more than `d` prefix operators. -/
def PrefixesLe (d : Nat) (n : Node) : Prop :=
  ∀ path, path.head? = some n → IsPath path → path.countP isPrefixed ≤ d

/-- No row in the tree goes on more than `k` times. -/
def RowsLe (k : Nat) (n : Node) : Prop :=
  ∀ m row, m.OccursIn n → row.head? = some m → IsRow row → row.length ≤ k + 1

/-- A node with at most `d` prefix operators above each other, and with no row that goes on more
than `k` times. -/
structure Bounded (d k : Nat) (n : Node) : Prop where
  prefixes : n.PrefixesLe d
  rows : n.RowsLe k

variable {d k : Nat} {n : Node}

/-- A node adds one prefix operator at most to those below it. -/
theorem PrefixesLe.of_children (h : ∀ c ∈ n.children, c.PrefixesLe d) :
    n.PrefixesLe (d + if n.isPrefixed then 1 else 0) := by
  intro path hhead hpath
  obtain ⟨rest, rfl⟩ := List.head?_eq_some_iff.1 hhead
  rw [List.countP_cons]
  -- the path ends here or goes on in a child
  cases rest with
  | nil => exact Nat.add_le_add_right (Nat.zero_le d) _
  | cons c rest =>
    obtain ⟨hc, hrest⟩ := List.isChain_cons_cons.1 hpath
    exact Nat.add_le_add_right (h c hc (c :: rest) rfl hrest) _

/-- A node makes the row that goes on with it longer by one. -/
theorem RowsLe.of_children (h : ∀ c ∈ n.children, c.RowsLe k)
    (hn : ∀ m ∈ n.next?, ∃ j, j < k ∧ m.RowsLe j) : n.RowsLe k := by
  intro m row hocc hhead hrow
  cases hocc with
  | inside hc hin => exact h _ hc m row hin hhead hrow
  | self =>
    obtain ⟨rest, rfl⟩ := List.head?_eq_some_iff.1 hhead
    cases rest with
    | nil => exact Nat.succ_le_succ (Nat.zero_le k)
    | cons m rest =>
      -- what the node goes on to has shorter rows
      obtain ⟨hstep, hrest⟩ := List.isChain_cons_cons.1 hrow
      obtain ⟨j, hj, hm⟩ := hn m hstep
      have hlen := hm m (m :: rest) .self rfl hrest
      rw [List.length_cons]
      omega

/-- More prefix operators may be allowed. -/
theorem PrefixesLe.mono {e : Nat} (h : n.PrefixesLe e) (hd : e ≤ d) : n.PrefixesLe d :=
  fun path hhead hpath => Nat.le_trans (h path hhead hpath) hd

/-- So may longer rows. -/
theorem RowsLe.mono {j : Nat} (h : n.RowsLe j) (hk : j ≤ k) : n.RowsLe k :=
  fun m row hocc hhead hrow =>
    Nat.le_trans (h m row hocc hhead hrow) (Nat.add_le_add_right hk 1)

namespace Bounded

/-- A bound for short rows is one for longer ones. -/
theorem fewer {j : Nat} (h : n.Bounded d j) (hk : j ≤ k) : n.Bounded d k :=
  ⟨h.prefixes, h.rows.mono hk⟩

/-- So it is for one more prefix operator. -/
theorem deeper (h : n.Bounded d k) : n.Bounded (d + 1) k :=
  ⟨h.prefixes.mono (Nat.le_succ d), h.rows⟩

/-- A node without a prefix operator that does not go on. -/
theorem node (hn : n.isPrefixed = false) (hrow : n.next? = none)
    (hc : ∀ c ∈ n.children, c.Bounded d k) : n.Bounded d k := by
  refine ⟨?_, .of_children (fun c h => (hc c h).rows) ?_⟩
  · have h := PrefixesLe.of_children fun c h => (hc c h).prefixes
    rwa [hn] at h
  · rw [hrow]
    simp

/-- A node without children is bounded. -/
theorem leaf (hn : n.isPrefixed = false) (hrow : n.next? = none) (hc : n.children = []) :
    n.Bounded d k :=
  .node hn hrow fun _ h => absurd (hc ▸ h) List.not_mem_nil

/-- A node with a prefix operator. -/
theorem prefixed (hn : n.isPrefixed = true) (hc : ∀ c ∈ n.children, c.Bounded d k) :
    n.Bounded (d + 1) k := by
  refine ⟨?_, .of_children (fun c h => (hc c h).rows) fun m hm => ?_⟩
  · have h := PrefixesLe.of_children fun c h => (hc c h).prefixes
    rwa [hn] at h
  · -- such a node does not go on
    cases n with
    | unary | await => cases hm
    | _ => cases hn

/-- A node that may go on to one of its children. -/
theorem goingOn (hn : n.isPrefixed = false) (hc : ∀ c ∈ n.children, c.Bounded d (k + 1))
    (hrow : ∀ m ∈ n.next?, m.Bounded d k) : n.Bounded d (k + 1) := by
  refine ⟨?_, .of_children (fun c h => (hc c h).rows) fun m hm => ?_⟩
  · have h := PrefixesLe.of_children fun c h => (hc c h).prefixes
    rwa [hn] at h
  · exact ⟨k, Nat.lt_succ_self k, (hrow m hm).rows⟩

/-- An assignment goes on with its value. -/
theorem assign {target value : Node} {pos : Pos} (ht : target.Bounded d (k + 1))
    (hv : value.Bounded d k) : (Node.assign target value pos).Bounded d (k + 1) := by
  refine .goingOn rfl ?_ fun m hm => ?_
  · simp [ht, hv.fewer (Nat.le_succ k)]
  · cases hm
    exact hv

/-- An arrow function with an expression goes on with that. -/
theorem shortLambda {name : Option String} {params : List String} {value : Node} {isAsync : Bool}
    {pos : Pos} (hv : value.Bounded d k) :
    (Node.lambda ⟨name, params, .expr value, isAsync, pos⟩).Bounded d (k + 1) := by
  refine .goingOn rfl ?_ fun m hm => ?_
  · simp [hv.fewer (Nat.le_succ k)]
  · cases hm
    exact hv

/-- A condition goes on with its other branch. -/
theorem ifElse {c t e : Node} (hc : c.Bounded d (k + 1)) (ht : t.Bounded d (k + 1))
    (he : e.Bounded d k) : (Node.ifElse c t (some e)).Bounded d (k + 1) := by
  refine .goingOn rfl ?_ fun m hm => ?_
  · simp [hc, ht, he.fewer (Nat.le_succ k)]
  · -- only a condition behind `else` makes the row longer
    cases e with
    | ifElse c' t' e' =>
      cases hm
      exact he
    | _ => cases hm

/-- What an operator makes of its operands. -/
theorem infixNode {op : Operator} {a b : Node} {pos : Pos} (ha : a.Bounded d k)
    (hb : b.Bounded d k) : (Parser.infixNode op a b pos).Bounded d k := by
  unfold Parser.infixNode
  split <;> exact .node rfl rfl (by simp [ha, hb])

end Bounded

end Node

/-- A definition whose body is a block of bounded statements. -/
def FunctionDef.Bounded (d k : Nat) (f : FunctionDef Node) : Prop :=
  ∃ stmts, f.body = .block stmts ∧ ∀ n ∈ stmts, n.Bounded d k

namespace Node.Bounded

variable {d k : Nat}

/-- The body of a bounded function is bounded. -/
theorem of_body {f : FunctionDef Node} (h : f.Bounded d k) : ∀ n ∈ f.body.nodes, n.Bounded d k := by
  obtain ⟨stmts, hbody, hstmts⟩ := h
  rwa [hbody]

/-- So is its declaration. -/
theorem function {f : FunctionDef Node} (h : f.Bounded d k) : (Node.function f).Bounded d k :=
  .node rfl rfl (by simpa using of_body h)

/-- A lambda with a block for its body does not go on. -/
theorem lambda {f : FunctionDef Node} (h : f.Bounded d k) : (Node.lambda f).Bounded d k := by
  have hchildren : ∀ n ∈ (Node.lambda f).children, n.Bounded d k := by
    simpa using of_body h
  obtain ⟨name, params, body, isAsync, pos⟩ := f
  obtain ⟨stmts, rfl, -⟩ := h
  exact .node rfl rfl hchildren

/-- A class is bounded when its methods are. -/
theorem classDecl {name : String} {parent : Option String} {methods : List (FunctionDef Node)}
    {pos : Pos} (h : ∀ f ∈ methods, f.Bounded d k) :
    (Node.classDecl name parent methods pos).Bounded d k := by
  refine .node rfl rfl fun c hc => ?_
  simp only [children, evaluated, executed, definitions, List.nil_append, List.mem_flatMap] at hc
  obtain ⟨f, hf, hc⟩ := hc
  exact of_body (h f hf) c hc

/-- A map is bounded when its keys and values are. -/
theorem map {pairs : List (Node × Node)} (h : ∀ p ∈ pairs, p.1.Bounded d k ∧ p.2.Bounded d k) :
    (Node.map pairs).Bounded d k := by
  refine .node rfl rfl fun c hc => ?_
  simp only [children, evaluated, executed, definitions, List.flatMap_nil, List.append_nil,
    List.mem_flatMap, List.mem_cons, List.not_mem_nil, or_false] at hc
  obtain ⟨p, hp, rfl | rfl⟩ := hc
  · exact (h p hp).1
  · exact (h p hp).2

/-- A switch is bounded when all of its parts are. -/
theorem switch {s : Node} {cases : List (SwitchCase Node)} {default : Option (List Node)}
    (hs : s.Bounded d k) (hc : ∀ c ∈ cases, c.value.Bounded d k ∧ ∀ n ∈ c.body, n.Bounded d k)
    (hd : ∀ stmts ∈ default, ∀ n ∈ stmts, n.Bounded d k) :
    (Node.switch s cases default).Bounded d k := by
  refine .node rfl rfl fun n hn => ?_
  simp only [children, evaluated, executed, definitions, List.flatMap_nil, List.append_nil,
    List.cons_append, List.mem_cons, List.mem_append, List.mem_map, List.mem_flatMap] at hn
  obtain rfl | ⟨c, hmem, rfl⟩ | ⟨c, hmem, hn⟩ | hn := hn
  · exact hs
  · exact (hc c hmem).1
  · exact (hc c hmem).2 n hn
  · cases default with
    | none => exact absurd hn List.not_mem_nil
    | some stmts => exact hd stmts rfl n hn

end Node.Bounded

end BrailleScript
