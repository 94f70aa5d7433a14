import Mathlib.Data.List.Basic
import BrailleScript.Proofs.Node.WellFormed

/-!
# The parts of a tree

What a node asks for when it is run: the expressions it evaluates, the statements it executes and
the functions it defines.  `OccursIn` says that a node stands somewhere in a tree, inside function
bodies too.

## Key results

- `OccursIn.of_evaluated`, `OccursIn.of_executed`, `OccursIn.of_definition`: the parts of a node
  stand below it
- `sizeOf_evaluated`, `sizeOf_executed`: they are smaller than the node
- `below_induction`: induction over what stands below a node
- `wellFormed_evaluated`, `wellFormed_executed`, `wellFormed_definition`: the parts of a well-formed
  node stand where they may stand
- `OccursIn.wellFormed`: so does everything below it
-/

namespace BrailleScript

/-- The statements of the body of a function, or its one expression. -/
@[simp]
def FunctionBody.nodes : FunctionBody Node → List Node
  | .block stmts => stmts
  | .expr value => [value]

namespace Node

/-- The expressions that are evaluated to assign to a target. -/
@[simp]
def targetParts : Node → List Node
  | .member object _ _ => [object]
  | .index object place _ => [object, place]
  | _ => []

/-- The expressions that a node evaluates itself. -/
@[simp]
def evaluated : Node → List Node
  | .declare _ value _ _ | .returnValue value => value.toList
  | .print args | .primitive _ args _ | .array args => args
  | .yieldValue e | .unary _ e _ | .await e | .member e _ _ => [e]
  | .ifElse c _ _ | .whileLoop c _ | .forEach _ c _ => [c]
  | .switch s cases _ => s :: cases.map (·.value)
  | .assign target value _ => value :: target.targetParts
  | .binary _ a b _ | .logical _ a b | .index a b _ => [a, b]
  | .call c args _ => c :: args
  | .map pairs => pairs.flatMap fun p => [p.1, p.2]
  | _ => []

/-- The statements that a node executes itself. -/
@[simp]
def executed : Node → List Node
  | .block items => items
  | .ifElse _ t e => t :: e.toList
  | .whileLoop _ b | .loop b | .forEach _ _ b => [b]
  | .tryCatch b _ h => [b, h]
  | .switch _ cases d => cases.flatMap (·.body) ++ d.getD []
  | _ => []

/-- The functions that a node defines. -/
@[simp]
def definitions : Node → List (FunctionDef Node)
  | .function d | .lambda d => [d]
  | .classDecl _ _ methods _ => methods
  | _ => []

/-- The nodes directly below a node. -/
@[simp]
def children : Node → List Node
  | .program items => items
  | .assign target value _ => [target, value]
  | n => n.evaluated ++ n.executed ++ n.definitions.flatMap (·.body.nodes)

/-- A node stands in a tree: it is the tree, or stands in a child of it. -/
inductive OccursIn (a : Node) : Node → Prop
  | self : OccursIn a a
  | inside {c n : Node} (hc : c ∈ n.children) (h : OccursIn a c) : OccursIn a n

namespace OccursIn

variable {a b c n : Node}

/-- A child occurs in its node. -/
theorem child (h : c ∈ n.children) : c.OccursIn n := .inside h .self

/-- What occurs in a part occurs in the whole. -/
theorem trans (hab : a.OccursIn b) (hbc : b.OccursIn c) : a.OccursIn c := by
  induction hbc with
  | self => exact hab
  | inside hc _ ih => exact .inside hc ih

/-- What a node evaluates occurs in it. -/
theorem of_evaluated (h : c ∈ n.evaluated) : c.OccursIn n := by
  cases n with
  | assign target value pos =>
    rcases List.mem_cons.1 h with rfl | h
    · exact .child (.tail _ (.head _))
    · -- a part of the target stands one level deeper
      refine .inside (.head _) (.child ?_)
      cases target with
      | member | index => exact List.mem_append_left _ (List.mem_append_left _ h)
      | _ => exact absurd h List.not_mem_nil
  | program => exact absurd h List.not_mem_nil
  | _ => exact .child (List.mem_append_left _ (List.mem_append_left _ h))

/-- So does what it executes. -/
theorem of_executed (h : c ∈ n.executed) : c.OccursIn n := by
  cases n with
  | assign | program => exact absurd h List.not_mem_nil
  | _ => exact .child (List.mem_append_left _ (List.mem_append_right _ h))

/-- So do the bodies of what it defines. -/
theorem of_definition {d : FunctionDef Node} (hd : d ∈ n.definitions) (h : c ∈ d.body.nodes) :
    c.OccursIn n := by
  cases n with
  | assign | program => exact absurd hd List.not_mem_nil
  | _ => exact .child (List.mem_append_right _ (List.mem_flatMap.2 ⟨d, hd, h⟩))

end OccursIn

/-- Every node of the tree has the property. -/
def All (P : Node → Prop) (n : Node) : Prop :=
  ∀ m, m.OccursIn n → P m

/-- A property holds of all parts when it holds of the node and of all parts of its children. -/
theorem All.of_children {P : Node → Prop} {n : Node} (hn : P n) (h : n.children.Forall (All P)) :
    n.All P := by
  intro m hocc
  cases hocc with
  | self => exact hn
  | inside hmem hin => exact List.forall_iff_forall_mem.1 h _ hmem m hin

/-! ## Sizes -/

/-- Every node has a size. -/
theorem sizeOf_pos (n : Node) : 0 < sizeOf n := by
  cases n <;> simp +arith

section Sizes

variable {c : Node}

/-- An optional node is smaller than the option. -/
theorem sizeOf_of_mem_toList {o : Option Node} (h : c ∈ o.toList) : sizeOf c < sizeOf o := by
  cases o with
  | none => exact absurd h List.not_mem_nil
  | some n =>
    obtain rfl := List.mem_singleton.1 h
    simp

/-- A node of an optional list is smaller than that. -/
theorem sizeOf_of_mem_getD {o : Option (List Node)} (h : c ∈ o.getD []) :
    sizeOf c < sizeOf o := by
  cases o with
  | none => exact absurd h List.not_mem_nil
  | some items =>
    have hc := List.sizeOf_lt_of_mem h
    simp only [Option.getD_some, Option.some.sizeOf_spec] at hc ⊢
    omega

/-- The value of a case is smaller than the cases. -/
theorem sizeOf_of_mem_values {cases : List (SwitchCase Node)} (h : c ∈ cases.map (·.value)) :
    sizeOf c < sizeOf cases := by
  obtain ⟨⟨value, body⟩, hk, rfl⟩ := List.mem_map.1 h
  have hlt := List.sizeOf_lt_of_mem hk
  simp only [SwitchCase.mk.sizeOf_spec] at hlt ⊢
  omega

/-- So is a statement of its body. -/
theorem sizeOf_of_mem_bodies {cases : List (SwitchCase Node)} (h : c ∈ cases.flatMap (·.body)) :
    sizeOf c < sizeOf cases := by
  obtain ⟨⟨value, body⟩, hk, hc⟩ := List.mem_flatMap.1 h
  have hlt := List.sizeOf_lt_of_mem hk
  have hc := List.sizeOf_lt_of_mem hc
  simp only [SwitchCase.mk.sizeOf_spec] at hlt hc
  omega

/-- A key or value is smaller than the entries. -/
theorem sizeOf_of_mem_pairs {pairs : List (Node × Node)}
    (h : c ∈ pairs.flatMap fun p => [p.1, p.2]) : sizeOf c < sizeOf pairs := by
  obtain ⟨⟨k, v⟩, hp, hc⟩ := List.mem_flatMap.1 h
  have hlt := List.sizeOf_lt_of_mem hp
  simp only [Prod.mk.sizeOf_spec, List.mem_cons, List.not_mem_nil, or_false] at hlt hc
  rcases hc with rfl | rfl <;> omega

/-- A part of a target is smaller than it. -/
theorem sizeOf_of_mem_targetParts {target : Node} (h : c ∈ target.targetParts) :
    sizeOf c < sizeOf target := by
  cases target with
  | member object name pos =>
    obtain rfl := List.mem_singleton.1 h
    simp only [member.sizeOf_spec]
    omega
  | index object place pos =>
    simp only [targetParts, List.mem_cons, List.not_mem_nil, or_false] at h
    simp only [index.sizeOf_spec]
    rcases h with rfl | rfl <;> omega
  | _ => exact absurd h List.not_mem_nil

/-- What a node evaluates is smaller than it. -/
theorem sizeOf_evaluated {n : Node} (h : c ∈ n.evaluated) : sizeOf c < sizeOf n := by
  -- each kind of node names its own parts
  cases n with
  | declare | returnValue =>
    have hc := sizeOf_of_mem_toList h
    simp only [declare.sizeOf_spec, returnValue.sizeOf_spec]
    omega
  | print | primitive | array =>
    have hc := List.sizeOf_lt_of_mem h
    simp only [evaluated, print.sizeOf_spec, primitive.sizeOf_spec, array.sizeOf_spec] at hc ⊢
    omega
  | map pairs =>
    have hc := sizeOf_of_mem_pairs h
    simp only [map.sizeOf_spec]
    omega
  | call callee args pos =>
    simp only [call.sizeOf_spec]
    rcases List.mem_cons.1 h with rfl | h
    · omega
    · have hc := List.sizeOf_lt_of_mem h
      omega
  | switch subject cases default =>
    simp only [switch.sizeOf_spec]
    rcases List.mem_cons.1 h with rfl | h
    · omega
    · have hc := sizeOf_of_mem_values h
      omega
  | assign target value pos =>
    simp only [assign.sizeOf_spec]
    rcases List.mem_cons.1 h with rfl | h
    · omega
    · have hc := sizeOf_of_mem_targetParts h
      omega
  | yieldValue | unary | await | member | ifElse | whileLoop | forEach =>
    obtain rfl := List.mem_singleton.1 h
    simp only [yieldValue.sizeOf_spec, unary.sizeOf_spec, await.sizeOf_spec, member.sizeOf_spec,
      ifElse.sizeOf_spec, whileLoop.sizeOf_spec, forEach.sizeOf_spec]
    omega
  | binary | logical | index =>
    simp only [evaluated, List.mem_cons, List.not_mem_nil, or_false] at h
    simp only [binary.sizeOf_spec, logical.sizeOf_spec, index.sizeOf_spec]
    rcases h with rfl | rfl <;> omega
  | _ => exact absurd h List.not_mem_nil

/-- So is what it executes. -/
theorem sizeOf_executed {n : Node} (h : c ∈ n.executed) : sizeOf c < sizeOf n := by
  -- each kind of node names its own parts
  cases n with
  | block items =>
    have hc := List.sizeOf_lt_of_mem h
    simp only [block.sizeOf_spec, executed] at hc ⊢
    omega
  | ifElse condition thenBranch elseBranch =>
    simp only [ifElse.sizeOf_spec]
    rcases List.mem_cons.1 h with rfl | h
    · omega
    · have hc := sizeOf_of_mem_toList h
      omega
  | whileLoop | loop | forEach =>
    obtain rfl := List.mem_singleton.1 h
    simp only [whileLoop.sizeOf_spec, loop.sizeOf_spec, forEach.sizeOf_spec]
    omega
  | tryCatch body catchName handler =>
    simp only [executed, List.mem_cons, List.not_mem_nil, or_false] at h
    simp only [tryCatch.sizeOf_spec]
    rcases h with rfl | rfl <;> omega
  | switch subject cases default =>
    simp only [switch.sizeOf_spec]
    rcases List.mem_append.1 h with h | h
    · have hc := sizeOf_of_mem_bodies h
      omega
    · have hc := sizeOf_of_mem_getD h
      omega
  | _ => exact absurd h List.not_mem_nil

/-- So are the bodies of what it defines. -/
theorem sizeOf_definition {n : Node} {d : FunctionDef Node} (hd : d ∈ n.definitions)
    (h : c ∈ d.body.nodes) : sizeOf c < sizeOf n := by
  -- the nodes of a body are smaller than the definition
  have hbody : sizeOf c < sizeOf d := by
    obtain ⟨name, params, body, isAsync, pos⟩ := d
    simp only [FunctionDef.mk.sizeOf_spec]
    cases body with
    | block stmts =>
      have hc := List.sizeOf_lt_of_mem h
      simp only [FunctionBody.block.sizeOf_spec, FunctionBody.nodes] at hc ⊢
      omega
    | expr value =>
      obtain rfl := List.mem_singleton.1 h
      simp only [FunctionBody.expr.sizeOf_spec]
      omega
  cases n with
  | function | lambda =>
    obtain rfl := List.mem_singleton.1 hd
    simp only [function.sizeOf_spec, lambda.sizeOf_spec]
    omega
  | classDecl name parent methods pos =>
    have hlt := List.sizeOf_lt_of_mem hd
    simp only [classDecl.sizeOf_spec, definitions] at hlt ⊢
    omega
  | _ => exact absurd hd List.not_mem_nil

end Sizes

/-- So is every child. -/
theorem sizeOf_child {c n : Node} (h : c ∈ n.children) : sizeOf c < sizeOf n := by
  -- apart from programs and assignments, a child is a part of one of the three kinds
  have hparts (h : c ∈ n.evaluated ++ n.executed ++ n.definitions.flatMap (·.body.nodes)) :
      sizeOf c < sizeOf n := by
    simp only [List.mem_append, List.mem_flatMap] at h
    obtain (h | h) | ⟨d, hd, h⟩ := h
    · exact sizeOf_evaluated h
    · exact sizeOf_executed h
    · exact sizeOf_definition hd h
  cases n with
  | program items =>
    have hc := List.sizeOf_lt_of_mem h
    simp only [program.sizeOf_spec, children] at hc ⊢
    omega
  | assign target value pos =>
    simp only [children, List.mem_cons, List.not_mem_nil, or_false] at h
    simp only [assign.sizeOf_spec]
    rcases h with rfl | rfl <;> omega
  | _ => exact hparts h

/-- What occurs in a node is no larger. -/
theorem OccursIn.sizeOf_le {a n : Node} (h : a.OccursIn n) : sizeOf a ≤ sizeOf n := by
  induction h with
  | self => exact Nat.le_refl _
  | inside hc _ ih => exact Nat.le_trans ih (Nat.le_of_lt (sizeOf_child hc))

/-! ## Induction -/

/-- A node stands below another one: inside it, and it is smaller. -/
structure Below (c n : Node) : Prop where
  occurs : c.OccursIn n
  smaller : sizeOf c < sizeOf n

namespace Below

variable {c n : Node}

/-- A child is below its node. -/
theorem child (h : c ∈ n.children) : c.Below n :=
  ⟨.child h, sizeOf_child h⟩

/-- So is what it evaluates. -/
theorem of_evaluated (h : c ∈ n.evaluated) : c.Below n :=
  ⟨.of_evaluated h, sizeOf_evaluated h⟩

/-- So is what it executes. -/
theorem of_executed (h : c ∈ n.executed) : c.Below n :=
  ⟨.of_executed h, sizeOf_executed h⟩

/-- So are the bodies of what it defines. -/
theorem of_definition {d : FunctionDef Node} (hd : d ∈ n.definitions) (h : c ∈ d.body.nodes) :
    c.Below n :=
  ⟨.of_definition hd h, sizeOf_definition hd h⟩

/-- What is below a part is below the whole. -/
theorem trans {b : Node} (hcb : c.Below b) (hbn : b.Below n) : c.Below n :=
  ⟨hcb.occurs.trans hbn.occurs, Nat.lt_trans hcb.smaller hbn.smaller⟩

/-- The object of a called member stands two levels below the call. -/
theorem calledObject {object : Node} {name : String} {args : List Node} {pos pos' : Pos} :
    object.Below (.call (.member object name pos) args pos') :=
  have hcallee : Node.member object name pos ∈
      (Node.call (.member object name pos) args pos').evaluated := .head _
  trans (.of_evaluated (.head _)) (.of_evaluated hcallee)

end Below

/-- What holds of a tree whenever it holds of all that stands below it holds of every tree. -/
@[elab_as_elim]
theorem below_induction {P : Node → Prop} (node : ∀ n, (∀ c, c.Below n → P c) → P n) (n : Node) :
    P n := by
  induction hk : sizeOf n using Nat.strongRecOn generalizing n with
  | ind k ih => exact node n fun c hc => ih (sizeOf c) (hk ▸ hc.smaller) c rfl

/-! ## Well-formed parts -/

end Node

/-- Whether the body of a function stands where it may stand. -/
def FunctionBody.wellFormed : FunctionBody Node → Bool
  | .block stmts => statementsWellFormed stmts
  | .expr value => value.isExpression && value.wellFormed

/-- The two ways to say that a body is well-formed agree. -/
theorem FunctionBody.wellFormed_of_bodyWellFormed {body : FunctionBody Node}
    (h : bodyWellFormed body = true) : body.wellFormed = true := by
  cases body with
  | block stmts => rwa [bodyWellFormed] at h
  | expr value => simp [bodyWellFormed] at h

/-- A well-formed body is a block of well-formed statements or a well-formed expression. -/
theorem FunctionBody.wellFormed_cases {body : FunctionBody Node} (h : body.wellFormed = true) :
    (∃ stmts, body = .block stmts ∧ ∀ c ∈ stmts, c.wellFormed = true) ∨
      ∃ value, body = .expr value ∧ value.isExpression = true ∧ value.wellFormed = true := by
  cases body with
  | block stmts => exact .inl ⟨stmts, rfl, fun _ hc => statementsWellFormed_mem h hc⟩
  | expr value =>
    rw [FunctionBody.wellFormed, Bool.and_eq_true] at h
    exact .inr ⟨value, rfl, h⟩

namespace Node

section WellFormedParts

attribute [local simp] wellFormed statementsWellFormed expressionsWellFormed valueWellFormed
  elseWellFormed bodyWellFormed methodsWellFormed casesWellFormed defaultWellFormed pairsWellFormed

/-- An optional value is a well-formed expression. -/
theorem wellFormed_of_mem_toList {o : Option Node} (h : valueWellFormed o = true) {c : Node}
    (hc : c ∈ o.toList) : c.isExpression = true ∧ c.wellFormed = true := by
  cases o with
  | none => exact absurd hc List.not_mem_nil
  | some n =>
    obtain rfl := List.mem_singleton.1 hc
    simpa using h

/-- So is the value of a case, and its body is well-formed. -/
theorem wellFormed_of_mem_cases {cases : List (SwitchCase Node)} (h : casesWellFormed cases = true)
    {k : SwitchCase Node} (hk : k ∈ cases) :
    (k.value.isExpression = true ∧ k.value.wellFormed = true) ∧
      statementsWellFormed k.body = true := by
  induction cases with
  | nil => exact absurd hk List.not_mem_nil
  | cons first rest ih =>
    simp only [casesWellFormed, Bool.and_eq_true] at h
    rcases List.mem_cons.1 hk with rfl | hk
    · exact h.1
    · exact ih h.2 hk

/-- Entries have keys. -/
theorem isKey_of_mem_pairs {pairs : List (Node × Node)} (h : pairsWellFormed pairs = true)
    {e : Node × Node} (he : e ∈ pairs) : e.1.isKey = true := by
  induction pairs with
  | nil => exact absurd he List.not_mem_nil
  | cons first rest ih =>
    simp only [pairsWellFormed, Bool.and_eq_true] at h
    rcases List.mem_cons.1 he with rfl | he
    · exact h.1.1
    · exact ih h.2 he

/-- A key is a well-formed expression. -/
theorem isExpression_of_isKey {k : Node} (h : k.isKey = true) :
    k.isExpression = true ∧ k.wellFormed = true := by
  cases k with
  | text | number => exact ⟨rfl, by simp⟩
  | _ => cases h

/-- So are the keys and values of a map. -/
theorem wellFormed_of_mem_pairs {pairs : List (Node × Node)} (h : pairsWellFormed pairs = true)
    {c : Node} (hc : c ∈ pairs.flatMap fun p => [p.1, p.2]) :
    c.isExpression = true ∧ c.wellFormed = true := by
  induction pairs with
  | nil => exact absurd hc List.not_mem_nil
  | cons first rest ih =>
    obtain ⟨k, v⟩ := first
    simp only [pairsWellFormed, Bool.and_eq_true] at h
    rw [List.flatMap_cons, List.mem_append] at hc
    rcases hc with hc | hc
    · simp only [List.mem_cons, List.not_mem_nil, or_false] at hc
      rcases hc with rfl | rfl
      · exact isExpression_of_isKey h.1.1
      · exact h.1.2
    · exact ih h.2 hc

/-- So are the parts of a target. -/
theorem wellFormed_of_mem_targetParts {target : Node} (h : target.wellFormed = true) {c : Node}
    (hc : c ∈ target.targetParts) : c.isExpression = true ∧ c.wellFormed = true := by
  cases target with
  | member object name pos =>
    obtain rfl := List.mem_singleton.1 hc
    simpa only [wellFormed, Bool.and_eq_true] using h
  | index object place pos =>
    simp only [wellFormed, Bool.and_eq_true] at h
    simp only [targetParts, List.mem_cons, List.not_mem_nil, or_false] at hc
    rcases hc with rfl | rfl
    · exact h.1
    · exact h.2
  | _ => exact absurd hc List.not_mem_nil

/-- What a well-formed node evaluates is an expression. -/
theorem wellFormed_evaluated {c n : Node} (h : n.wellFormed = true) (hc : c ∈ n.evaluated) :
    c.isExpression = true ∧ c.wellFormed = true := by
  -- well-formedness has a clause for every part
  cases n with
  | declare name value constant pos =>
    simp only [wellFormed, Bool.and_eq_true] at h
    exact wellFormed_of_mem_toList h.2 hc
  | returnValue value =>
    rw [wellFormed] at h
    exact wellFormed_of_mem_toList h hc
  | print | primitive | array =>
    rw [wellFormed] at h
    exact expressionsWellFormed_mem h hc
  | map pairs =>
    rw [wellFormed] at h
    exact wellFormed_of_mem_pairs h hc
  | call callee args pos =>
    simp only [wellFormed, Bool.and_eq_true] at h
    rcases List.mem_cons.1 hc with rfl | hc
    · exact h.1
    · exact expressionsWellFormed_mem h.2 hc
  | switch subject cases default =>
    simp only [wellFormed, Bool.and_eq_true] at h
    rcases List.mem_cons.1 hc with rfl | hc
    · exact h.1.1
    · obtain ⟨k, hk, rfl⟩ := List.mem_map.1 hc
      exact (wellFormed_of_mem_cases h.1.2 hk).1
  | assign target value pos =>
    simp only [wellFormed, Bool.and_eq_true] at h
    rcases List.mem_cons.1 hc with rfl | hc
    · exact h.2
    · exact wellFormed_of_mem_targetParts h.1.2 hc
  | yieldValue | unary | await | member =>
    obtain rfl := List.mem_singleton.1 hc
    simpa only [wellFormed, Bool.and_eq_true] using h
  | ifElse =>
    obtain rfl := List.mem_singleton.1 hc
    simp only [wellFormed, Bool.and_eq_true] at h
    exact h.1.1
  | whileLoop | forEach =>
    obtain rfl := List.mem_singleton.1 hc
    simp only [wellFormed, Bool.and_eq_true] at h
    exact h.1
  | binary =>
    simp only [wellFormed, Bool.and_eq_true] at h
    simp only [evaluated, List.mem_cons, List.not_mem_nil, or_false] at hc
    rcases hc with rfl | rfl
    · exact h.1.2
    · exact h.2
  | logical | index =>
    simp only [wellFormed, Bool.and_eq_true] at h
    simp only [evaluated, List.mem_cons, List.not_mem_nil, or_false] at hc
    rcases hc with rfl | rfl
    · exact h.1
    · exact h.2
  | _ => exact absurd hc List.not_mem_nil

/-- What a well-formed node executes is well-formed. -/
theorem wellFormed_executed {c n : Node} (h : n.wellFormed = true) (hc : c ∈ n.executed) :
    c.wellFormed = true := by
  -- well-formedness has a clause for every part
  cases n with
  | block items =>
    rw [wellFormed] at h
    exact statementsWellFormed_mem h hc
  | ifElse condition thenBranch elseBranch =>
    simp only [wellFormed, Bool.and_eq_true] at h
    rcases List.mem_cons.1 hc with rfl | hc
    · exact h.1.2.2
    · cases elseBranch with
      | none => exact absurd hc List.not_mem_nil
      | some e =>
        obtain rfl := List.mem_singleton.1 hc
        have he := h.2
        simp only [elseWellFormed, Bool.and_eq_true] at he
        exact he.2
  | whileLoop | forEach =>
    obtain rfl := List.mem_singleton.1 hc
    simp only [wellFormed, Bool.and_eq_true] at h
    exact h.2.2
  | loop =>
    obtain rfl := List.mem_singleton.1 hc
    simp only [wellFormed, Bool.and_eq_true] at h
    exact h.2
  | tryCatch body catchName handler =>
    simp only [wellFormed, Bool.and_eq_true] at h
    simp only [executed, List.mem_cons, List.not_mem_nil, or_false] at hc
    rcases hc with rfl | rfl
    · exact h.1.2
    · exact h.2.2
  | switch subject cases default =>
    simp only [wellFormed, Bool.and_eq_true] at h
    rcases List.mem_append.1 hc with hc | hc
    · obtain ⟨k, hk, hc⟩ := List.mem_flatMap.1 hc
      exact statementsWellFormed_mem (wellFormed_of_mem_cases h.1.2 hk).2 hc
    · cases default with
      | none => exact absurd hc List.not_mem_nil
      | some stmts =>
        have hd := h.2
        rw [defaultWellFormed] at hd
        exact statementsWellFormed_mem hd hc
  | _ => exact absurd hc List.not_mem_nil

/-- The functions that a well-formed node defines have well-formed bodies. -/
theorem wellFormed_definition {n : Node} {d : FunctionDef Node} (h : n.wellFormed = true)
    (hd : d ∈ n.definitions) : d.body.wellFormed = true := by
  cases n with
  | function =>
    obtain rfl := List.mem_singleton.1 hd
    simp only [wellFormed, Bool.and_eq_true] at h
    exact FunctionBody.wellFormed_of_bodyWellFormed h.2
  | lambda =>
    obtain rfl := List.mem_singleton.1 hd
    obtain ⟨name, params, body, isAsync, pos⟩ := d
    -- a short lambda has an expression for its body
    cases body with
    | block stmts =>
      simp only [wellFormed, Bool.and_eq_true] at h
      exact h.2
    | expr value =>
      simp only [wellFormed, Bool.and_eq_true] at h
      simpa only [FunctionBody.wellFormed, Bool.and_eq_true] using h.2
  | classDecl name parent methods pos =>
    rw [wellFormed] at h
    exact FunctionBody.wellFormed_of_bodyWellFormed (methodsWellFormed_mem h hd).2
  | _ => exact absurd hd List.not_mem_nil

/-- So is the object whose method is called. -/
theorem wellFormed_calledObject {object : Node} {name : String} {args : List Node} {pos pos' : Pos}
    (h : (Node.call (.member object name pos) args pos').wellFormed = true) :
    object.isExpression = true ∧ object.wellFormed = true := by
  simp only [wellFormed, Bool.and_eq_true] at h
  exact h.1.2

/-- Every child of a well-formed node is well-formed. -/
theorem wellFormed_child {c n : Node} (h : n.wellFormed = true) (hc : c ∈ n.children) :
    c.wellFormed = true := by
  -- a child is evaluated, executed or part of a definition
  have hparts (hc : c ∈ n.evaluated ++ n.executed ++ n.definitions.flatMap (·.body.nodes)) :
      c.wellFormed = true := by
    simp only [List.mem_append, List.mem_flatMap] at hc
    obtain (hc | hc) | ⟨d, hd, hc⟩ := hc
    · exact (wellFormed_evaluated h hc).2
    · exact wellFormed_executed h hc
    · obtain ⟨stmts, hb, hstmts⟩ | ⟨value, hb, -, hvalue⟩ := FunctionBody.wellFormed_cases (wellFormed_definition h hd)
      · rw [hb] at hc
        exact hstmts c hc
      · rw [hb] at hc
        obtain rfl := List.mem_singleton.1 hc
        exact hvalue
  -- the target of an assignment is a child that is not evaluated
  cases n with
  | program items => simp at h
  | assign target value pos =>
    simp only [wellFormed, Bool.and_eq_true] at h
    simp only [children, List.mem_cons, List.not_mem_nil, or_false] at hc
    rcases hc with rfl | rfl
    · exact h.1.2
    · exact h.2.2
  | _ => exact hparts hc

end WellFormedParts

/-- Whatever stands in a well-formed node is well-formed. -/
theorem OccursIn.wellFormed {a n : Node} (hocc : a.OccursIn n) (h : n.wellFormed = true) :
    a.wellFormed = true := by
  induction hocc with
  | self => exact h
  | inside hc _ ih => exact ih (wellFormed_child h hc)

end Node

end BrailleScript
