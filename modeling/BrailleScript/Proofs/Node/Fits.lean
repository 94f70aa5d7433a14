import BrailleScript.Proofs.Node.Parts

/-!
# Nodes that fit

`Node.Fits R` says that a node may stand as a statement, and `Node.FitsValue R` that it may stand as
an expression: it is well-formed, and the literals in it that are handed to reflection satisfy `R`.
There is one lemma for each kind of node, which puts it together from parts that fit.

## Key results

- `Node.Literals.of_children`: the literals of a node are those of its children
- `Node.Fits.ifElse`, `Node.Fits.switch`, `Node.FitsValue.assign`, `Node.FitsValue.infixNode` and
  the others: nodes from their parts
-/

namespace BrailleScript

namespace Node

variable {R : String → Prop} {n : Node}

/-- The literal sources that are handed to reflection satisfy `R`. -/
def Literals (R : String → Prop) (n : Node) : Prop :=
  ∀ s rest pos, (Node.primitive .reflectExec (.text s :: rest) pos).OccursIn n → R s

/-- The node may stand as a statement. -/
structure Fits (R : String → Prop) (n : Node) : Prop where
  wellFormed : n.wellFormed = true
  literals : n.Literals R

/-- The node may stand as an expression. -/
structure FitsValue (R : String → Prop) (n : Node) : Prop extends n.Fits R where
  isExpression : n.isExpression = true
  text : ∀ s, n = .text s → R s

/-- The literals of a node are fine when those of its children are, and it reflects none itself. -/
theorem Literals.of_children (h : ∀ c ∈ n.children, c.Literals R)
    (hp : ∀ s rest pos, n ≠ .primitive .reflectExec (.text s :: rest) pos) : n.Literals R := by
  intro s rest pos hocc
  cases hocc with
  | self => exact absurd rfl (hp s rest pos)
  | inside hc hin => exact h _ hc s rest pos hin

namespace Fits

/-- Such a node fits when it is well-formed. -/
theorem of_children (hw : n.wellFormed = true) (hc : ∀ c ∈ n.children, c.Literals R)
    (hp : ∀ s rest pos, n ≠ .primitive .reflectExec (.text s :: rest) pos) : n.Fits R :=
  ⟨hw, .of_children hc hp⟩

/-- A node without parts. -/
theorem leaf (hw : n.wellFormed = true) (hc : n.children = [])
    (hp : ∀ s rest pos, n ≠ .primitive .reflectExec (.text s :: rest) pos) : n.Fits R :=
  .of_children hw (fun _ h => absurd (hc ▸ h) List.not_mem_nil) hp

end Fits

/-- An expression that fits is a value that fits, unless it is a text. -/
theorem FitsValue.of_fits (h : n.Fits R) (he : n.isExpression = true) (ht : ∀ s, n ≠ .text s) :
    n.FitsValue R :=
  ⟨h, he, fun s hs => absurd hs (ht s)⟩

/-- A value that fits is a well-formed expression. -/
theorem FitsValue.and_eq (h : n.FitsValue R) : (n.isExpression && n.wellFormed) = true := by
  rw [h.isExpression, h.wellFormed, Bool.and_self]

end Node

/-- A definition whose body is a block of statements that fit. -/
def FunctionDef.Fits (R : String → Prop) (d : FunctionDef Node) : Prop :=
  ∃ stmts, d.body = .block stmts ∧ ∀ n ∈ stmts, n.Fits R

/-! ## Lists of parts -/

section Lists

variable {R : String → Prop} {items : List Node}

/-- Statements that fit are well-formed. -/
theorem statementsWellFormed_of_fits (h : ∀ n ∈ items, n.Fits R) :
    statementsWellFormed items = true := by
  induction items with
  | nil => rfl
  | cons n rest ih =>
    rw [List.forall_mem_cons] at h
    simp only [statementsWellFormed, h.1.wellFormed, ih h.2, Bool.and_self]

/-- So are expressions. -/
theorem expressionsWellFormed_of_fits (h : ∀ n ∈ items, n.FitsValue R) :
    expressionsWellFormed items = true := by
  induction items with
  | nil => rfl
  | cons n rest ih =>
    rw [List.forall_mem_cons] at h
    simp only [expressionsWellFormed, h.1.and_eq, ih h.2, Bool.and_self]

/-- So are the entries of a map. -/
theorem pairsWellFormed_of_fits {pairs : List (Node × Node)}
    (h : ∀ p ∈ pairs, p.1.isKey = true ∧ p.2.FitsValue R) : pairsWellFormed pairs = true := by
  induction pairs with
  | nil => rfl
  | cons p rest ih =>
    rw [List.forall_mem_cons] at h
    simp only [pairsWellFormed, h.1.1, h.1.2.and_eq, ih h.2, Bool.and_self]

/-- So are the cases of a switch. -/
theorem casesWellFormed_of_fits {cases : List (SwitchCase Node)}
    (h : ∀ k ∈ cases, k.value.FitsValue R ∧ ∀ n ∈ k.body, n.Fits R) :
    casesWellFormed cases = true := by
  induction cases with
  | nil => rfl
  | cons k rest ih =>
    rw [List.forall_mem_cons] at h
    simp only [casesWellFormed, h.1.1.and_eq, statementsWellFormed_of_fits h.1.2, ih h.2,
      Bool.and_self]

/-- So is the body of a function that fits. -/
theorem FunctionDef.Fits.wellFormed {d : FunctionDef Node} (h : d.Fits R) :
    bodyWellFormed d.body = true := by
  obtain ⟨stmts, hbody, hstmts⟩ := h
  rw [hbody, bodyWellFormed, statementsWellFormed_of_fits hstmts]

/-- Its literals are fine. -/
theorem FunctionDef.Fits.literals {d : FunctionDef Node} (h : d.Fits R) :
    ∀ n ∈ d.body.nodes, n.Literals R := by
  obtain ⟨stmts, hbody, hstmts⟩ := h
  rw [hbody]
  exact fun n hn => (hstmts n hn).literals

/-- Methods that fit are well-formed. -/
theorem methodsWellFormed_of_fits {methods : List (FunctionDef Node)}
    (h : ∀ d ∈ methods, d.name.isSome = true ∧ d.Fits R) : methodsWellFormed methods = true := by
  induction methods with
  | nil => rfl
  | cons d rest ih =>
    rw [List.forall_mem_cons] at h
    simp only [methodsWellFormed, h.1.1, h.1.2.wellFormed, ih h.2, Bool.and_self]

end Lists

/-! ## Nodes from their parts -/

namespace Node

variable {R : String → Prop}

namespace Fits

/-- A declaration fits when its value does, which a constant must have; below are the other
nodes. -/
theorem declare {name : String} {value : Option Node} {constant : Bool} {pos : Pos}
    (hc : constant = true → value.isSome = true) (hv : ∀ v ∈ value, v.FitsValue R) :
    (Node.declare name value constant pos).Fits R := by
  refine .of_children ?_ ?_ nofun
  · cases value with
    | none =>
      -- a constant without a value is no declaration
      cases constant with
      | true => exact nomatch hc rfl
      | false => rfl
    | some v => simp [Node.wellFormed, valueWellFormed, (hv v rfl).isExpression, (hv v rfl).wellFormed]
  · intro c h
    simp only [children, evaluated, executed, definitions, List.flatMap_nil, List.append_nil,
      Option.mem_toList] at h
    exact (hv c h).literals

/-- A return with or without a value. -/
theorem returnValue {value : Option Node} (hv : ∀ v ∈ value, v.FitsValue R) :
    (Node.returnValue value).Fits R := by
  refine .of_children ?_ ?_ nofun
  · cases value with
    | none => rfl
    | some v => simp [Node.wellFormed, valueWellFormed, (hv v rfl).isExpression, (hv v rfl).wellFormed]
  · intro c h
    simp only [children, evaluated, executed, definitions, List.flatMap_nil, List.append_nil,
      Option.mem_toList] at h
    exact (hv c h).literals

/-- A function with a name. -/
theorem function {d : FunctionDef Node} (hn : d.name.isSome = true) (hd : d.Fits R) :
    (Node.function d).Fits R := by
  refine .of_children ?_ ?_ nofun
  · simp only [Node.wellFormed, hn, hd.wellFormed, Bool.and_self]
  · simpa using hd.literals

/-- A class with methods that have names. -/
theorem classDecl {name : String} {parent : Option String} {methods : List (FunctionDef Node)}
    {pos : Pos} (h : ∀ d ∈ methods, d.name.isSome = true ∧ d.Fits R) :
    (Node.classDecl name parent methods pos).Fits R := by
  refine .of_children ?_ ?_ nofun
  · rw [Node.wellFormed, methodsWellFormed_of_fits h]
  · intro c hc
    simp only [children, evaluated, executed, definitions, List.nil_append, List.mem_flatMap] at hc
    obtain ⟨d, hd, hc⟩ := hc
    exact (h d hd).2.literals c hc

/-- A block of statements. -/
theorem block {items : List Node} (h : ∀ n ∈ items, n.Fits R) : (Node.block items).Fits R := by
  refine .of_children ?_ ?_ nofun
  · rw [Node.wellFormed, statementsWellFormed_of_fits h]
  · simpa using fun n hn => (h n hn).literals

/-- A print of some values. -/
theorem print {args : List Node} (h : ∀ n ∈ args, n.FitsValue R) : (Node.print args).Fits R := by
  refine .of_children ?_ ?_ nofun
  · rw [Node.wellFormed, expressionsWellFormed_of_fits h]
  · simpa using fun n hn => (h n hn).literals

/-- A yield. -/
theorem yieldValue {value : Node} (h : value.FitsValue R) : (Node.yieldValue value).Fits R := by
  refine .of_children ?_ ?_ nofun
  · rw [Node.wellFormed, h.and_eq]
  · simpa using h.literals

/-- The branches of a conditional are blocks, or a conditional behind `else`. -/
theorem ifElse {c t : Node} {e : Option Node} (hc : c.FitsValue R) (ht : t.Fits R)
    (hb : t.isBlock = true) (he : ∀ n ∈ e, n.Fits R ∧ (n.isBlock || n.isConditional) = true) :
    (Node.ifElse c t e).Fits R := by
  refine .of_children ?_ ?_ nofun
  · -- behind `else` stands a block or another conditional
    have helse : elseWellFormed e = true := by
      cases e with
      | none => rfl
      | some n => rw [elseWellFormed, (he n rfl).2, (he n rfl).1.wellFormed, Bool.and_self]
    simp only [Node.wellFormed, hc.and_eq, hb, ht.wellFormed, helse, Bool.and_self]
  · intro n hn
    simp only [children, evaluated, executed, definitions, List.flatMap_nil, List.append_nil,
      List.cons_append, List.nil_append, List.mem_cons, Option.mem_toList] at hn
    rcases hn with rfl | rfl | hn
    · exact hc.literals
    · exact ht.literals
    · exact (he n hn).1.literals

/-- A loop with a condition. -/
theorem whileLoop {c b : Node} (hc : c.FitsValue R) (hb : b.Fits R) (hblock : b.isBlock = true) :
    (Node.whileLoop c b).Fits R := by
  refine .of_children ?_ ?_ nofun
  · simp only [Node.wellFormed, hc.and_eq, hblock, hb.wellFormed, Bool.and_self]
  · simp [hc.literals, hb.literals]

/-- An endless loop. -/
theorem loop {b : Node} (hb : b.Fits R) (hblock : b.isBlock = true) : (Node.loop b).Fits R := by
  refine .of_children ?_ ?_ nofun
  · simp only [Node.wellFormed, hblock, hb.wellFormed, Bool.and_self]
  · simp [hb.literals]

/-- A loop over items. -/
theorem forEach {var : String} {i b : Node} (hi : i.FitsValue R) (hb : b.Fits R)
    (hblock : b.isBlock = true) : (Node.forEach var i b).Fits R := by
  refine .of_children ?_ ?_ nofun
  · simp only [Node.wellFormed, hi.and_eq, hblock, hb.wellFormed, Bool.and_self]
  · simp [hi.literals, hb.literals]

/-- A try statement with its handler. -/
theorem tryCatch {b h : Node} {name : Option String} (hb : b.Fits R) (hblock : b.isBlock = true)
    (hh : h.Fits R) (hhandler : h.isBlock = true) : (Node.tryCatch b name h).Fits R := by
  refine .of_children ?_ ?_ nofun
  · simp only [Node.wellFormed, hblock, hb.wellFormed, hhandler, hh.wellFormed, Bool.and_self]
  · simp [hb.literals, hh.literals]

/-- A switch with its cases and its default. -/
theorem switch {s : Node} {cases : List (SwitchCase Node)} {d : Option (List Node)}
    (hs : s.FitsValue R) (hc : ∀ k ∈ cases, k.value.FitsValue R ∧ ∀ n ∈ k.body, n.Fits R)
    (hd : ∀ stmts ∈ d, ∀ n ∈ stmts, n.Fits R) : (Node.switch s cases d).Fits R := by
  refine .of_children ?_ ?_ nofun
  · have hdefault : defaultWellFormed d = true := by
      cases d with
      | none => rfl
      | some stmts => rw [defaultWellFormed, statementsWellFormed_of_fits (hd stmts rfl)]
    simp only [Node.wellFormed, hs.and_eq, casesWellFormed_of_fits hc, hdefault, Bool.and_self]
  · intro n hn
    simp only [children, evaluated, executed, definitions, List.flatMap_nil, List.append_nil,
      List.cons_append, List.mem_cons, List.mem_append, List.mem_map, List.mem_flatMap] at hn
    obtain rfl | ⟨k, hk, rfl⟩ | ⟨k, hk, hn⟩ | hn := hn
    · exact hs.literals
    · exact (hc k hk).1.literals
    · exact ((hc k hk).2 n hn).literals
    · cases d with
      | none => exact absurd hn List.not_mem_nil
      | some stmts => exact (hd stmts rfl n hn).literals

end Fits

namespace FitsValue

/-- An array. -/
theorem array {items : List Node} (h : ∀ n ∈ items, n.FitsValue R) :
    (Node.array items).FitsValue R := by
  refine .of_fits (.of_children ?_ ?_ nofun) rfl nofun
  · rw [Node.wellFormed, expressionsWellFormed_of_fits h]
  · simpa using fun n hn => (h n hn).literals

/-- The key of an entry has no literals. -/
theorem key_literals {k : Node} (h : k.isKey = true) : k.Literals R := by
  cases k with
  | text | number => exact .of_children (fun c hc => absurd hc List.not_mem_nil) nofun
  | _ => cases h

/-- A map. -/
theorem map {pairs : List (Node × Node)}
    (h : ∀ p ∈ pairs, p.1.isKey = true ∧ p.2.FitsValue R) : (Node.map pairs).FitsValue R := by
  refine .of_fits (.of_children ?_ ?_ nofun) rfl nofun
  · rw [Node.wellFormed, pairsWellFormed_of_fits h]
  · intro c hc
    simp only [children, evaluated, executed, definitions, List.flatMap_nil, List.append_nil,
      List.mem_flatMap, List.mem_cons, List.not_mem_nil, or_false] at hc
    obtain ⟨p, hp, rfl | rfl⟩ := hc
    · exact key_literals (h p hp).1
    · exact (h p hp).2.literals

/-- An assignment to a target. -/
theorem assign {t v : Node} {pos : Pos} (ht : t.FitsValue R) (htarget : Parser.isTarget t = true)
    (hv : v.FitsValue R) : (Node.assign t v pos).FitsValue R := by
  refine .of_fits (.of_children ?_ ?_ nofun) rfl nofun
  · simp only [Node.wellFormed, htarget, ht.wellFormed, hv.and_eq, Bool.and_self]
  · simp [ht.literals, hv.literals]

/-- A lambda with a block for its body. -/
theorem lambda {d : FunctionDef Node} (hn : d.name.isNone = true) (hd : d.Fits R) :
    (Node.lambda d).FitsValue R := by
  refine .of_fits (.of_children ?_ ?_ nofun) rfl nofun
  · obtain ⟨name, params, body, isAsync, pos⟩ := d
    obtain ⟨stmts, rfl, hstmts⟩ := hd
    simp only [Node.wellFormed, hn, statementsWellFormed_of_fits hstmts, Bool.and_self]
  · simpa using hd.literals

/-- A lambda with an expression for its body. -/
theorem shortLambda {params : List String} {v : Node} {pos : Pos} (hv : v.FitsValue R) :
    (Node.lambda ⟨none, params, .expr v, false, pos⟩).FitsValue R := by
  refine .of_fits (.of_children ?_ ?_ nofun) rfl nofun
  · simp only [Node.wellFormed, hv.and_eq, Option.isNone_none, Bool.not_false, Bool.and_self]
  · simpa using hv.literals

/-- A binary operator. -/
theorem binary {op : Operator} {a b : Node} {pos : Pos} (hop : op.isBinary = true)
    (ha : a.FitsValue R) (hb : b.FitsValue R) : (Node.binary op a b pos).FitsValue R := by
  refine .of_fits (.of_children ?_ ?_ nofun) rfl nofun
  · simp only [Node.wellFormed, hop, ha.and_eq, hb.and_eq, Bool.and_self]
  · simp [ha.literals, hb.literals]

/-- A logical operator. -/
theorem logical {op : LogicalOp} {a b : Node} (ha : a.FitsValue R) (hb : b.FitsValue R) :
    (Node.logical op a b).FitsValue R := by
  refine .of_fits (.of_children ?_ ?_ nofun) rfl nofun
  · simp only [Node.wellFormed, ha.and_eq, hb.and_eq, Bool.and_self]
  · simp [ha.literals, hb.literals]

/-- A unary operator. -/
theorem unary {op : UnaryOp} {e : Node} {pos : Pos} (he : e.FitsValue R) :
    (Node.unary op e pos).FitsValue R := by
  refine .of_fits (.of_children ?_ ?_ nofun) rfl nofun
  · rw [Node.wellFormed, he.and_eq]
  · simp [he.literals]

/-- Waiting for a value. -/
theorem await {e : Node} (he : e.FitsValue R) : (Node.await e).FitsValue R := by
  refine .of_fits (.of_children ?_ ?_ nofun) rfl nofun
  · rw [Node.wellFormed, he.and_eq]
  · simp [he.literals]

/-- A member. -/
theorem member {e : Node} {name : String} {pos : Pos} (he : e.FitsValue R) :
    (Node.member e name pos).FitsValue R := by
  refine .of_fits (.of_children ?_ ?_ nofun) rfl nofun
  · rw [Node.wellFormed, he.and_eq]
  · simp [he.literals]

/-- An item. -/
theorem index {e i : Node} {pos : Pos} (he : e.FitsValue R) (hi : i.FitsValue R) :
    (Node.index e i pos).FitsValue R := by
  refine .of_fits (.of_children ?_ ?_ nofun) rfl nofun
  · simp only [Node.wellFormed, he.and_eq, hi.and_eq, Bool.and_self]
  · simp [he.literals, hi.literals]

/-- A call. -/
theorem call {e : Node} {args : List Node} {pos : Pos} (he : e.FitsValue R)
    (ha : ∀ n ∈ args, n.FitsValue R) : (Node.call e args pos).FitsValue R := by
  refine .of_fits (.of_children ?_ ?_ nofun) rfl nofun
  · simp only [Node.wellFormed, he.and_eq, expressionsWellFormed_of_fits ha, Bool.and_self]
  · simpa [he.literals] using
      fun n hn => (ha n hn).literals

/-- What an operator makes of its operands. -/
theorem infixNode {op : Operator} {a b : Node} {pos : Pos} (hop : op.isInfix = true)
    (ha : a.FitsValue R) (hb : b.FitsValue R) : (Parser.infixNode op a b pos).FitsValue R := by
  cases op with
  | bang | assign | arrow | dot => cases hop
  | pipe => exact .call hb (List.forall_mem_singleton.2 ha)
  | both | either => exact .logical ha hb
  | _ => exact .binary rfl ha hb

/-- The first argument of a reflection may be a literal, which is the text of a token. -/
theorem primitive {p : Primitive} {args : List Node} {pos : Pos}
    (ha : ∀ n ∈ args, n.FitsValue R) : (Node.primitive p args pos).FitsValue R := by
  refine .of_fits ⟨?_, fun s rest pos' hocc => ?_⟩ rfl nofun
  · rw [Node.wellFormed, expressionsWellFormed_of_fits ha]
  · -- the reflection is the node itself, or stands in one of its arguments
    cases hocc with
    | self => exact (ha _ (.head _)).text s rfl
    | inside hc hin =>
      simp only [children, evaluated, executed, definitions, List.flatMap_nil,
        List.append_nil] at hc
      exact (ha _ hc).literals s rest pos' hin

end FitsValue

end Node

end BrailleScript
