import BrailleScript.Proofs.JavaScript.Sketch
import BrailleScript.Proofs.Node.Soundness

/-!
# Tidy sketches

In the sketch of a program, what declares a name, breaks, or yields stands where statements stand: the
parts of a value are functions and literal sources only.

## Key results

- `tidy_sketch`: trees
- `tidy_program`: programs, literal sources included
-/

namespace BrailleScript.JavaScript

namespace Sketch

/-- Whether the part is one of a value. -/
def isValue : Sketch → Bool
  | .function .. | .value _ | .literal _ | .refused | .turned .. => true
  | .bind .. | .leave | .give _ | .scope _ | .guard | .loop _ | .switch .. => false

/-- The parts are those of a value. -/
abbrev AreValues (ss : List Sketch) : Prop :=
  ∀ s ∈ ss, s.isValue = true

/-- What a part declares in the scope in which it stands. -/
def declares : Sketch → List (Binder × String)
  | .bind how name _ => [(how, name)]
  | _ => []

/-- Values declare nothing. -/
theorem AreValues.flatMap_declares {ss : List Sketch} (h : AreValues ss) : ss.flatMap declares = [] := by
  refine List.flatMap_eq_nil_iff.2 fun s hs => ?_
  have hs := h s hs
  cases s <;> first | rfl | cases hs

/-- Statements stand only where a program has them. -/
inductive Tidy : List Sketch → Prop
  | nil : Tidy []
  | bind {how name value rest} (hvalue : AreValues value) (hinside : Tidy value) (hrest : Tidy rest) :
    Tidy (.bind how name value :: rest)
  | leave {rest} (hrest : Tidy rest) : Tidy (.leave :: rest)
  | give {value rest} (hvalue : AreValues value) (hinside : Tidy value) (hrest : Tidy rest) :
    Tidy (.give value :: rest)
  | scope {inside rest} (hinside : Tidy inside) (hrest : Tidy rest) : Tidy (.scope inside :: rest)
  | loop {inside rest} (hinside : Tidy inside) (hrest : Tidy rest) : Tidy (.loop inside :: rest)
  | guarded {inside rest} (hinside : Tidy inside) (hrest : Tidy rest) :
    Tidy (.loop (.guard :: inside) :: rest)
  | switch {subject branches rest} (hvalue : AreValues subject) (hsubject : Tidy subject)
    (hdeclares : branches.flatMap declares = []) (hbranches : Tidy branches) (hrest : Tidy rest) :
    Tidy (.switch subject branches :: rest)
  | function {params inside rest} (hinside : Tidy inside) (hrest : Tidy rest) :
    Tidy (.function params inside :: rest)
  | value {inside rest} (hvalue : AreValues inside) (hinside : Tidy inside) (hrest : Tidy rest) :
    Tidy (.value inside :: rest)
  | literal {inside rest} (hinside : Tidy inside) (hrest : Tidy rest) :
    Tidy (.literal inside :: rest)
  | refused {rest} (hrest : Tidy rest) : Tidy (.refused :: rest)
  | turned {first second rest} (hvalue : AreValues first) (hfirst : Tidy first)
    (hvalue' : AreValues second) (hsecond : Tidy second) (hrest : Tidy rest) :
    Tidy (.turned first second :: rest)

namespace Tidy

variable {ss ts : List Sketch}

/-- Tidy sketches are tidy in a row. -/
theorem append (hs : Tidy ss) (ht : Tidy ts) : Tidy (ss ++ ts) := by
  -- the second row takes the place of the empty one at the end of the first
  induction hs with
  | nil => exact ht
  | bind hvalue hinside _ _ ih => exact .bind hvalue hinside ih
  | leave _ ih => exact .leave ih
  | give hvalue hinside _ _ ih => exact .give hvalue hinside ih
  | scope hinside _ _ ih => exact .scope hinside ih
  | loop hinside _ _ ih => exact .loop hinside ih
  | guarded hinside _ _ ih => exact .guarded hinside ih
  | switch hvalue hsubject hdeclares hbranches _ _ _ ih =>
    exact .switch hvalue hsubject hdeclares hbranches ih
  | function hinside _ _ ih => exact .function hinside ih
  | value hvalue hinside _ _ ih => exact .value hvalue hinside ih
  | literal hinside _ _ ih => exact .literal hinside ih
  | refused _ ih => exact .refused ih
  | turned hvalue hfirst hvalue' hsecond _ _ _ ih => exact .turned hvalue hfirst hvalue' hsecond ih

/-- They are tidy with their blocks opened. -/
theorem opened (h : Tidy ss) : Tidy (opened ss) := by
  unfold JavaScript.opened
  split
  next inside =>
    cases h with
    | scope hinside _ => exact hinside
  next => exact h

end Tidy

end Sketch

open Sketch (AreValues Tidy declares)

section Trees

variable {literal : String → List Sketch}

/-- The sketch of the node is tidy, and that of an expression is one of a value. -/
structure TidyNode (literal : String → List Sketch) (n : Node) : Prop where
  tidy : Tidy (sketch literal n)
  values : n.isExpression = true → AreValues (sketch literal n)

/-- The sketch of the node is one of a value. -/
def TidyValue (literal : String → List Sketch) (n : Node) : Prop :=
  Tidy (sketch literal n) ∧ AreValues (sketch literal n)

/-- Nodes with tidy sketches have a tidy row of them. -/
theorem tidy_sketchAll {items : List Node} (h : ∀ n ∈ items, Tidy (sketch literal n)) :
    Tidy (sketchAll literal items) := by
  induction items with
  | nil => exact .nil
  | cons n rest ih =>
    rw [List.forall_mem_cons] at h
    exact h.1.append (ih h.2)

/-- Nodes that are values have a row of values. -/
theorem values_sketchAll {items : List Node} (h : ∀ n ∈ items, AreValues (sketch literal n)) :
    AreValues (sketchAll literal items) := by
  induction items with
  | nil => exact List.forall_mem_nil _
  | cons n rest ih =>
    rw [List.forall_mem_cons] at h
    exact List.forall_mem_append.2 ⟨h.1, ih h.2⟩

/-- An optional node is tidy when it is there. -/
theorem tidy_sketchOption {value : Option Node} (h : ∀ n ∈ value.toList, Tidy (sketch literal n)) :
    Tidy (sketchOption literal value) := by
  cases value with
  | none => exact .nil
  | some n => exact h n (.head _)

/-- It is a value when it is there. -/
theorem values_sketchOption {value : Option Node}
    (h : ∀ n ∈ value.toList, AreValues (sketch literal n)) :
    AreValues (sketchOption literal value) := by
  cases value with
  | none => exact List.forall_mem_nil _
  | some n => exact h n (.head _)

/-- The entries of a map are tidy values. -/
theorem tidy_sketchPairs {pairs : List (Node × Node)}
    (h : ∀ n ∈ pairs.flatMap fun p => [p.1, p.2], TidyValue literal n) :
    Tidy (sketchPairs literal pairs) ∧ AreValues (sketchPairs literal pairs) := by
  induction pairs with
  | nil => exact ⟨.nil, List.forall_mem_nil _⟩
  | cons e rest ih =>
    rw [List.flatMap_cons, List.forall_mem_append, List.forall_mem_cons,
      List.forall_mem_singleton] at h
    obtain ⟨⟨⟨hk, hk'⟩, hv, hv'⟩, hrest⟩ := h
    exact ⟨(hk.append hv).append (ih hrest).1,
      List.forall_mem_append.2 ⟨List.forall_mem_append.2 ⟨hk', hv'⟩, (ih hrest).2⟩⟩

/-- The branches of a switch declare nothing outside of their scopes. -/
theorem tidy_sketchCases {cases : List (SwitchCase Node)}
    (hv : ∀ n ∈ cases.map (·.value), TidyValue literal n)
    (hb : ∀ n ∈ cases.flatMap (·.body), Tidy (sketch literal n)) :
    Tidy (sketchCases literal cases) ∧ (sketchCases literal cases).flatMap declares = [] := by
  induction cases with
  | nil => exact ⟨.nil, rfl⟩
  | cons k rest ih =>
    rw [List.map_cons, List.forall_mem_cons] at hv
    rw [List.flatMap_cons, List.forall_mem_append] at hb
    obtain ⟨⟨hvalue, hvalues⟩, hvrest⟩ := hv
    obtain ⟨htidy, hdeclares⟩ := ih hvrest hb.2
    refine ⟨hvalue.append (.scope (tidy_sketchAll hb.1) htidy), ?_⟩
    rw [sketchCases, List.flatMap_append, hvalues.flatMap_declares, List.flatMap_cons, hdeclares]
    rfl

/-- The default of a switch is tidy and declares nothing around it. -/
theorem tidy_sketchDefault {default : Option (List Node)}
    (h : ∀ n ∈ default.getD [], Tidy (sketch literal n)) :
    Tidy (sketchDefault literal default) ∧
      (sketchDefault literal default).flatMap declares = [] := by
  cases default with
  | none => exact ⟨.nil, rfl⟩
  | some items => exact ⟨.scope (tidy_sketchAll h) .nil, rfl⟩

/-- The parts of a function have tidy sketches. -/
def TidyBody (literal : String → List Sketch) : FunctionBody Node → Prop
  | .block stmts => ∀ n ∈ stmts, Tidy (sketch literal n)
  | .expr value => TidyValue literal value

/-- A function definition is tidy and a value. -/
theorem tidy_sketchFunction {d : FunctionDef Node} (h : TidyBody literal d.body) (arrow : Bool) :
    Tidy (sketchFunction literal arrow d) ∧ AreValues (sketchFunction literal arrow d) := by
  obtain ⟨name, params, body, isAsync, pos⟩ := d
  -- a body is a row of statements, or an expression to return
  cases body with
  | block stmts => exact ⟨.function (tidy_sketchAll h) .nil, List.forall_mem_singleton.2 rfl⟩
  | expr value =>
    rw [sketchFunction, sketchBody]
    split
    · exact ⟨.value h.2 h.1 .nil, List.forall_mem_singleton.2 rfl⟩
    · exact ⟨.function h.1 .nil, List.forall_mem_singleton.2 rfl⟩

/-- The methods of a class are tidy. -/
theorem tidy_sketchMethods {methods : List (FunctionDef Node)}
    (h : ∀ d ∈ methods, TidyBody literal d.body) : Tidy (sketchMethods literal methods) := by
  induction methods with
  | nil => exact .nil
  | cons d rest ih =>
    rw [List.forall_mem_cons] at h
    exact (tidy_sketchFunction h.1 false).1.append (ih h.2)

/-- The sketch of a well-formed tree is tidy. -/
theorem tidy_sketch {n : Node} (hwf : n.wellFormed = true)
    (hl : ∀ s, Tidy (literal s) ∧ AreValues (literal s)) : TidyNode literal n := by
  -- what a node evaluates is a tidy value, and what it executes is tidy
  induction n using Node.below_induction with
  | node n ih =>
    have hvalue {c : Node} (hc : c.Below n) (h : c.isExpression = true ∧ c.wellFormed = true) :
        TidyValue literal c :=
      have hnode := ih c hc h.2
      ⟨hnode.tidy, hnode.values h.1⟩
    have hv {c : Node} (hc : c ∈ n.evaluated) : TidyValue literal c :=
      hvalue (.of_evaluated hc) (Node.wellFormed_evaluated hwf hc)
    have hb {c : Node} (hc : c ∈ n.executed) : Tidy (sketch literal c) :=
      (ih c (.of_executed hc) (Node.wellFormed_executed hwf hc)).tidy
    have hd {d : FunctionDef Node} (hd : d ∈ n.definitions) : TidyBody literal d.body := by
      have hnode {c : Node} (hc : c ∈ d.body.nodes) : c.Below n := .of_definition hd hc
      obtain ⟨stmts, hform, hstmts⟩ | ⟨value, hform, hwf⟩ :=
        FunctionBody.wellFormed_cases (Node.wellFormed_definition hwf hd)
      · rw [hform] at hnode ⊢
        exact fun c hc => (ih c (hnode hc) (hstmts c hc)).tidy
      · rw [hform] at hnode ⊢
        exact hvalue (hnode (.head _)) hwf
    have hvalues {items : List Node} (h : ∀ c ∈ items, TidyValue literal c) :
        Tidy (sketchAll literal items) ∧ AreValues (sketchAll literal items) :=
      ⟨tidy_sketchAll fun c hc => (h c hc).1, values_sketchAll fun c hc => (h c hc).2⟩
    have hoption {value : Option Node} (h : ∀ c ∈ value.toList, TidyValue literal c) :
        Tidy (sketchOption literal value) ∧ AreValues (sketchOption literal value) :=
      ⟨tidy_sketchOption fun c hc => (h c hc).1, values_sketchOption fun c hc => (h c hc).2⟩
    have hstatement (htidy : Tidy (sketch literal n)) (hexpr : n.isExpression = false) :
        TidyNode literal n := ⟨htidy, fun h => absurd h (by simp [hexpr])⟩
    have hexpression (h : TidyValue literal n) : TidyNode literal n := ⟨h.1, fun _ => h.2⟩
    -- statements are tidy, and expressions are values besides
    cases n with
    | program | error => exact absurd hwf (by simp [Node.wellFormed])
    | declare name value constant pos =>
      have hvalue := hoption fun c => hv
      exact hstatement (.bind hvalue.2 hvalue.1 .nil) rfl
    | function d =>
      exact hstatement (.bind (List.forall_mem_nil _) .nil
        (tidy_sketchFunction (hd (.head _)) false).1) rfl
    | classDecl name parent methods pos =>
      exact hstatement (.bind (List.forall_mem_nil _) .nil
        (.scope (tidy_sketchMethods fun d => hd) .nil)) rfl
    | importModule module pos =>
      exact hstatement (.bind (List.forall_mem_nil _) .nil .nil) rfl
    | print args => exact hstatement (hvalues fun c => hv).1 rfl
    | block items => exact hstatement (.scope (tidy_sketchAll fun c => hb) .nil) rfl
    | returnValue value => exact hstatement (hoption fun c => hv).1 rfl
    | yieldValue value =>
      have hvalue := hv (.head _)
      exact hstatement (.give hvalue.2 hvalue.1 .nil) rfl
    | breakLoop => exact hstatement (.leave .nil) rfl
    | continueLoop | halt => exact hstatement .nil rfl
    | ifElse c t e =>
      exact hstatement (((hv (.head _)).1.append (hb (.head _))).append
        (tidy_sketchOption fun c hc => hb (.tail _ hc))) rfl
    | whileLoop c b =>
      exact hstatement ((hv (.head _)).1.append (.loop (hb (.head _)).opened .nil)) rfl
    | forEach var c b =>
      exact hstatement ((hv (.head _)).1.append (.loop (hb (.head _)) .nil)) rfl
    | loop b => exact hstatement (.guarded (hb (.head _)) .nil) rfl
    | tryCatch b name h =>
      have hhandler := hb (.tail _ (.head _))
      refine hstatement ((hb (.head _)).append (.scope ?_ .nil)) rfl
      cases name with
      | none => exact hhandler
      | some e => exact .bind (List.forall_mem_nil _) .nil hhandler
    | switch subject cases default =>
      have hsubject := hv (.head _)
      have hcases := tidy_sketchCases (fun c hc => hv (.tail _ hc))
        (fun c hc => hb (List.mem_append_left _ hc))
      have hdefault := tidy_sketchDefault fun c hc => hb (List.mem_append_right _ hc)
      refine hstatement (.switch hsubject.2 hsubject.1 ?_ (hcases.1.append hdefault.1) .nil) rfl
      rw [List.flatMap_append, hcases.2, hdefault.2]
      rfl
    | assign target value pos =>
      have hvalue := hv (.head _)
      have htarget : TidyValue literal target := by
        simp only [Node.wellFormed, Bool.and_eq_true] at hwf
        cases target with
        | identifier => exact ⟨.nil, List.forall_mem_nil _⟩
        | member object name pos =>
          have ho : TidyValue literal object := hv (.tail _ (.head _))
          exact ho
        | index object place pos =>
          have ho := hv (.tail _ (.head _))
          have hp := hv (.tail _ (.tail _ (.head _)))
          exact ⟨ho.1.append hp.1, List.forall_mem_append.2 ⟨ho.2, hp.2⟩⟩
        | _ => exact absurd hwf.1.1 Bool.false_ne_true
      exact hexpression ⟨.turned htarget.2 htarget.1 hvalue.2 hvalue.1 .nil,
        List.forall_mem_singleton.2 rfl⟩
    | call callee args pos =>
      have hcallee := hv (.head _)
      have hargs := hvalues fun c hc => hv (.tail _ hc)
      exact hexpression ⟨.turned hcallee.2 hcallee.1 hargs.2 hargs.1 .nil,
        List.forall_mem_singleton.2 rfl⟩
    | lambda d => exact hexpression (tidy_sketchFunction (hd (.head _)) true)
    | binary op a b pos | logical op a b | index a b pos =>
      have ha := hv (.head _)
      have hb := hv (.tail _ (.head _))
      exact hexpression ⟨ha.1.append hb.1, List.forall_mem_append.2 ⟨ha.2, hb.2⟩⟩
    | unary op a pos | await a | member a name pos =>
      have ha : TidyValue literal a := hv (.head _)
      exact hexpression ha
    | primitive p args pos =>
      refine hexpression ?_
      unfold TidyValue
      unfold sketch
      split
      · exact hl _
      · exact hvalues fun c => hv
    | array items => exact hexpression (hvalues fun c => hv)
    | map pairs => exact hexpression (tidy_sketchPairs fun c => hv)
    | identifier | this | super | number | text | bool | null =>
      exact hexpression ⟨.nil, List.forall_mem_nil _⟩

end Trees

/-- The sketch of a literal source is one of a value. -/
theorem tidy_sketchLiteral (fuel : Nat) (source : String) :
    Tidy (sketchLiteral fuel source) ∧ AreValues (sketchLiteral fuel source) := by
  -- each level of quotes uses up a part of the fuel
  induction fuel generalizing source with
  | zero => exact ⟨.nil, List.forall_mem_nil _⟩
  | succ fuel ih =>
    rw [sketchLiteral]
    split
    next items hparse =>
      have hprogram := parseSource_isProgram hparse
      exact ⟨.literal (tidy_sketchAll fun n hn =>
        (tidy_sketch (statementsWellFormed_mem hprogram hn) ih).tidy) .nil,
        List.forall_mem_singleton.2 rfl⟩
    next => exact ⟨.nil, List.forall_mem_nil _⟩
    next => exact ⟨.refused .nil, List.forall_mem_singleton.2 rfl⟩

/-- The sketch of a program is tidy. -/
theorem tidy_program {program : Node} (h : program.isProgram = true) :
    Tidy (sketchAll sketchText program.statements) := by
  cases program with
  | program items =>
    exact tidy_sketchAll fun _ hn => (tidy_sketch (statementsWellFormed_mem h hn) fun s =>
      tidy_sketchLiteral (s.length + 1) s).tidy
  | _ => exact absurd h Bool.false_ne_true

end BrailleScript.JavaScript
