import BrailleScript.JavaScript.Emitter
import BrailleScript.Proofs.Node.Soundness
import BrailleScript.Proofs.Token.Texts

/-!
# Emission without placeholders

The code emitted for a well-formed program does not depend on what placeholders look like, so there
are none in it.  This goes through literal sources that are compiled in place: a literal is shorter
than the source in which it stands, so the bound on their nesting is never reached.

## Key results

- `emit_alike`: well-formed nodes
- `reflectLiteral_eq`: literal sources
- `compileWith_eq`: programs
-/

namespace BrailleScript.JavaScript

variable {p p' : String → String} {r r' : Context → String → Emit String}

/-- The node is emitted alike wherever it may stand. -/
def Alike (p p' : String → String) (r r' : Context → String → Emit String) (n : Node) : Prop :=
  ∀ form ctx, (form = .expression → n.isExpression = true) →
    emit p r form ctx n = emit p' r' form ctx n

/-- The node is an expression that is emitted alike. -/
abbrev AlikeValue (p p' : String → String) (r r' : Context → String → Emit String) (n : Node) : Prop :=
  ∀ ctx, emit p r .expression ctx n = emit p' r' .expression ctx n

/-- Nodes that are alike are emitted alike as statements. -/
theorem Alike.standing {n : Node} (h : Alike p p' r r' n) (ctx : Context) :
    emit p r .standing ctx n = emit p' r' .standing ctx n :=
  h .standing ctx nofun

/-- And alike as bodies. -/
theorem Alike.body {n : Node} (h : Alike p p' r r' n) (ctx : Context) :
    emit p r .body ctx n = emit p' r' .body ctx n :=
  h .body ctx nofun

/-! ## Forms -/

/-- Lines are placed alike, unless they stand for an expression, which needs a placeholder. -/
theorem asLines_eq {form : Form} (hform : form ≠ .expression) {ctx : Context}
    {f g : Context → Emit String} (h : ∀ ctx, f ctx = g ctx) :
    asLines p form ctx f = asLines p' form ctx g := by
  obtain rfl : f = g := funext h
  cases form with
  | expression => exact absurd rfl hform
  | _ => rfl

/-- Expressions are placed alike everywhere. -/
theorem asExpression_eq {form : Form} {ctx : Context} {f g : Context → Emit String}
    (h : ∀ ctx, f ctx = g ctx) : asExpression p form ctx f = asExpression p' form ctx g := by
  obtain rfl : f = g := funext h
  cases form <;> rfl

/-- A binary operator needs no placeholder. -/
theorem binaryText_eq {op : Operator} (h : op.isBinary = true) (a b : String) :
    binaryText p op a b = binaryText p' op a b := by
  cases op with
  | bang | assign | arrow | pipe | dot => cases h
  | _ => rfl

/-! ## Lists of parts -/

section Lists

variable {ctx : Context}

/-- An optional expression is emitted alike. -/
theorem emitOption_eq {value : Option Node} (h : ∀ n ∈ value.toList, AlikeValue p p' r r' n) :
    emitOption p r ctx value = emitOption p' r' ctx value := by
  cases value with
  | none => simp only [emitOption]
  | some n =>
    have hn := h n (.head _) ctx
    simp only [emitOption, hn]

/-- Expressions in a row are. -/
theorem emitAll_eq {items : List Node} (h : ∀ n ∈ items, AlikeValue p p' r r' n) :
    emitAll p r ctx items = emitAll p' r' ctx items := by
  induction items with
  | nil => simp only [emitAll]
  | cons n rest ih =>
    rw [List.forall_mem_cons] at h
    simp only [emitAll, h.1 ctx, ih h.2]

/-- The entries of a map are, since their keys are names. -/
theorem emitPairs_eq {pairs : List (Node × Node)}
    (h : ∀ e ∈ pairs, e.1.isKey = true ∧ AlikeValue p p' r r' e.2) :
    emitPairs p r ctx pairs = emitPairs p' r' ctx pairs := by
  induction pairs with
  | nil => simp only [emitPairs]
  | cons e rest ih =>
    obtain ⟨k, v⟩ := e
    rw [List.forall_mem_cons] at h
    obtain ⟨⟨hk, hv⟩, hrest⟩ := h
    -- a key is a name or a number
    cases k with
    | text | number => simp only [emitPairs, hv ctx, ih hrest]
    | _ => cases hk

/-- Statements are emitted alike. -/
theorem emitLines_eq {items : List Node} (h : ∀ n ∈ items, Alike p p' r r' n) :
    emitLines p r ctx items = emitLines p' r' ctx items := by
  induction items with
  | nil => simp only [emitLines]
  | cons n rest ih =>
    rw [List.forall_mem_cons] at h
    simp only [emitLines, h.1.standing ctx, ih h.2]

/-- So are statements whose last one is returned. -/
theorem emitReturning_eq {items : List Node} (h : ∀ n ∈ items, Alike p p' r r' n) :
    emitReturning p r ctx items = emitReturning p' r' ctx items := by
  induction items with
  | nil => simp only [emitReturning]
  | cons n rest ih =>
    rw [List.forall_mem_cons] at h
    -- only the last statement is returned
    cases rest with
    | nil =>
      cases hn : n.isExpression with
      | true => simp only [emitReturning, hn, if_true, h.1 .expression ctx fun _ => hn]
      | false => simp only [emitReturning, hn, Bool.false_eq_true, if_false, h.1.standing ctx]
    | cons m rest => simp only [emitReturning, h.1.standing ctx, ih h.2]

/-- So is the other branch of a condition. -/
theorem emitElse_eq {branch : Option Node} (h : ∀ n ∈ branch.toList, Alike p p' r r' n) :
    emitElse p r ctx branch = emitElse p' r' ctx branch := by
  cases branch with
  | none => simp only [emitElse]
  | some n =>
    have hn := h n (.head _) .chained ctx nofun
    simp only [emitElse, hn]

/-- So are the cases of a switch. -/
theorem emitCases_eq {label : Nat} {cases : List (SwitchCase Node)}
    (hv : ∀ n ∈ cases.map (·.value), AlikeValue p p' r r' n)
    (hb : ∀ n ∈ cases.flatMap (·.body), Alike p p' r r' n) :
    emitCases p r ctx label cases = emitCases p' r' ctx label cases := by
  induction cases with
  | nil => simp only [emitCases]
  | cons k rest ih =>
    rw [List.map_cons, List.forall_mem_cons] at hv
    rw [List.flatMap_cons, List.forall_mem_append] at hb
    simp only [emitCases, hv.1 ctx, emitLines_eq hb.1, ih hv.2 hb.2]

/-- So is its default. -/
theorem emitDefault_eq {default : Option (List Node)}
    (h : ∀ n ∈ default.getD [], Alike p p' r r' n) :
    emitDefault p r ctx default = emitDefault p' r' ctx default := by
  cases default with
  | none => simp only [emitDefault]
  | some items =>
    have hitems : ∀ n ∈ items, Alike p p' r r' n := h
    simp only [emitDefault, emitLines_eq hitems]

/-- The parts of a function are emitted alike. -/
def AlikeBody (p p' : String → String) (r r' : Context → String → Emit String) :
    FunctionBody Node → Prop
  | .block stmts => ∀ n ∈ stmts, Alike p p' r r' n
  | .expr value => AlikeValue p p' r r' value

/-- So is a function definition. -/
theorem emitFunction_eq {arrow : Bool} {d : FunctionDef Node} (h : AlikeBody p p' r r' d.body) :
    emitFunction p r ctx arrow d = emitFunction p' r' ctx arrow d := by
  obtain ⟨name, params, body, isAsync, pos⟩ := d
  cases body with
  | block stmts => simp only [emitFunction, emitBody, emitReturning_eq h]
  | expr value =>
    have hv : ∀ ctx, emit p r .expression ctx value = emit p' r' .expression ctx value := h
    simp only [emitFunction, emitBody, hv]

/-- So are the methods of a class. -/
theorem emitMethods_eq {methods : List (FunctionDef Node)}
    (h : ∀ d ∈ methods, AlikeBody p p' r r' d.body) :
    emitMethods p r ctx methods = emitMethods p' r' ctx methods := by
  induction methods with
  | nil => simp only [emitMethods]
  | cons d rest ih =>
    rw [List.forall_mem_cons] at h
    simp only [emitMethods, emitFunction_eq h.1, ih h.2]

end Lists

/-! ## One node -/

/-- The parts of a node are emitted alike. -/
structure AlikeParts (p p' : String → String) (r r' : Context → String → Emit String) (n : Node) :
    Prop where
  evaluated : ∀ c ∈ n.evaluated, AlikeValue p p' r r' c
  executed : ∀ c ∈ n.executed, Alike p p' r r' c
  definitions : ∀ d ∈ n.definitions, AlikeBody p p' r r' d.body
  /-- Of a called member, the object is emitted on its own. -/
  callee : ∀ object name pos args pos', n = .call (.member object name pos) args pos' →
    AlikeValue p p' r r' object
  literal : ∀ s rest pos, n = .primitive .reflectExec (.text s :: rest) pos →
    ∀ ctx, r ctx s = r' ctx s

/-- A call is emitted alike when its parts are. -/
theorem AlikeParts.alike_call {callee : Node} {args : List Node} {pos : Pos}
    (h : AlikeParts p p' r r' (.call callee args pos)) (form : Form) (ctx : Context) :
    emit p r form ctx (.call callee args pos) = emit p' r' form ctx (.call callee args pos) := by
  obtain ⟨hc, hargs⟩ := List.forall_mem_cons.1 h.evaluated
  have ha (ctx : Context) : emitAll p r ctx args = emitAll p' r' ctx args := emitAll_eq hargs
  -- only a member and a method of a parent are called in a way of their own
  by_cases hmember : ∃ object name pos', callee = .member object name pos'
  · obtain ⟨object, name, pos', rfl⟩ := hmember
    have ho := h.callee object name pos' args pos rfl
    simp only [emit, ha, ho]
    exact asExpression_eq fun _ => rfl
  by_cases hsuper : ∃ method pos', callee = .super method pos'
  · obtain ⟨method, pos', rfl⟩ := hsuper
    simp only [emit, ha]
    exact asExpression_eq fun _ => rfl
  · have hcall (q : String → String) (s : Context → String → Emit String) :
        emit q s form ctx (.call callee args pos) = asExpression q form ctx fun ctx => do
          let a := commaList (← emitAll q s ctx args)
          let c ← emit q s .expression ctx callee
          return "(await __call(" ++ c ++ ", [" ++ a ++ "]))" := by
      rw [emit]
      · exact fun object name pos' heq => hmember ⟨object, name, pos', heq⟩
      · exact fun method pos' heq => hsuper ⟨method, pos', heq⟩
    simp only [hcall, ha, hc]
    exact asExpression_eq fun _ => rfl

/-- So is an assignment to a target that may be assigned. -/
theorem AlikeParts.alike_assign {target value : Node} {pos : Pos}
    (h : AlikeParts p p' r r' (.assign target value pos))
    (htarget : Parser.isTarget target = true) (form : Form) (ctx : Context) :
    emit p r form ctx (.assign target value pos) =
      emit p' r' form ctx (.assign target value pos) := by
  obtain ⟨hv, hparts⟩ := List.forall_mem_cons.1 h.evaluated
  simp only [emit, hv]
  refine asExpression_eq fun ctx => ?_
  -- only targets that may be assigned are emitted without a placeholder
  cases target with
  | identifier => rfl
  | member object name pos' =>
    have ho := hparts object (.head _) ctx
    simp only [ho]
  | index object index pos' =>
    have ho := hparts object (.head _) ctx
    have hi := hparts index (.tail _ (.head _)) ctx
    simp only [ho, hi]
  | _ => exact absurd htarget Bool.false_ne_true

/-- So is every well-formed node. -/
theorem AlikeParts.alike {n : Node} (h : AlikeParts p p' r r' n) (hwf : n.wellFormed = true) :
    Alike p p' r r' n := by
  intro form ctx hform
  -- statements are never asked for as expressions
  have hlines (hno : n.isExpression = false) : form ≠ .expression := fun hf =>
    absurd (hform hf) (by simp [hno])
  -- one case for each form of node, whose parts are emitted alike
  cases n with
  | declare name value constant pos =>
    have hv (ctx : Context) : emitOption p r ctx value = emitOption p' r' ctx value :=
      emitOption_eq h.evaluated
    simp only [emit, hv]
    exact asLines_eq (hlines rfl) fun _ => rfl
  | function d =>
    have hd (ctx : Context) : emitFunction p r ctx false d = emitFunction p' r' ctx false d :=
      emitFunction_eq (h.definitions d (.head _))
    simp only [emit, hd]
    exact asLines_eq (hlines rfl) fun _ => rfl
  | classDecl name parent methods pos =>
    have hd (ctx : Context) : emitMethods p r ctx methods = emitMethods p' r' ctx methods :=
      emitMethods_eq h.definitions
    simp only [emit, hd]
    exact asLines_eq (hlines rfl) fun _ => rfl
  | importModule | breakLoop | continueLoop | halt =>
    simp only [emit]
    exact asLines_eq (hlines rfl) fun _ => rfl
  | block items =>
    have hb (ctx : Context) : emitLines p r ctx items = emitLines p' r' ctx items :=
      emitLines_eq h.executed
    cases form with
    | expression => exact absurd rfl (hlines rfl)
    | _ => simp only [emit, hb]
  | print args =>
    have ha (ctx : Context) : emitAll p r ctx args = emitAll p' r' ctx args :=
      emitAll_eq h.evaluated
    simp only [emit, ha]
    exact asLines_eq (hlines rfl) fun _ => rfl
  | returnValue value =>
    have hv (ctx : Context) : emitOption p r ctx value = emitOption p' r' ctx value :=
      emitOption_eq h.evaluated
    simp only [emit, hv]
    exact asLines_eq (hlines rfl) fun _ => rfl
  | yieldValue value =>
    have hv := h.evaluated value (.head _)
    simp only [emit, hv]
    exact asLines_eq (hlines rfl) fun _ => rfl
  | ifElse condition thenBranch elseBranch =>
    have hc := h.evaluated condition (.head _)
    have ht := (h.executed thenBranch (.head _)).body
    have he (ctx : Context) : emitElse p r ctx elseBranch = emitElse p' r' ctx elseBranch :=
      emitElse_eq fun n hn => h.executed n (.tail _ hn)
    have hlast := hlines rfl
    cases form with
    | chained => simp only [emit, hc, ht, he]
    | _ =>
      simp only [emit, hc, ht, he]
      exact asLines_eq hlast fun _ => rfl
  | whileLoop condition body =>
    have hc := h.evaluated condition (.head _)
    have hb := (h.executed body (.head _)).body
    simp only [emit, hc, hb]
    exact asLines_eq (hlines rfl) fun _ => rfl
  | loop body =>
    have hb := (h.executed body (.head _)).standing
    simp only [emit, hb]
    exact asLines_eq (hlines rfl) fun _ => rfl
  | forEach var iterable body =>
    have hi := h.evaluated iterable (.head _)
    have hb := (h.executed body (.head _)).body
    simp only [emit, hi, hb]
    exact asLines_eq (hlines rfl) fun _ => rfl
  | tryCatch body catchName handler =>
    have hb := (h.executed body (.head _)).body
    have hh := (h.executed handler (.tail _ (.head _))).body
    simp only [emit, hb, hh]
    exact asLines_eq (hlines rfl) fun _ => rfl
  | switch subject cases default =>
    obtain ⟨hs, hvalues⟩ := List.forall_mem_cons.1 h.evaluated
    obtain ⟨hbodies, hlast⟩ := List.forall_mem_append.1 h.executed
    have hc (ctx : Context) (label : Nat) :
        emitCases p r ctx label cases = emitCases p' r' ctx label cases :=
      emitCases_eq hvalues hbodies
    have hd (ctx : Context) : emitDefault p r ctx default = emitDefault p' r' ctx default :=
      emitDefault_eq hlast
    simp only [emit, hs, hc, hd]
    exact asLines_eq (hlines rfl) fun _ => rfl
  | program | error => exact absurd hwf (by simp [Node.wellFormed])
  | assign target value pos =>
    simp only [Node.wellFormed, Bool.and_eq_true] at hwf
    exact h.alike_assign hwf.1.1 form ctx
  | lambda d =>
    have hd (ctx : Context) : emitFunction p r ctx true d = emitFunction p' r' ctx true d :=
      emitFunction_eq (h.definitions d (.head _))
    simp only [emit, hd]
    exact asExpression_eq fun _ => rfl
  | binary op left right pos =>
    have hl := h.evaluated left (.head _)
    have hr := h.evaluated right (.tail _ (.head _))
    simp only [Node.wellFormed, Bool.and_eq_true] at hwf
    -- a well-formed binary node has an operator that needs no placeholder
    have htext (a b : String) : binaryText p op a b = binaryText p' op a b :=
      binaryText_eq hwf.1.1 a b
    simp only [emit, hl, hr, htext]
    exact asExpression_eq fun _ => rfl
  | logical op left right =>
    have hl := h.evaluated left (.head _)
    have hr := h.evaluated right (.tail _ (.head _))
    simp only [emit, hl, hr]
    exact asExpression_eq fun _ => rfl
  | unary op operand pos =>
    have ho := h.evaluated operand (.head _)
    simp only [emit, ho]
    exact asExpression_eq fun _ => rfl
  | await operand =>
    have ho := h.evaluated operand (.head _)
    simp only [emit, ho]
    exact asExpression_eq fun _ => rfl
  | call callee args pos => exact h.alike_call form ctx
  | member object name pos =>
    have ho := h.evaluated object (.head _)
    simp only [emit, ho]
    exact asExpression_eq fun _ => rfl
  | index object index pos =>
    have ho := h.evaluated object (.head _)
    have hi := h.evaluated index (.tail _ (.head _))
    simp only [emit, ho, hi]
    exact asExpression_eq fun _ => rfl
  | primitive prim args pos =>
    have ha (ctx : Context) : emitAll p r ctx args = emitAll p' r' ctx args :=
      emitAll_eq h.evaluated
    simp only [emit, ha]
    refine asExpression_eq fun ctx => ?_
    split
    next source rest => exact h.literal source rest pos rfl ctx
    next => rfl
  | array items =>
    have ha (ctx : Context) : emitAll p r ctx items = emitAll p' r' ctx items :=
      emitAll_eq h.evaluated
    simp only [emit, ha]
    exact asExpression_eq fun _ => rfl
  | map pairs =>
    rw [Node.wellFormed] at hwf
    have he (ctx : Context) : emitPairs p r ctx pairs = emitPairs p' r' ctx pairs :=
      emitPairs_eq fun e he => ⟨Node.isKey_of_mem_pairs hwf he,
        h.evaluated e.2 (List.mem_flatMap.2 ⟨e, he, .tail _ (.head _)⟩)⟩
    simp only [emit, he]
    exact asExpression_eq fun _ => rfl
  | identifier | this | super | number | text | bool | null =>
    simp only [emit]
    exact asExpression_eq fun _ => rfl

/-! ## Trees -/

/-- Well-formed nodes are emitted alike if the literal sources in them are. -/
theorem emit_alike {n : Node} (hwf : n.wellFormed = true)
    (hlit : n.Literals fun s => ∀ ctx, r ctx s = r' ctx s) : Alike p p' r r' n := by
  -- as for drawing: the parts are below the node and well-formed with it
  induction n using Node.below_induction with
  | node n ih =>
    have hbelow {c : Node} (hc : c.Below n) (hcwf : c.wellFormed = true) : Alike p p' r r' c :=
      ih c hc hcwf fun s rest pos h => hlit s rest pos (h.trans hc.occurs)
    have hvalue {c : Node} (hc : c.Below n) (h : c.isExpression = true ∧ c.wellFormed = true) :
        AlikeValue p p' r r' c :=
      fun ctx => hbelow hc h.2 .expression ctx fun _ => h.1
    refine AlikeParts.alike ?_ hwf
    constructor
    case evaluated => exact fun c hc => hvalue (.of_evaluated hc) (Node.wellFormed_evaluated hwf hc)
    case executed => exact fun c hc => hbelow (.of_executed hc) (Node.wellFormed_executed hwf hc)
    case definitions =>
      intro d hd
      have hnode {c : Node} (hc : c ∈ d.body.nodes) : c.Below n := .of_definition hd hc
      obtain ⟨stmts, hb, hstmts⟩ | ⟨value, hb, hwf⟩ :=
        FunctionBody.wellFormed_cases (Node.wellFormed_definition hwf hd)
      · rw [hb] at hnode ⊢
        exact fun c hc => hbelow (hnode hc) (hstmts c hc)
      · rw [hb] at hnode ⊢
        exact hvalue (hnode (.head _)) hwf
    case callee =>
      rintro object name pos args pos' rfl
      exact hvalue .calledObject (Node.wellFormed_calledObject hwf)
    case literal =>
      rintro s rest pos rfl
      exact hlit s rest pos .self

/-! ## Literal sources -/

/-- The program of the outer source hands the inner one to reflection as a literal. -/
def Quotes (inner outer : String) : Prop :=
  ∃ program rest pos, parseSource false (Readable.toCells outer) = .ok program ∧
    (Node.primitive .reflectExec (.text inner :: rest) pos).OccursIn program

/-- A parsed source is made of statements whose literal sources are shorter than it. -/
theorem fits_of_parseSource {source : String} {program : Node}
    (h : parseSource false (Readable.toCells source) = .ok program) :
    ∃ items, program = .program items ∧ ∀ n ∈ items, n.Fits fun s => s.length < source.length := by
  obtain ⟨tokens, htokens, hparse⟩ := parse_of_parseSource h
  exact parse_fits hparse (tokenize_toCells_texts htokens)

/-- A quoted literal is shorter than the one around it. -/
theorem Quotes.length_lt {inner outer : String} (h : Quotes inner outer) :
    inner.length < outer.length := by
  obtain ⟨program, rest, pos, hparse, hocc⟩ := h
  obtain ⟨items, rfl, hfits⟩ := fits_of_parseSource hparse
  cases hocc with
  | inside hc hin => exact (hfits _ hc).literals _ _ _ hin

/-- The code of a literal source, if `reflect` gives the code of the literals in it. -/
def expand (placeholder : String → String) (reflect : Context → String → Emit String)
    (ctx : Context) (source : String) : Emit String := do
  match parseSource false (Readable.toCells source) with
  | .ok (.program items) =>
    let inside := { ctx with breakLabel := none }
    let body ← inBlock inside [] fun ctx => emitReturning placeholder reflect ctx items
    return "(await (async () => " ++ body ++ ")())"
  | .ok other => return placeholder ("reflect source " ++ other.outline.compact) ++ " null"
  | .error e =>
    let reason :=
      match e with
      | .lexing e => e.message
      | .parsing e => e.text
      | .running e => e.text
    return "__fail(\"PrimitiveExecution\", " ++ Json.quote ("reflect: " ++ reason) ++ ")"

/-- One more level expands a literal once more. -/
theorem reflectLiteral_succ (p : String → String) (fuel : Nat) (ctx : Context) (source : String) :
    reflectLiteral p (fuel + 1) ctx source = expand p (reflectLiteral p fuel) ctx source := rfl

/-- The code of a source depends on the code of the literals in it, and on nothing else that is
given. -/
theorem expand_congr {source : String} (h : ∀ s, Quotes s source → ∀ ctx, r ctx s = r' ctx s)
    (ctx : Context) : expand p r ctx source = expand p' r' ctx source := by
  unfold expand
  cases hparse : parseSource false (Readable.toCells source) with
  | error e => rfl
  | ok program =>
    obtain ⟨items, rfl, hfits⟩ := fits_of_parseSource hparse
    -- the literals in the program are the only thing that is given from outside
    have hbody (ctx : Context) : emitReturning p r ctx items = emitReturning p' r' ctx items :=
      emitReturning_eq fun n hn => emit_alike (hfits n hn).wellFormed fun s rest pos hocc =>
        h s ⟨_, rest, pos, hparse, .inside hn hocc⟩
    simp only [hbody]

/-- A literal source that is shorter than the bounds on the nesting. -/
theorem reflectLiteral_eq (p p' : String → String) {fuel fuel' : Nat} {source : String}
    (h : source.length < fuel) (h' : source.length < fuel') (ctx : Context) :
    reflectLiteral p fuel ctx source = reflectLiteral p' fuel' ctx source := by
  -- a literal inside is shorter, so one level less is enough
  induction fuel generalizing fuel' source ctx with
  | zero => exact absurd h (Nat.not_lt_zero _)
  | succ fuel ih =>
    obtain ⟨k, rfl⟩ : ∃ k, fuel' = k + 1 := ⟨fuel' - 1, by omega⟩
    rw [reflectLiteral_succ, reflectLiteral_succ]
    refine expand_congr (fun s hs => ?_) ctx
    have hlt := hs.length_lt
    exact ih (by omega) (by omega)

end BrailleScript.JavaScript
