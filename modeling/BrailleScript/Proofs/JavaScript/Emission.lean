import BrailleScript.Proofs.JavaScript.Composition
import BrailleScript.Proofs.Node.Fits

/-!
# Emitted code is put together from pieces

Whatever tree it is, the code emitted for it is put together from pieces and leads back to inside the
brackets where it began.  This goes through literal sources that are compiled in place.

## Key results

- `emits_node`: any node in any place
- `emits_reflectLiteral`: literal sources
- `emitProgram_leads`: programs
-/

namespace BrailleScript.JavaScript

variable {K : String → Prop} {r : Context → String → Emit String}

/-- The text stands for itself, whatever word goes on behind it or does not. -/
abbrev Code (K : String → Prop) (text : String) : Prop :=
  Leads K [] [] false text

/-- The text stands for itself, and anything may follow it. -/
abbrev Closed (K : String → Prop) (text : String) : Prop :=
  Leads K [] [] true text

/-- The text is what the form asks for. -/
abbrev Placed (K : String → Prop) (form : Form) (text : String) : Prop :=
  Leads K [] [] (form != .expression) text

/-- The node is emitted as code wherever it is put. -/
def EmitsNode (K : String → Prop) (r : Context → String → Emit String) (n : Node) : Prop :=
  ∀ form ctx, Emits (Placed K form) (emit unsupported r form ctx n)

/-! ## Forms -/

/-- A placeholder stands in front of a null. -/
theorem Leads.placeholderNull (s : String) : Code K (unsupported s ++ " null") :=
  (Leads.placeholder s).fixed " null" rfl (by repeat constructor) rfl

section Forms

variable {form : Form} {ctx : Context} {f : Context → Emit String}

/-- A block of closed lines is closed. -/
theorem emits_inBlock (h : ∀ ctx, Emits (Closed K) (f ctx)) (names : List String) :
    Emits (Closed K) (inBlock ctx names f) :=
  ((h ctx.deeper).withNames names).bind fun _ hbody => .pure (hbody.braces ctx)

/-- Lines are placed as their form says. -/
theorem emits_asLines (h : ∀ ctx, Emits (Closed K) (f ctx)) :
    Emits (Placed K form) (asLines unsupported form ctx f) := by
  cases form with
  | standing => exact h ctx
  | body | chained => exact emits_inBlock h []
  | expression => exact .pure (.placeholderNull _)

/-- So is an expression. -/
theorem emits_asExpression (h : ∀ ctx, Emits (Code K) (f ctx)) :
    Emits (Placed K form) (asExpression unsupported form ctx f) := by
  have hlines (ctx : Context) : Emits (Closed K) (do return ctx.line ((← f ctx) ++ ";")) :=
    (h ctx).bind fun _ ht => .pure ((ht.fixed ";" rfl (by repeat constructor) rfl).line ctx)
  cases form with
  | expression => exact h ctx
  | standing => exact hlines ctx
  | body | chained => exact emits_inBlock hlines []

end Forms

/-! ## Operators -/

section Operators

variable {a b : String}

/-- Both of two conditions are code. -/
theorem Leads.bothText (ha : Code K a) (hb : Code K b) : Code K (bothText a b) :=
  first "(__truthy(" rfl (by repeat constructor) rfl |>.code ha
    |>.fixed ") && __truthy(" rfl (by repeat constructor) rfl |>.code hb
    |>.fixed "))" rfl (by repeat constructor) rfl |>.loosen

/-- So is either of them. -/
theorem Leads.eitherText (ha : Code K a) (hb : Code K b) : Code K (eitherText a b) :=
  first "(__truthy(" rfl (by repeat constructor) rfl |>.code ha
    |>.fixed ") || __truthy(" rfl (by repeat constructor) rfl |>.code hb
    |>.fixed "))" rfl (by repeat constructor) rfl |>.loosen

/-- So is either connective of them. -/
theorem Leads.logicalText (op : LogicalOp) (ha : Code K a) (hb : Code K b) :
    Code K (logicalText op a b) := by
  cases op with
  | and => exact bothText ha hb
  | or => exact eitherText ha hb

/-- A unary operator in front of code is code. -/
theorem Leads.unaryText (op : UnaryOp) (ha : Code K a) : Code K (unaryText op a) := by
  cases op with
  | not =>
    exact first "!__truthy(" rfl (by repeat constructor) rfl |>.code ha
      |>.fixed ")" rfl (by repeat constructor) rfl |>.loosen
  | negate =>
    exact first "(-" rfl (by repeat constructor) rfl |>.code ha
      |>.fixed ")" rfl (by repeat constructor) rfl |>.loosen

/-- Two operands behind the name of a support function. -/
theorem Leads.support {head : String} {cs : List Char} (hs : head = String.ofList cs)
    (hmem : head ∈ fragments) (hhead : leadsOn true [] cs = some (true, [')'])) (ha : Code K a)
    (hb : Code K b) : Code K (head ++ a ++ ", " ++ b ++ ")") :=
  first head hs hmem hhead |>.code ha |>.fixed ", " rfl (by repeat constructor) rfl |>.code hb
    |>.fixed ")" rfl (by repeat constructor) rfl |>.loosen

/-- Two operands around the sign of an operator. -/
theorem Leads.operation {sign : String} {cs : List Char} (hs : sign = String.ofList cs)
    (hmem : sign ∈ fragments) (hsign : leadsOn true [')'] cs = some (true, [')'])) (ha : Code K a)
    (hb : Code K b) : Code K ("(" ++ a ++ " " ++ sign ++ " " ++ b ++ ")") :=
  first "(" rfl (by repeat constructor) rfl |>.code ha
    |>.fixed " " rfl (by repeat constructor) rfl |>.fixed sign hs hmem hsign
    |>.fixed " " rfl (by repeat constructor) rfl |>.code hb
    |>.fixed ")" rfl (by repeat constructor) rfl |>.loosen

/-- A binary operator between two pieces of code is code. -/
theorem Leads.binaryText (op : Operator) (ha : Code K a) (hb : Code K b) :
    Code K (binaryText unsupported op a b) := by
  -- some operators are functions of the support code, and the others stay what they are
  cases op with
  | plus | slash | percent | equal | notEqual =>
    exact support rfl (by repeat constructor) rfl ha hb
  | both => exact bothText ha hb
  | either => exact eitherText ha hb
  | minus | star | less | lessEqual | greater | greaterEqual =>
    exact .operation rfl (by repeat constructor) rfl ha hb
  | bang | assign | arrow | pipe | dot => exact placeholderNull _

end Operators

/-! ## Lists of parts -/

section Lists

variable {ctx : Context}

/-- An optional expression is emitted as code. -/
theorem emits_option {value : Option Node} (h : ∀ n ∈ value.toList, EmitsNode K r n) :
    Emits (Code K) (emitOption unsupported r ctx value) := by
  cases value with
  | none =>
    rw [emitOption]
    exact .pure (Leads.first "null" rfl (by repeat constructor) rfl)
  | some n =>
    rw [emitOption]
    exact h n (.head _) .expression ctx

/-- Expressions in a row are. -/
theorem emits_all {items : List Node} (h : ∀ n ∈ items, EmitsNode K r n) :
    Emits (∀ t ∈ ·, Code K t) (emitAll unsupported r ctx items) := by
  induction items with
  | nil =>
    rw [emitAll]
    exact .pure nofun
  | cons n rest ih =>
    rw [List.forall_mem_cons] at h
    rw [emitAll]
    exact (h.1 .expression ctx).bind fun t ht => (ih h.2).bind fun ts hts =>
      .pure (List.forall_mem_cons.2 ⟨ht, hts⟩)

/-- The entries of a map are. -/
theorem emits_pairs {pairs : List (Node × Node)}
    (h : ∀ e ∈ pairs, EmitsNode K r e.1 ∧ EmitsNode K r e.2) :
    Emits (∀ t ∈ ·, Code K t) (emitPairs unsupported r ctx pairs) := by
  have hentry {key value : String} (hk : Code K key) (hv : Code K value) :
      Code K (key ++ ": " ++ value) :=
    hk.fixed ": " rfl (by repeat constructor) rfl |>.code hv
  have hcomputed {key value : String} (hk : Code K key) (hv : Code K value) :
      Code K ("[__key(" ++ key ++ ")]: " ++ value) :=
    Leads.first "[__key(" rfl (by repeat constructor) rfl |>.code hk
      |>.fixed ")]: " rfl (by repeat constructor) rfl |>.code hv
  induction pairs with
  | nil =>
    rw [emitPairs]
    exact .pure nofun
  | cons e rest ih =>
    obtain ⟨k, v⟩ := e
    rw [List.forall_mem_cons] at h
    have hvalue := h.1.2 .expression ctx
    -- only keys that are no literals are emitted as nodes
    cases k with
    | text s =>
      rw [emitPairs]
      exact hvalue.bind fun t ht => (ih h.2).bind fun ts hts =>
        .pure (List.forall_mem_cons.2 ⟨hentry (.quoted s) ht, hts⟩)
    | number x =>
      rw [emitPairs]
      exact hvalue.bind fun t ht => (ih h.2).bind fun ts hts =>
        .pure (List.forall_mem_cons.2 ⟨hentry (.quoted _) ht, hts⟩)
    | _ =>
      rw [emitPairs]
      · exact (h.1.1 .expression ctx).bind fun key hkey => hvalue.bind fun t ht =>
          (ih h.2).bind fun ts hts => .pure (List.forall_mem_cons.2 ⟨hcomputed hkey ht, hts⟩)
      all_goals nofun

/-- Statements are emitted as closed lines. -/
theorem emits_lines {items : List Node} (h : ∀ n ∈ items, EmitsNode K r n) :
    Emits (Closed K) (emitLines unsupported r ctx items) := by
  induction items with
  | nil =>
    rw [emitLines]
    exact .pure .nil
  | cons n rest ih =>
    rw [List.forall_mem_cons] at h
    rw [emitLines]
    exact (h.1 .standing ctx).bind fun t ht => (ih h.2).bind fun ts hts => .pure (ht.code hts)

/-- A returned value is a line of its own. -/
theorem emits_value {n : Node} (h : EmitsNode K r n) : Emits (Closed K) (do
    return ctx.line ("return " ++ (← emit unsupported r .expression ctx n) ++ ";")) :=
  (h .expression ctx).bind fun t ht => .pure
    ((Leads.first "return " rfl (by repeat constructor) rfl |>.code ht
      |>.fixed ";" rfl (by repeat constructor) rfl).line ctx)

/-- Statements whose last one is returned are closed lines. -/
theorem emits_returning {items : List Node} (h : ∀ n ∈ items, EmitsNode K r n) :
    Emits (Closed K) (emitReturning unsupported r ctx items) := by
  induction items with
  | nil =>
    rw [emitReturning]
    exact .pure .nil
  | cons n rest ih =>
    rw [List.forall_mem_cons] at h
    -- only the last statement may be returned
    cases rest with
    | nil =>
      rw [emitReturning]
      split
      · exact emits_value h.1
      · exact h.1 .standing ctx
    | cons m rest =>
      rw [emitReturning]
      · exact (h.1 .standing ctx).bind fun t ht => (ih h.2).bind fun ts hts => .pure (ht.code hts)
      · nofun

/-- The other branch of a condition is closed. -/
theorem emits_else {branch : Option Node} (h : ∀ n ∈ branch.toList, EmitsNode K r n) :
    Emits (Closed K) (emitElse unsupported r ctx branch) := by
  cases branch with
  | none =>
    rw [emitElse]
    exact .pure .nil
  | some n =>
    rw [emitElse]
    exact (h n (.head _) .chained ctx).bind fun t ht => .pure
      (Leads.first " else " rfl (by repeat constructor) rfl |>.code ht)

/-- The cases of a switch are closed lines each. -/
theorem emits_cases {label : Nat} {cases : List (SwitchCase Node)}
    (hv : ∀ n ∈ cases.map (·.value), EmitsNode K r n)
    (hb : ∀ n ∈ cases.flatMap (·.body), EmitsNode K r n) :
    Emits (∀ t ∈ ·, Closed K t) (emitCases unsupported r ctx label cases) := by
  -- the text of one branch: its condition in two pairs of round brackets, and its block
  have hbranch {value body : String} (hv : Code K value) (hb : Closed K body) :
      Closed K ("if (__eq(__s" ++ toString label ++ ", " ++ value ++ ")) " ++ body) := by
    have hhead : "if (__eq(__s" ++ toString label = "if (__eq(" ++ ("__s" ++ toString label) := by
      rw [← String.append_assoc]
      rfl
    rw [hhead]
    exact Leads.first "if (__eq(" rfl (by repeat constructor) rfl |>.code (.subject label)
      |>.fixed ", " rfl (by repeat constructor) rfl |>.code hv
      |>.fixed ")) " rfl (by repeat constructor) rfl |>.code hb
  induction cases with
  | nil =>
    rw [emitCases]
    exact .pure nofun
  | cons k rest ih =>
    rw [List.map_cons, List.forall_mem_cons] at hv
    rw [List.flatMap_cons, List.forall_mem_append] at hb
    rw [emitCases]
    exact (hv.1 .expression ctx).bind fun v hv' =>
      (emits_inBlock (fun _ => emits_lines hb.1) []).bind fun b hb' =>
        (ih hv.2 hb.2).bind fun ts hts => .pure (List.forall_mem_cons.2 ⟨hbranch hv' hb', hts⟩)

/-- So is its default. -/
theorem emits_default {default : Option (List Node)}
    (h : ∀ n ∈ default.getD [], EmitsNode K r n) :
    Emits (∀ t ∈ ·, Closed K t) (emitDefault unsupported r ctx default) := by
  cases default with
  | none =>
    rw [emitDefault]
    exact .pure nofun
  | some items =>
    have hitems : ∀ n ∈ items, EmitsNode K r n := h
    rw [emitDefault]
    exact (emits_inBlock (fun _ => emits_lines hitems) []).bind fun t ht =>
      .pure (List.forall_mem_singleton.2 ht)

/-- What stands between the braces of a function that collects its yields. -/
theorem Leads.collected {inner : String} (h : Closed K inner) (ctx : Context) : Closed K
    (ctx.line "const __y = [];" ++ ctx.line ("const __r = await (async () => " ++ inner ++ ")();") ++
      ctx.line "return __y.length ? __y : __r;") := by
  have hbody : Closed K ("const __r = await (async () => " ++ inner ++ ")();") :=
    first "const __r = await (async () => " rfl (by repeat constructor) rfl |>.code h
      |>.fixed ")();" rfl (by repeat constructor) rfl
  have hvalues : Closed K "const __y = [];" := first _ rfl (by repeat constructor) rfl
  have hresult : Closed K "return __y.length ? __y : __r;" := first _ rfl (by repeat constructor) rfl
  exact ((hvalues.line ctx).code (hbody.line ctx)).code (hresult.line ctx)

/-- The body of a function that collects its yields. -/
theorem Leads.collecting {inner : String} (h : Closed K inner) (ctx : Context) :
    Closed K (collecting ctx inner) :=
  (collected h ctx.deeper).braces ctx

/-- A function definition is closed. -/
theorem emits_function {arrow : Bool} {d : FunctionDef Node}
    (h : ∀ n ∈ d.body.nodes, EmitsNode K r n) :
    Emits (Closed K) (emitFunction unsupported r ctx arrow d) := by
  obtain ⟨name, params, body, isAsync, pos⟩ := d
  rw [emitFunction]
  cases body with
  | block stmts =>
    have hstmts (ctx : Context) : Emits (Closed K) (emitReturning unsupported r ctx stmts) :=
      emits_returning h
    rw [emitBody]
    -- what the body yields is collected, where there is any
    split
    · exact (emits_inBlock hstmts _).bind fun _ hinner => .pure (hinner.collecting ctx)
    · exact emits_inBlock hstmts _
  | expr value =>
    have hvalue := h value (.head _)
    rw [emitBody]
    split
    · exact (emits_inBlock (fun _ => emits_value hvalue) _).bind fun _ hinner =>
        .pure (hinner.collecting ctx)
    split
    · -- an arrow function gives its value in brackets
      exact (hvalue .expression _).bind fun _ ht => .pure
        (Leads.first "(" rfl (by repeat constructor) rfl |>.code ht
          |>.fixed ")" rfl (by repeat constructor) rfl)
    · exact emits_inBlock (fun _ => emits_value hvalue) _

/-- The methods of a class are closed lines. -/
theorem emits_methods {methods : List (FunctionDef Node)}
    (h : ∀ d ∈ methods, ∀ n ∈ d.body.nodes, EmitsNode K r n) :
    Emits (Closed K) (emitMethods unsupported r ctx methods) := by
  induction methods with
  | nil =>
    rw [emitMethods]
    exact .pure .nil
  | cons d rest ih =>
    rw [List.forall_mem_cons] at h
    rw [emitMethods]
    exact (emits_function h.1).bind fun _ hbody => (ih h.2).bind fun _ hrest => .pure
      ((Leads.first "async [" rfl (by repeat constructor) rfl |>.code (.quoted _)
        |>.fixed "](" rfl (by repeat constructor) rfl |>.code (.paramList _)
        |>.fixed ") " rfl (by repeat constructor) rfl |>.code hbody).line ctx |>.code hrest)

end Lists

/-! ## One node -/

/-- The names that a node declares as constants of the emitted code. -/
def constantNames : Node → List String
  | .declare name _ true _ => [name]
  | .importModule module _ => [module]
  | .forEach var _ _ => [var]
  | _ => []

/-- The parts of a node are emitted as code. -/
structure EmitsParts (K : String → Prop) (r : Context → String → Emit String) (n : Node) :
    Prop where
  evaluated : ∀ c ∈ n.evaluated, EmitsNode K r c
  executed : ∀ c ∈ n.executed, EmitsNode K r c
  defined : ∀ d ∈ n.definitions, ∀ c ∈ d.body.nodes, EmitsNode K r c
  items : ∀ items, n = .program items → ∀ c ∈ items, EmitsNode K r c
  /-- Of a called member, the object is emitted on its own. -/
  callee : ∀ object name pos args pos', n = .call (.member object name pos) args pos' →
    EmitsNode K r object
  literal : ∀ s rest pos, n = .primitive .reflectExec (.text s :: rest) pos →
    ∀ ctx, Emits (Code K) (r ctx s)
  constants : ∀ s ∈ constantNames n, K s

/-- A call is placed as its form says. -/
theorem emits_call {form : Form} {ctx : Context} {callee : Node} {args : List Node} {pos : Pos}
    (h : EmitsParts K r (.call callee args pos)) :
    Emits (Placed K form) (emit unsupported r form ctx (.call callee args pos)) := by
  obtain ⟨hcallee, hargs⟩ := List.forall_mem_cons.1 h.evaluated
  have hall (ctx : Context) : Emits (∀ t ∈ ·, Code K t) (emitAll unsupported r ctx args) :=
    emits_all hargs
  -- only a member and a method of a parent are called in a way of their own
  by_cases hmember : ∃ object name pos', callee = .member object name pos'
  · obtain ⟨object, name, pos', rfl⟩ := hmember
    rw [emit]
    exact emits_asExpression fun ctx => (hall ctx).bind fun a ha =>
      (h.callee object name pos' args pos rfl .expression ctx).bind fun o ho => .pure
        (Leads.first "(await __callm(" rfl (by repeat constructor) rfl |>.code ho
          |>.fixed ", " rfl (by repeat constructor) rfl |>.code (.quoted name)
          |>.fixed ", [" rfl (by repeat constructor) rfl |>.code (.commaList ha)
          |>.fixed "]))" rfl (by repeat constructor) rfl |>.loosen)
  by_cases hsuper : ∃ method pos', callee = .super method pos'
  · obtain ⟨method, pos', rfl⟩ := hsuper
    rw [emit]
    exact emits_asExpression fun ctx => (hall ctx).bind fun a ha => .pure
      (Leads.first "(await super[" rfl (by repeat constructor) rfl |>.code (.quoted method)
        |>.fixed "](" rfl (by repeat constructor) rfl |>.code (.commaList ha)
        |>.fixed "))" rfl (by repeat constructor) rfl |>.loosen)
  · rw [emit]
    · exact emits_asExpression fun ctx => (hall ctx).bind fun a ha =>
        (hcallee .expression ctx).bind fun c hc => .pure
          (Leads.first "(await __call(" rfl (by repeat constructor) rfl |>.code hc
            |>.fixed ", [" rfl (by repeat constructor) rfl |>.code (.commaList ha)
            |>.fixed "]))" rfl (by repeat constructor) rfl |>.loosen)
    · exact fun object name pos' heq => hmember ⟨object, name, pos', heq⟩
    · exact fun method pos' heq => hsuper ⟨method, pos', heq⟩

/-- So is an assignment, whatever its target is. -/
theorem emits_assign {form : Form} {ctx : Context} {target value : Node} {pos : Pos}
    (h : EmitsParts K r (.assign target value pos)) :
    Emits (Placed K form) (emit unsupported r form ctx (.assign target value pos)) := by
  obtain ⟨hvalue, htarget⟩ := List.forall_mem_cons.1 h.evaluated
  rw [emit]
  refine emits_asExpression fun ctx => (hvalue .expression ctx).bind fun v hv => ?_
  -- a name, a member or an item; no other node is emitted as a target
  cases target with
  | identifier name pos' =>
    exact .pure (Leads.first "(" rfl (by repeat constructor) rfl |>.code (.name name)
      |>.fixed " = " rfl (by repeat constructor) rfl |>.code hv
      |>.fixed ")" rfl (by repeat constructor) rfl |>.loosen)
  | member object name pos' =>
    have hobject := htarget object (.head _) .expression ctx
    exact hobject.bind fun o ho => .pure
      (Leads.first "(" rfl (by repeat constructor) rfl |>.code ho
        |>.fixed "[" rfl (by repeat constructor) rfl |>.code (.quoted name)
        |>.fixed "] = " rfl (by repeat constructor) rfl |>.code hv
        |>.fixed ")" rfl (by repeat constructor) rfl |>.loosen)
  | index object index pos' =>
    have hobject := htarget object (.head _) .expression ctx
    have hindex := htarget index (.tail _ (.head _)) .expression ctx
    exact hobject.bind fun o ho => hindex.bind fun i hi => .pure
      (Leads.first "__setIndex(" rfl (by repeat constructor) rfl |>.code ho
        |>.fixed ", " rfl (by repeat constructor) rfl |>.code hi
        |>.fixed ", " rfl (by repeat constructor) rfl |>.code hv
        |>.fixed ")" rfl (by repeat constructor) rfl |>.loosen)
  | _ => exact .pure (.placeholderNull _)

/-- A declaration is a closed line, for a constant under its allowed name. -/
theorem Leads.declaration {name value : String} {constant : Bool} (hconstant : constant = true → K name)
    (hvalue : Code K value) : Closed K
      ((if constant then "const " else "let ") ++ sanitize name ++ " = " ++ value ++ ";") := by
  have hname : Code K ((if constant then "const " else "let ") ++ sanitize name) := by
    cases constant with
    | true => exact .constant (hconstant rfl)
    | false => exact Leads.first "let " rfl (by repeat constructor) rfl |>.code (.name name)
  exact hname.fixed " = " rfl (by repeat constructor) rfl |>.code hvalue
    |>.fixed ";" rfl (by repeat constructor) rfl

/-- An assignment of a name is a closed line. -/
theorem Leads.assignment (name : String) {value : String} (hvalue : Code K value) :
    Closed K (sanitize name ++ " = " ++ value ++ ";") :=
  (Leads.name name).fixed " = " rfl (by repeat constructor) rfl |>.code hvalue
    |>.fixed ";" rfl (by repeat constructor) rfl

/-- An import is one. -/
theorem Leads.importing {isNew : Bool} {module : String} (h : K module) :
    Closed K ((if isNew then "const " else "") ++ sanitize module ++ " = __module(" ++
      Json.quote module ++ ");") := by
  have hname : Code K ((if isNew then "const " else "") ++ sanitize module) := by
    cases isNew with
    | true => exact .constant h
    | false => exact nil.code (.name module)
  exact hname.fixed " = __module(" rfl (by repeat constructor) rfl |>.code (.quoted module)
    |>.fixed ");" rfl (by repeat constructor) rfl

/-- A condition and its first branch, with what stands behind `else`. -/
theorem Leads.branching {condition first other : String} (hc : Code K condition)
    (hfirst : Closed K first) (hother : Closed K other) :
    Closed K ("if (__truthy(" ++ condition ++ ")) " ++ first ++ other) :=
  Leads.first "if (__truthy(" rfl (by repeat constructor) rfl |>.code hc
    |>.fixed ")) " rfl (by repeat constructor) rfl |>.code hfirst |>.code hother

/-- Leaving a switch is one. -/
theorem Leads.breakSwitch (n : Nat) : Closed K ("break __sw" ++ toString n ++ ";") := by
  have hhead : "break __sw" ++ toString n = "break " ++ ("__sw" ++ toString n) := by
    rw [← String.append_assoc]
    rfl
  rw [hhead]
  exact first "break " rfl (by repeat constructor) rfl |>.code (.label n)
    |>.fixed ";" rfl (by repeat constructor) rfl

/-- The call of a primitive is code. -/
theorem Leads.primitive (p : Primitive) {args : String} (h : Code K args) :
    Code K ("(await __prim." ++ p.name ++ "(" ++ args ++ "))") := by
  have hname : Code K p.name := by
    cases p <;> exact .first _ rfl (by repeat constructor) rfl
  exact first "(await __prim." rfl (by repeat constructor) rfl |>.code hname
    |>.fixed "(" rfl (by repeat constructor) rfl |>.code h
    |>.fixed "))" rfl (by repeat constructor) rfl |>.loosen

/-- The guard of a loop is a closed line. -/
theorem Leads.loopGuard (cap : Nat) : Closed K (loopGuard cap) :=
  first "if (__n >= " rfl (by repeat constructor) rfl |>.code (.count cap)
    |>.fixed ") \x7b console.log(" rfl (by repeat constructor) rfl |>.code (.quoted _)
    |>.fixed "); break; \x7d" rfl (by repeat constructor) rfl

/-- The head of a loop over items. -/
theorem Leads.forHead {var iterable : String} (hvar : K var) (h : Code K iterable) :
    Closed K ("for (const " ++ sanitize var ++ " of __iter(" ++ iterable ++ ")) ") := by
  -- the word `const` belongs to the variable
  have hhead : "for (const " ++ sanitize var = "for (" ++ ("const " ++ sanitize var) := by
    rw [← String.append_assoc]
    rfl
  rw [hhead]
  exact first "for (" rfl (by repeat constructor) rfl |>.code (.constant hvar)
    |>.fixed " of __iter(" rfl (by repeat constructor) rfl |>.code h
    |>.fixed ")) " rfl (by repeat constructor) rfl

/-- A brace on a line of its own. -/
theorem Leads.closingLine (ctx : Context) : Leads K ['\x7d'] [] true (ctx.line "\x7d") :=
  line (of_fragment rfl (by repeat constructor)
    (rfl : leadsOn true ['\x7d'] ['\x7d'] = some (true, []))) ctx

/-- What stands between the braces of a switch: the value that it looks at, and the branches. -/
theorem Leads.switchInside (n : Nat) {subject chain : String} (hs : Code K subject)
    (hchain : Code K chain) (ctx : Context) : Closed K
      (ctx.line ("const __s" ++ toString n ++ " = " ++ subject ++ ";") ++
        (if chain.isEmpty then "" else ctx.line chain)) := by
  have hsubject : Closed K ("const __s" ++ toString n ++ " = " ++ subject ++ ";") :=
    (constantSubject n).fixed " = " rfl (by repeat constructor) rfl |>.code hs
      |>.fixed ";" rfl (by repeat constructor) rfl
  refine (hsubject.line ctx).code ?_
  -- without a case the chain is no line at all
  split
  · exact nil
  · exact hchain.line ctx

/-- A switch, with its label. -/
theorem Leads.switch {n : Nat} {subject chain : String} (hs : Code K subject)
    (hchain : Code K chain) (ctx : Context) : Closed K
      (ctx.line ("__sw" ++ toString n ++ ": \x7b") ++
        ctx.deeper.line ("const __s" ++ toString n ++ " = " ++ subject ++ ";") ++
        (if chain.isEmpty then "" else ctx.deeper.line chain) ++ ctx.line "\x7d") := by
  have hlabel : Leads K [] ['\x7d'] true ("__sw" ++ toString n ++ ": \x7b") :=
    (label n).fixed ": \x7b" rfl (by repeat constructor) rfl
  have h := ((hlabel.line ctx).code (switchInside n hs hchain ctx.deeper)).append
    (closingLine ctx) (.inl rfl)
  rwa [← String.append_assoc] at h

/-- The first line of a class. -/
theorem Leads.classHead (name : String) (parent : Option String) : Leads K [] ['\x7d'] true
    (match parent with
      | some p => "class " ++ sanitize name ++ " extends " ++ sanitize p ++ " \x7b"
      | none => "class " ++ sanitize name ++ " \x7b") := by
  have hname : Code K ("class " ++ sanitize name) :=
    first "class " rfl (by repeat constructor) rfl |>.code (.name name)
  -- with or without the name of a parent between the name and the brace
  cases parent with
  | some p =>
    exact hname.fixed " extends " rfl (by repeat constructor) rfl |>.code (.name p)
      |>.fixed " \x7b" rfl (by repeat constructor) rfl
  | none => exact hname.fixed " \x7b" rfl (by repeat constructor) rfl

/-- A class, declared or assigned to its name. -/
theorem Leads.classLines {head body : String} (hhead : Leads K [] ['\x7d'] true head)
    (hbody : Closed K body) (isNew : Bool) (name : String) (ctx : Context) : Closed K
      ((if isNew then ctx.line head else ctx.line (sanitize name ++ " = " ++ head)) ++ body ++
        ctx.line "\x7d") := by
  -- a class that was declared before is assigned to its name
  have hfirst : Leads K [] ['\x7d'] true
      (if isNew then ctx.line head else ctx.line (sanitize name ++ " = " ++ head)) := by
    cases isNew with
    | true => exact hhead.line ctx
    | false =>
      exact ((Leads.name name).fixed " = " rfl (by repeat constructor) rfl
        |>.append hhead (.inl rfl)).line ctx
  exact (hfirst.code hbody).append (closingLine ctx) (.inl rfl)

/-- The lines in front of a handler. -/
theorem Leads.handlerHead (catchName : Option String) (ctx : Context) : Closed K
    (String.join ((("if (__e instanceof __Halt) throw __e;" ::
      (catchName.toList.map sanitize).map fun n => "let " ++ n ++ " = __errText(__e);")).map
        ctx.line)) := by
  refine join fun line hline => ?_
  obtain ⟨text, htext, rfl⟩ := List.mem_map.1 hline
  -- a halt is passed on first, and then the name is declared
  rcases List.mem_cons.1 htext with rfl | htext
  · exact (first "if (__e instanceof __Halt) throw __e;" rfl (by repeat constructor) rfl).line ctx
  · obtain ⟨n, hn, rfl⟩ := List.mem_map.1 htext
    obtain ⟨name, -, rfl⟩ := List.mem_map.1 hn
    exact (first "let " rfl (by repeat constructor) rfl |>.code (.name name)
      |>.fixed " = __errText(__e);" rfl (by repeat constructor) rfl).line ctx

/-- Every node is placed as its form says when its parts are. -/
theorem EmitsParts.emits_node {n : Node} (h : EmitsParts K r n) : EmitsNode K r n := by
  intro form ctx
  cases n with
  | declare name value constant pos =>
    have hconstant : constant = true → K name := by
      rintro rfl
      exact h.constants name (.head _)
    rw [emit]
    refine emits_asLines fun ctx => (emits_option h.evaluated).bind fun v hv =>
      (Emits.any _).bind fun isNew _ => ?_
    cases isNew with
    | true => exact .pure ((Leads.declaration hconstant hv).line ctx)
    | false => exact .pure ((Leads.assignment name hv).line ctx)
  | function d =>
    rw [emit]
    exact emits_asLines fun ctx => (Emits.any _).bind fun _ _ =>
      (emits_function (h.defined d (.head _))).bind fun _ hbody => .pure
        ((Leads.first "async function " rfl (by repeat constructor) rfl |>.code (.name _)
          |>.fixed "(" rfl (by repeat constructor) rfl |>.code (.paramList _)
          |>.fixed ") " rfl (by repeat constructor) rfl |>.code hbody).line ctx)
  | classDecl name parent methods pos =>
    rw [emit]
    exact emits_asLines fun ctx => (Emits.any _).bind fun isNew _ =>
      (emits_methods h.defined).bind fun body hbody => .pure
        (.classLines (.classHead name parent) hbody isNew name ctx)
  | importModule module pos =>
    rw [emit]
    exact emits_asLines fun ctx => (Emits.any _).bind fun _ _ =>
      .pure ((Leads.importing (h.constants module (.head _))).line ctx)
  | block items =>
    have hitems (ctx : Context) : Emits (Closed K) (emitLines unsupported r ctx items) :=
      emits_lines h.executed
    cases form with
    | standing =>
      rw [emit]
      exact (emits_inBlock hitems []).bind fun _ ht => .pure (ht.line ctx)
    | body | chained =>
      rw [emit]
      exact emits_inBlock hitems []
    | expression =>
      rw [emit]
      exact emits_asLines fun _ => .pure .nil
  | print args =>
    rw [emit]
    exact emits_asLines fun ctx => (emits_all h.evaluated).bind fun _ hargs => .pure
      ((Leads.first "__print(" rfl (by repeat constructor) rfl |>.code (.commaList hargs)
        |>.fixed ");" rfl (by repeat constructor) rfl).line ctx)
  | returnValue value =>
    rw [emit]
    exact emits_asLines fun ctx => (emits_option h.evaluated).bind fun _ hv => .pure
      ((Leads.first "return " rfl (by repeat constructor) rfl |>.code hv
        |>.fixed ";" rfl (by repeat constructor) rfl).line ctx)
  | yieldValue value =>
    rw [emit]
    refine emits_asLines fun ctx => (h.evaluated value (.head _) .expression ctx).bind fun _ hv => ?_
    split
    · exact .pure ((Leads.first "__y.push(" rfl (by repeat constructor) rfl |>.code hv
        |>.fixed ");" rfl (by repeat constructor) rfl).line ctx)
    · exact .pure ((Leads.first _ rfl (by repeat constructor) rfl).line ctx)
  | breakLoop =>
    rw [emit]
    refine emits_asLines fun ctx => ?_
    split
    next n _ => exact .pure ((Leads.breakSwitch n).line ctx)
    next => exact .pure ((Leads.first "break;" rfl (by repeat constructor) rfl).line ctx)
  | continueLoop =>
    rw [emit]
    exact emits_asLines fun ctx => .pure
      ((Leads.first "continue;" rfl (by repeat constructor) rfl).line ctx)
  | halt =>
    rw [emit]
    exact emits_asLines fun ctx => .pure
      ((Leads.first "throw new __Halt();" rfl (by repeat constructor) rfl).line ctx)
  | ifElse condition thenBranch elseBranch =>
    -- both as a statement and behind an `else`
    have hchain (ctx : Context) : Emits (Closed K) (do
        let c ← emit unsupported r .expression ctx condition
        let t ← emit unsupported r .body ctx thenBranch
        let e ← emitElse unsupported r ctx elseBranch
        return "if (__truthy(" ++ c ++ ")) " ++ t ++ e) :=
      (h.evaluated condition (.head _) .expression ctx).bind fun _ hc =>
        (h.executed thenBranch (.head _) .body ctx).bind fun _ ht =>
          (emits_else fun n hn => h.executed n (.tail _ hn)).bind fun _ he =>
            .pure (.branching hc ht he)
    cases form with
    | chained =>
      rw [emit]
      exact hchain ctx
    | standing | body | expression =>
      rw [emit]
      · exact emits_asLines fun ctx => (hchain ctx).bind fun _ ht => .pure (ht.line ctx)
      all_goals nofun
  | whileLoop condition body =>
    rw [emit]
    exact emits_asLines fun ctx => (h.evaluated condition (.head _) .expression ctx).bind fun _ hc =>
      (h.executed body (.head _) .body ctx.inLoop).bind fun _ hb => .pure
        ((Leads.first "while (__truthy(" rfl (by repeat constructor) rfl |>.code hc
          |>.fixed ")) " rfl (by repeat constructor) rfl |>.code hb).line ctx)
  | loop body =>
    rw [emit]
    exact emits_asLines fun ctx =>
      ((h.executed body (.head _) .standing ctx.inLoop.deeper).withNames []).bind fun _ hb => .pure
        ((Leads.first "for (let __n = 0; ; __n++) " rfl (by repeat constructor) rfl |>.code
          ((((Leads.loopGuard ctx.cap).line ctx.deeper).code hb).braces ctx)).line ctx)
  | forEach var iterable body =>
    rw [emit]
    exact emits_asLines fun ctx => (h.evaluated iterable (.head _) .expression ctx).bind fun _ hi =>
      ((h.executed body (.head _) .body ctx.inLoop.deeper).withNames [sanitize var]).bind
        fun _ hb => .pure (((Leads.forHead (h.constants var (.head _)) hi).code
          ((hb.line ctx.deeper).braces ctx)).line ctx)
  | tryCatch body catchName handler =>
    rw [emit]
    exact emits_asLines fun ctx => (h.executed body (.head _) .body ctx).bind fun _ hb =>
      ((h.executed handler (.tail _ (.head _)) .body ctx.deeper).withNames _).bind fun _ hh => .pure
        ((Leads.first "try " rfl (by repeat constructor) rfl |>.code hb
          |>.fixed " catch (__e) " rfl (by repeat constructor) rfl |>.code
          (((Leads.handlerHead catchName ctx.deeper).code (hh.line ctx.deeper)).braces ctx)).line
            ctx)
  | switch subject cases default =>
    obtain ⟨hs, hvalues⟩ := List.forall_mem_cons.1 h.evaluated
    obtain ⟨hbodies, hlast⟩ := List.forall_mem_append.1 h.executed
    rw [emit]
    exact emits_asLines fun ctx => (Emits.any _).bind fun n _ =>
      (hs .expression ctx).bind fun _ hsubject => (emits_cases hvalues hbodies).bind fun _ hcases =>
        (emits_default hlast).bind fun _ hdefault => .pure
          (.switch hsubject (.intercalate (List.forall_mem_append.2 ⟨hcases, hdefault⟩) rfl
            (by repeat constructor) rfl) ctx)
  | program items =>
    rw [emit]
    exact emits_asLines fun ctx => emits_lines (h.items items rfl)
  | error message =>
    cases form with
    | expression =>
      rw [emit]
      exact .pure (.placeholderNull message)
    | standing | body | chained =>
      rw [emit]
      · exact emits_asLines fun ctx => .pure ((Leads.placeholder message).line ctx)
      all_goals nofun
  | assign target value pos => exact emits_assign h
  | lambda d =>
    rw [emit]
    exact emits_asExpression fun ctx => (emits_function (h.defined d (.head _))).bind fun _ hb =>
      .pure (Leads.first "(async (" rfl (by repeat constructor) rfl |>.code (.paramList _)
        |>.fixed ") => " rfl (by repeat constructor) rfl |>.code hb
        |>.fixed ")" rfl (by repeat constructor) rfl |>.loosen)
  | binary op left right pos =>
    rw [emit]
    exact emits_asExpression fun ctx => (h.evaluated left (.head _) .expression ctx).bind fun _ hl =>
      (h.evaluated right (.tail _ (.head _)) .expression ctx).bind fun _ hr =>
        .pure (.binaryText op hl hr)
  | logical op left right =>
    rw [emit]
    exact emits_asExpression fun ctx => (h.evaluated left (.head _) .expression ctx).bind fun _ hl =>
      (h.evaluated right (.tail _ (.head _)) .expression ctx).bind fun _ hr =>
        .pure (.logicalText op hl hr)
  | unary op operand pos =>
    rw [emit]
    exact emits_asExpression fun ctx => (h.evaluated operand (.head _) .expression ctx).bind
      fun _ ho => .pure (.unaryText op ho)
  | await operand =>
    rw [emit]
    exact emits_asExpression fun ctx => (h.evaluated operand (.head _) .expression ctx).bind
      fun _ ho => .pure (Leads.first "(await " rfl (by repeat constructor) rfl |>.code ho
        |>.fixed ")" rfl (by repeat constructor) rfl |>.loosen)
  | call callee args pos => exact emits_call h
  | member object name pos =>
    rw [emit]
    exact emits_asExpression fun ctx => (h.evaluated object (.head _) .expression ctx).bind
      fun _ ho => .pure (ho.fixed "[" rfl (by repeat constructor) rfl |>.code (.quoted name)
        |>.fixed "]" rfl (by repeat constructor) rfl |>.loosen)
  | index object index pos =>
    rw [emit]
    exact emits_asExpression fun ctx => (h.evaluated object (.head _) .expression ctx).bind
      fun _ ho => (h.evaluated index (.tail _ (.head _)) .expression ctx).bind fun _ hi =>
        .pure (ho.fixed "[" rfl (by repeat constructor) rfl |>.code hi
          |>.fixed "]" rfl (by repeat constructor) rfl |>.loosen)
  | primitive p args pos =>
    rw [emit]
    refine emits_asExpression fun ctx => ?_
    split
    next source rest => exact h.literal source rest pos rfl ctx
    next =>
      exact (emits_all h.evaluated).bind fun _ hargs => .pure (.primitive p (.commaList hargs))
  | array items =>
    rw [emit]
    exact emits_asExpression fun ctx => (emits_all h.evaluated).bind fun _ hitems => .pure
      (Leads.first "[" rfl (by repeat constructor) rfl |>.code (.commaList hitems)
        |>.fixed "]" rfl (by repeat constructor) rfl |>.loosen)
  | map pairs =>
    have hpairs : ∀ e ∈ pairs, EmitsNode K r e.1 ∧ EmitsNode K r e.2 := fun e he =>
      ⟨h.evaluated e.1 (List.mem_flatMap.2 ⟨e, he, .head _⟩),
        h.evaluated e.2 (List.mem_flatMap.2 ⟨e, he, .tail _ (.head _)⟩)⟩
    rw [emit]
    exact emits_asExpression fun ctx => (emits_pairs hpairs).bind fun _ hentries => .pure
      (Leads.first "(\x7b" rfl (by repeat constructor) rfl |>.code (.commaList hentries)
        |>.fixed "\x7d)" rfl (by repeat constructor) rfl |>.loosen)
  | identifier name pos =>
    rw [emit]
    exact emits_asExpression fun _ => .pure (.name name)
  | this pos =>
    rw [emit]
    exact emits_asExpression fun _ => .pure (Leads.first "this" rfl (by repeat constructor) rfl)
  | super method pos =>
    rw [emit]
    exact emits_asExpression fun _ => .pure
      (Leads.first "super[" rfl (by repeat constructor) rfl |>.code (.quoted method)
        |>.fixed "].bind(this)" rfl (by repeat constructor) rfl |>.loosen)
  | number x =>
    rw [emit]
    exact emits_asExpression fun _ => .pure (.number x)
  | text s =>
    rw [emit]
    exact emits_asExpression fun _ => .pure (.quoted s)
  | bool b =>
    rw [emit]
    refine emits_asExpression fun _ => .pure ?_
    cases b <;> exact .first _ rfl (by repeat constructor) rfl
  | null =>
    rw [emit]
    exact emits_asExpression fun _ => .pure (Leads.first "null" rfl (by repeat constructor) rfl)

/-! ## Trees -/

/-- Nodes are emitted as code if the literal sources in them are, and if `K` allows the constants that
they declare. -/
theorem emits_node {n : Node} (hK : ∀ m, m.OccursIn n → ∀ s ∈ constantNames m, K s)
    (hr : n.Literals fun s => ∀ ctx, Emits (Code K) (r ctx s)) : EmitsNode K r n := by
  -- the parts of a node are below it, and whatever occurs in them occurs in the node
  induction n using Node.below_induction with
  | node n ih =>
    have hbelow {c : Node} (hc : c.Below n) : EmitsNode K r c :=
      ih c hc (fun m hm => hK m (hm.trans hc.occurs))
        fun s rest pos h => hr s rest pos (h.trans hc.occurs)
    apply EmitsParts.emits_node
    constructor
    case evaluated => exact fun c hc => hbelow (.of_evaluated hc)
    case executed => exact fun c hc => hbelow (.of_executed hc)
    case defined => exact fun d hd c hc => hbelow (.of_definition hd hc)
    case items =>
      rintro items rfl c hc
      exact hbelow (.child hc)
    case callee =>
      rintro object name pos args pos' rfl
      exact hbelow .calledObject
    case literal =>
      rintro s rest pos rfl
      exact hr s rest pos .self
    case constants => exact hK n .self

/-- Literal sources are emitted as code. -/
theorem emits_reflectLiteral (hK : ∀ s, K s) (fuel : Nat) (ctx : Context) (source : String) :
    Emits (Code K) (reflectLiteral unsupported fuel ctx source) := by
  -- the program of a literal is emitted with one level of literals less
  induction fuel generalizing ctx source with
  | zero => exact .pure (.placeholderNull _)
  | succ fuel ih =>
    rw [reflectLiteral]
    split
    next items _ =>
      have hitems : ∀ n ∈ items, EmitsNode K (reflectLiteral unsupported fuel) n := fun n _ =>
        emits_node (fun _ _ s _ => hK s) fun s _ _ _ ctx => ih ctx s
      exact (emits_inBlock (fun _ => emits_returning hitems) []).bind fun _ hbody => .pure
        (Leads.first "(await (async () => " rfl (by repeat constructor) rfl |>.code hbody
          |>.fixed ")())" rfl (by repeat constructor) rfl |>.loosen)
    next => exact .pure (.placeholderNull _)
    next =>
      exact .pure (Leads.first "__fail(\"PrimitiveExecution\", " rfl (by repeat constructor) rfl
        |>.code (.quoted _) |>.fixed ")" rfl (by repeat constructor) rfl |>.loosen)

/-- The code of a program, if the literal sources in it are emitted as code. -/
theorem emitProgram_leads (program : Node)
    (hK : ∀ n ∈ program.statements, ∀ m, m.OccursIn n → ∀ s ∈ constantNames m, K s)
    (hr : ∀ n ∈ program.statements,
      n.Literals fun s => ∀ ctx, Emits (Code K) (reflectText unsupported ctx s)) (cap : Nat) :
    Closed K (emitProgram unsupported cap program) := by
  have hlines (ctx : Context) :
      Emits (Closed K) (emitLines unsupported (reflectText unsupported) ctx program.statements) :=
    emits_lines fun n hn => emits_node (hK n hn) (hr n hn)
  exact Leads.first "__main(async () => \x7b\n" rfl (by repeat constructor) rfl |>.code (hlines _ _)
    |>.fixed "\x7d);\n" rfl (by repeat constructor) rfl

end BrailleScript.JavaScript
