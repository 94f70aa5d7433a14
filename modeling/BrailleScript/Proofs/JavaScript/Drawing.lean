import BrailleScript.Proofs.JavaScript.Containment
import BrailleScript.Proofs.JavaScript.Placeholder
import BrailleScript.Proofs.JavaScript.Templates

/-!
# The landmarks of emitted code

The emission of a well-formed tree and the plot of its sketch go side by side: they declare the same
names and use up the same labels, and the text that the one gives has the landmarks that the other
gives.

## Key results

- `drawn_node`: any node
- `drawn_literal`: literal sources
- `outline_compile`: programs
-/

namespace BrailleScript.JavaScript

variable {l : String → List Sketch} {r : Context → String → Emit String}

/-- Two emissions give results that are related, and leave the same state behind. -/
def Follows {α β : Type} (R : α → β → Prop) (x : Emit α) (y : Emit β) : Prop :=
  ∀ s, R (x.run s).1 (y.run s).1 ∧ (x.run s).2 = (y.run s).2

namespace Follows

variable {α β α' β' : Type} {R : α → β → Prop} {R' : α' → β' → Prop} {x : Emit α} {y : Emit β}
  {f : α → Emit α'} {g : β → Emit β'}

/-- Results that belong together follow each other. -/
theorem pure {a : α} {b : β} (h : R a b) : Follows R (Pure.pure a) (Pure.pure b) :=
  fun _ => ⟨h, rfl⟩

/-- Every emission follows itself. -/
theorem same (x : Emit α) : Follows Eq x x :=
  fun _ => ⟨rfl, rfl⟩

/-- What follows step by step follows in sequence. -/
theorem bind (hx : Follows R x y) (hf : ∀ a b, R a b → Follows R' (f a) (g b)) :
    Follows R' (x >>= f) (y >>= g) := by
  intro s
  obtain ⟨hresult, hstate⟩ := hx s
  have hnext := hf _ _ hresult (x.run s).2
  rw [StateT.run_bind, StateT.run_bind]
  show R' ((f (x.run s).1).run (x.run s).2).1 ((g (y.run s).1).run (y.run s).2).1 ∧
    ((f (x.run s).1).run (x.run s).2).2 = ((g (y.run s).1).run (y.run s).2).2
  -- both have come to the same state
  rw [← hstate]
  exact hnext

/-- It follows within given names. -/
theorem withNames (hx : Follows R x y) (names : List String) :
    Follows R (withNames names x) (withNames names y) := by
  intro s
  obtain ⟨hresult, hstate⟩ := hx { s with declared := names }
  exact ⟨hresult, congrArg (fun t : EmitState => { t with declared := s.declared }) hstate⟩

end Follows

/-! ## Names of blocks -/

/-- What minds no names around it does so step by step. -/
theorem withNames_bind {α β : Type} {x : Emit α} {f : α → Emit β}
    (hx : ∀ names, withNames names x = x) (hf : ∀ a names, withNames names (f a) = f a)
    (names : List String) : withNames names (x >>= f) = x >>= f := by
  funext s
  let inner := (x.run { s with declared := names })
  let outer : EmitState := { inner.2 with declared := s.declared }
  have hfirst : (inner.1, outer) = x s := congrFun (hx names) s
  -- the names are put aside for the first step, and again for the second
  calc withNames names (x >>= f) s
    _ = withNames inner.2.declared (f inner.1) outer := rfl
    _ = f inner.1 outer := congrFun (hf inner.1 inner.2.declared) outer
    _ = f (x s).1 (x s).2 := by rw [← hfirst]
    _ = (x >>= f) s := rfl

/-- Methods plot alike with any names given, since each of them opens a block of its own. -/
theorem plotAll_methods (around : Surroundings) (methods : List (FunctionDef Node))
    (h : ∀ d ∈ methods, bodyWellFormed d.body = true) (names : List String) :
    withNames names (plotAll around (sketchMethods l methods)) =
      plotAll around (sketchMethods l methods) := by
  induction methods generalizing names with
  | nil => rfl
  | cons d rest ih =>
    rw [List.forall_mem_cons] at h
    obtain ⟨name, params, body, isAsync, pos⟩ := d
    -- a method has a block for its body
    cases body with
    | expr value => exact absurd h.1 Bool.false_ne_true
    | block stmts =>
      rw [sketchMethods, plotAll_append, sketchFunction, sketchBody, plotAll_singleton, plot]
      exact withNames_bind (fun _ => rfl) (fun _ => withNames_bind (ih h.2) fun _ _ => rfl) names

/-! ## Plots -/

section Plots

variable {around : Surroundings} {name : String}

/-- Binding a name plots the declaration, or an assignment where the name is declared already. -/
theorem plot_bind {how : Binder} (hhow : how ≠ .function) (value : List Sketch) :
    plot around (.bind how name value) = do
      let m ← plotAll around value
      let isNew ← declareName (sanitize name)
      return (if isNew then .binds how (sanitize name).toList
        else .assigns (sanitize name).toList) :: m := by
  simp [plot, hhow]

/-- A function's name is plotted as a declaration always. -/
theorem plot_function_name (name : String) : plot around (.bind .function name []) = do
    let _ ← declareName (sanitize name)
    return [.binds .function (sanitize name).toList] := by
  simp [plot, plotAll]

/-- A block is a scope. -/
theorem plotAll_block {n : Node} (h : n.isBlock = true) : plotAll around (sketch l n) = do
    return [.block .plain (← withNames [] (plotAll around (opened (sketch l n))))] := by
  obtain ⟨items, rfl⟩ := Node.eq_block_of_isBlock h
  rw [sketch, plotAll_singleton, plot, opened]

/-- The name that a handler gives to what it caught stands in a block around its statements. -/
theorem plot_handler (catchName : Option String) {handler : Node} (h : handler.isBlock = true) :
    plot around (.scope (catchName.toList.map (.bind .let · []) ++ sketch l handler)) = do
      let m ← withNames [] (plotAll around (sketch l handler))
      return [.block .plain ((catchName.toList.map fun n =>
        .binds .let (sanitize n).toList) ++ m)] := by
  obtain ⟨items, rfl⟩ := Node.eq_block_of_isBlock h
  rw [sketch]
  -- nothing is declared in that block before the name is
  cases catchName <;> rfl

end Plots

/-! ## Forms -/

/-- Where its form allows it, a node is emitted with the landmarks of its sketch. -/
structure Drawn (l : String → List Sketch) (r : Context → String → Emit String) (n : Node) : Prop where
  lines : ∀ ctx, Follows Lines (emit unsupported r .standing ctx n)
    (plotAll ctx.surroundings (sketch l n))
  value : n.isExpression = true → ∀ ctx, Follows Value (emit unsupported r .expression ctx n)
    (plotAll ctx.surroundings (sketch l n))
  body : n.isBlock = true → ∀ ctx, Follows Braced (emit unsupported r .body ctx n)
    (withNames [] (plotAll ctx.surroundings (opened (sketch l n))))
  chained : n.isBlock = true ∨ n.isConditional = true → ∀ ctx,
    Follows Chain (emit unsupported r .chained ctx n) (plotAll ctx.surroundings (sketch l n))

/-- The node is emitted as a value with the landmarks of its sketch. -/
abbrev DrawnValue (l : String → List Sketch) (r : Context → String → Emit String) (n : Node) : Prop :=
  ∀ ctx, Follows Value (emit unsupported r .expression ctx n) (plotAll ctx.surroundings (sketch l n))

/-- A block follows its lines in braces. -/
theorem follows_inBlock {ctx : Context} {f : Context → Emit String} {y : Emit (List Landmark)}
    (h : Follows Lines (f ctx.deeper) y) (names : List String) :
    Follows Braced (inBlock ctx names f) (withNames names y) := by
  have hbind : withNames names y = withNames names y >>= fun m => pure m := (bind_pure _).symm
  rw [hbind]
  exact (h.withNames names).bind fun _ _ hbody => .pure (hbody.braces ctx)

/-- A statement that is written on lines of its own is drawn when the lines follow its sketch. -/
theorem Drawn.of_lines {n : Node} (h : ∀ ctx, Follows Lines (emit unsupported r .standing ctx n)
    (plotAll ctx.surroundings (sketch l n))) (hexpr : n.isExpression = false)
    (hblock : n.isBlock = false) (hcond : n.isConditional = false) : Drawn l r n where
  lines := h
  value := fun hn => absurd hn (by simp [hexpr])
  body := fun hn => absurd hn (by simp [hblock])
  chained := fun hn => absurd hn (by simp [hblock, hcond])

/-- An expression is also emitted as a statement. -/
theorem Drawn.of_value {n : Node} {f : Context → Emit String}
    (h : ∀ ctx, Follows Value (f ctx) (plotAll ctx.surroundings (sketch l n)))
    (hform : ∀ form ctx, emit unsupported r form ctx n = asExpression unsupported form ctx f)
    (hblock : n.isBlock = false) (hcond : n.isConditional = false) : Drawn l r n where
  lines := fun ctx => by
    rw [hform, ← bind_pure (plotAll _ _)]
    exact (h ctx).bind fun _ _ ht => .pure (ht.statement.line ctx)
  value := fun _ ctx => by
    rw [hform]
    exact h ctx
  body := fun hn => absurd hn (by simp [hblock])
  chained := fun hn => absurd hn (by simp [hblock, hcond])

/-! ## Lists of parts -/

section Lists

variable {ctx : Context}

/-- An optional value follows its sketch. -/
theorem follows_option {value : Option Node} (h : ∀ n ∈ value.toList, DrawnValue l r n) :
    Follows Value (emitOption unsupported r ctx value)
      (plotAll ctx.surroundings (sketchOption l value)) := by
  cases value with
  | none =>
    rw [emitOption]
    exact .pure .null
  | some n =>
    rw [emitOption]
    exact h n (.head _) ctx

/-- Values in a row follow theirs. -/
theorem follows_all {items : List Node} (h : ∀ n ∈ items, DrawnValue l r n) :
    Follows Values (emitAll unsupported r ctx items)
      (plotAll ctx.surroundings (sketchAll l items)) := by
  induction items with
  | nil =>
    rw [emitAll]
    exact .pure .nil
  | cons n rest ih =>
    rw [List.forall_mem_cons] at h
    rw [emitAll, sketchAll, plotAll_append]
    exact (h.1 ctx).bind fun _ _ ht => (ih h.2).bind fun _ _ hts => .pure (.cons ht hts)

/-- The entries of a map follow theirs. -/
theorem follows_pairs {pairs : List (Node × Node)}
    (h : ∀ e ∈ pairs, e.1.isKey = true ∧ DrawnValue l r e.2) :
    Follows Values (emitPairs unsupported r ctx pairs)
      (plotAll ctx.surroundings (sketchPairs l pairs)) := by
  induction pairs with
  | nil =>
    rw [emitPairs]
    exact .pure .nil
  | cons e rest ih =>
    obtain ⟨k, v⟩ := e
    rw [List.forall_mem_cons] at h
    obtain ⟨⟨hk, hv⟩, hrest⟩ := h
    -- keys of entries are texts or numbers, which have no landmarks
    cases k with
    | text | number =>
      rw [emitPairs, sketchPairs, sketch, List.nil_append, plotAll_append]
      exact (hv ctx).bind fun _ _ ht => (ih hrest).bind fun _ _ hts =>
        .pure (.cons (.entry _ ht) hts)
    | _ => cases hk

/-- Statements follow theirs. -/
theorem follows_lines {items : List Node} (h : ∀ n ∈ items, Drawn l r n) :
    Follows Lines (emitLines unsupported r ctx items)
      (plotAll ctx.surroundings (sketchAll l items)) := by
  induction items with
  | nil =>
    rw [emitLines]
    exact .pure .nil
  | cons n rest ih =>
    rw [List.forall_mem_cons] at h
    rw [emitLines, sketchAll, plotAll_append]
    exact (h.1.lines ctx).bind fun _ _ ht => (ih h.2).bind fun _ _ hts => .pure (ht.append hts)

/-- A value that is returned. -/
theorem follows_returned {n : Node} (h : DrawnValue l r n) :
    Follows Lines (do return ctx.line ("return " ++ (← emit unsupported r .expression ctx n) ++ ";"))
      (plotAll ctx.surroundings (sketch l n)) := by
  rw [← bind_pure (plotAll _ _)]
  exact (h ctx).bind fun _ _ ht => .pure (ht.returned.line ctx)

/-- So do statements whose last one is returned. -/
theorem follows_returning {items : List Node} (h : ∀ n ∈ items, Drawn l r n) :
    Follows Lines (emitReturning unsupported r ctx items)
      (plotAll ctx.surroundings (sketchAll l items)) := by
  induction items with
  | nil =>
    rw [emitReturning]
    exact .pure .nil
  | cons n rest ih =>
    rw [List.forall_mem_cons] at h
    -- only the last statement may be returned
    cases rest with
    | nil =>
      rw [emitReturning, sketchAll, sketchAll, List.append_nil]
      split
      next hexpr => exact follows_returned (h.1.value hexpr)
      next => exact h.1.lines ctx
    | cons m rest =>
      rw [emitReturning, sketchAll, plotAll_append]
      · exact (h.1.lines ctx).bind fun _ _ ht => (ih h.2).bind fun _ _ hts => .pure (ht.append hts)
      · simp

/-- The other branch of a condition follows its sketch. -/
theorem follows_else {branch : Option Node} (h : ∀ n ∈ branch.toList,
    Drawn l r n ∧ (n.isBlock = true ∨ n.isConditional = true)) :
    Follows Lines (emitElse unsupported r ctx branch)
      (plotAll ctx.surroundings (sketchOption l branch)) := by
  cases branch with
  | none =>
    rw [emitElse]
    exact .pure .nil
  | some n =>
    obtain ⟨hn, hform⟩ := h n (.head _)
    rw [emitElse, sketchOption, ← bind_pure (plotAll _ _)]
    exact (hn.chained hform ctx).bind fun _ _ ht => .pure ht.behindElse

/-- A block follows the sketch of its statements. -/
theorem follows_scope {items : List Node} (h : ∀ n ∈ items, Drawn l r n) (names : List String) :
    Follows Braced (inBlock ctx names fun ctx => emitLines unsupported r ctx items)
      (withNames names (plotAll ctx.surroundings (sketchAll l items))) :=
  follows_inBlock (follows_lines h) names

/-- The cases of a switch follow theirs. -/
theorem follows_cases {label : Nat} {cases : List (SwitchCase Node)}
    (hv : ∀ n ∈ cases.map (·.value), DrawnValue l r n)
    (hb : ∀ n ∈ cases.flatMap (·.body), Drawn l r n) :
    Follows Chains (emitCases unsupported r ctx label cases)
      (plotAll ctx.surroundings (sketchCases l cases)) := by
  induction cases with
  | nil =>
    rw [emitCases]
    exact .pure .nil
  | cons k rest ih =>
    obtain ⟨value, body⟩ := k
    rw [List.map_cons, List.forall_mem_cons] at hv
    rw [List.flatMap_cons, List.forall_mem_append] at hb
    rw [emitCases, sketchCases, plotAll_append]
    simp only [plotAll, plot, bind_assoc, pure_bind]
    refine (hv.1 ctx).bind fun _ _ hvalue => (follows_scope hb.1 []).bind fun _ _ hbody =>
      (ih hv.2 hb.2).bind fun _ _ hts => ?_
    -- a case is the landmarks of its value and its block, in front of the other cases
    rw [← List.append_assoc]
    exact .pure (.cons (.branch label hvalue hbody) hts)

/-- Its default follows its own. -/
theorem follows_default {default : Option (List Node)}
    (h : ∀ n ∈ default.getD [], Drawn l r n) :
    Follows Chains (emitDefault unsupported r ctx default)
      (plotAll ctx.surroundings (sketchDefault l default)) := by
  cases default with
  | none =>
    rw [emitDefault]
    exact .pure .nil
  | some items =>
    have hitems : ∀ n ∈ items, Drawn l r n := h
    rw [emitDefault, sketchDefault, plotAll_singleton, plot]
    exact (follows_scope hitems []).bind fun _ _ ht => .pure (.cons ht.chain .nil)

/-- The body of a construct is a block of its own, whatever the construct declares for it. -/
theorem follows_bodyBlock {n : Node} (hn : Drawn l r n) (hblock : n.isBlock = true) (ctx : Context)
    (names : List String) :
    Follows Lines (withNames names (emit unsupported r .body ctx n))
      (withNames [] (plotAll ctx.surroundings (sketch l n))) := by
  -- the body is drawn with no names of its own
  have hbody : Follows Lines
      (emit unsupported r .body ctx n >>= pure)
      (withNames [] (plotAll ctx.surroundings (opened (sketch l n))) >>= fun m =>
        pure [.block .plain m]) :=
    (hn.body hblock ctx).bind fun _ _ hb => .pure hb.lines
  rw [bind_pure] at hbody
  rw [plotAll_block hblock]
  exact hbody.withNames names

/-! ### Functions -/

/-- The parts of a function are emitted with the landmarks of their sketches, and the sketch yields
where the function does. -/
def DrawnBody (l : String → List Sketch) (r : Context → String → Emit String) :
    FunctionBody Node → Prop
  | .block stmts => ∀ n ∈ stmts, Drawn l r n ∧ YieldsAlike l n
  | .expr value => DrawnValue l r value ∧ YieldsAlike l value

/-- The text is the body of a function, in braces unless it stands behind an arrow. -/
def IsBody (arrow : Bool) (params : List String) (text : String) (marks : List Landmark) : Prop :=
  ∃ start, (arrow = false → start = true) ∧
    Body start ((params.map sanitize).map (·.toList)) text marks

/-- A block in braces is the body of a function. -/
theorem Braced.isBody {text : String} {marks : List Landmark} (h : Braced text marks)
    (arrow : Bool) (params : List String) : IsBody arrow params text
      [.block (.function ((params.map sanitize).map (·.toList))) marks] :=
  ⟨true, fun _ => rfl, h.body _⟩

/-- Statements between the braces of a function, collected around them or not. -/
theorem follows_braces (ctx : Context) {f : Context → Emit String} {inside : List Sketch}
    (h : ∀ ctx : Context, Follows Lines (f ctx) (plotAll ctx.surroundings inside))
    (arrow : Bool) (params : List String) {generator : Bool}
    (hgives : Sketch.givesAny inside = generator) :
    Follows (IsBody arrow params)
      (if generator then do
        let inner ← inBlock (ctx.inFunction true).deeper (params.map sanitize) f
        return collecting ctx inner
      else inBlock (ctx.inFunction false) (params.map sanitize) f)
      (plotAll ctx.surroundings [.function params inside]) := by
  subst hgives
  rw [plotAll_singleton, plot]
  -- what yields is wrapped in a collection, one level deeper
  cases Sketch.givesAny inside with
  | true =>
    exact (follows_inBlock (h (ctx.inFunction true).deeper.deeper) _).bind fun _ _ hinner =>
      .pure ((hinner.collecting ctx).isBody arrow params)
  | false =>
    rw [← bind_pure (ite _ _ _)]
    exact (follows_inBlock (h (ctx.inFunction false).deeper) _).bind fun _ _ hinner =>
      .pure (hinner.isBody arrow params)

/-- A function definition follows its sketch. -/
theorem follows_function {arrow : Bool} {d : FunctionDef Node} (h : DrawnBody l r d.body) :
    Follows (IsBody arrow d.params) (emitFunction unsupported r ctx arrow d)
      (plotAll ctx.surroundings (sketchFunction l arrow d)) := by
  obtain ⟨name, params, body, isAsync, pos⟩ := d
  rw [emitFunction, sketchFunction]
  cases body with
  | block stmts =>
    -- whether the code collects is asked of the program, and of the sketch for the landmarks
    have hgives : Sketch.givesAny (sketchAll l stmts) = anyYield stmts := by
      rw [anyYield_eq, givesAny_sketchAll fun n hn => (h n hn).2]
    rw [emitBody, sketchBody]
    exact follows_braces ctx (fun ctx => follows_returning fun n hn => (h n hn).1) arrow params hgives
  | expr value =>
    obtain ⟨hvalue, hgives⟩ := h
    have hreturned (ctx : Context) : Follows Lines (do
        return ctx.line ("return " ++ (← emit unsupported r .expression ctx value) ++ ";"))
        (plotAll ctx.surroundings (sketch l value)) := follows_returned hvalue
    rw [emitBody, sketchBody]
    -- an expression with a yield needs the block that collects; without one an arrow function gives
    -- the value at once
    cases hy : value.containsYield with
    | true =>
      rw [Bool.not_true, Bool.and_false]
      -- elaborated on its own: against the goal both sides would be unfolded
      have hbraces := follows_braces ctx hreturned arrow params (hgives.trans hy)
      exact hbraces
    | false =>
      cases arrow with
      | true =>
        rw [Bool.not_false, Bool.and_true, if_neg Bool.false_ne_true, if_pos rfl, if_pos rfl,
          plotAll_singleton, plot, ← bind_pure (plotAll _ _)]
        exact (hvalue { ctx with generator := false }).bind fun _ _ ht =>
          .pure ⟨false, by simp, ht.body _⟩
      | false =>
        have hbraces := follows_braces ctx hreturned false params (hgives.trans hy)
        exact hbraces

/-- The methods of a class follow theirs. -/
theorem follows_methods {methods : List (FunctionDef Node)}
    (h : ∀ d ∈ methods, DrawnBody l r d.body) :
    Follows Lines (emitMethods unsupported r ctx methods)
      (plotAll ctx.surroundings (sketchMethods l methods)) := by
  induction methods with
  | nil =>
    rw [emitMethods]
    exact .pure .nil
  | cons d rest ih =>
    rw [List.forall_mem_cons] at h
    rw [emitMethods, sketchMethods, plotAll_append]
    refine (follows_function h.1).bind fun _ _ hbody => (ih h.2).bind fun _ _ hrest => .pure ?_
    obtain ⟨start, hstart, hbody⟩ := hbody
    -- a method is no arrow function, so its body is a block
    obtain rfl := hstart rfl
    exact ((Lines.method d.displayName d.params hbody).line ctx).append hrest

end Lists

/-! ## One node -/

/-- The parts of a node are emitted with the landmarks of their sketches. -/
structure DrawnParts (l : String → List Sketch) (r : Context → String → Emit String) (n : Node) :
    Prop where
  evaluated : ∀ c ∈ n.evaluated, DrawnValue l r c
  executed : ∀ c ∈ n.executed, Drawn l r c
  definitions : ∀ d ∈ n.definitions, DrawnBody l r d.body
  /-- Of a called member, the object is emitted on its own. -/
  callee : ∀ object name pos args pos', n = .call (.member object name pos) args pos' →
    DrawnValue l r object
  literal : ∀ s rest pos, n = .primitive .reflectExec (.text s :: rest) pos →
    ∀ ctx, Follows Value (r ctx s) (plotAll ctx.surroundings (l s))

section Node

variable {n : Node}

/-! ### Calls and assignments -/

/-- A call is drawn when its parts are, as are the other forms below. -/
theorem DrawnParts.drawn_call {callee : Node} {args : List Node} {pos : Pos}
    (h : DrawnParts l r (.call callee args pos)) : Drawn l r (.call callee args pos) := by
  obtain ⟨hcallee, hargs⟩ := List.forall_mem_cons.1 h.evaluated
  have hall (ctx : Context) : Follows Values (emitAll unsupported r ctx args)
      (plotAll ctx.surroundings (sketchAll l args)) := follows_all hargs
  have hsketch (around : Surroundings) : plotAll around (sketch l (.call callee args pos)) = do
      let m' ← plotAll around (sketchAll l args)
      let m ← plotAll around (sketch l callee)
      return m ++ m' := by
    rw [sketch, plotAll_singleton, plot]
  -- only a member and a method of a parent are called in a way of their own
  by_cases hmember : ∃ object name pos', callee = .member object name pos'
  · obtain ⟨object, name, pos', rfl⟩ := hmember
    refine .of_value (fun ctx => ?_) (fun form ctx => by rw [emit]) rfl rfl
    rw [hsketch, sketch]
    exact (hall ctx).bind fun _ _ ha => (h.callee object name pos' args pos rfl ctx).bind
      fun _ _ ho => .pure (.callMember name ho (.commaList ha))
  by_cases hsuper : ∃ method pos', callee = .super method pos'
  · obtain ⟨method, pos', rfl⟩ := hsuper
    refine .of_value (fun ctx => ?_) (fun form ctx => by rw [emit]) rfl rfl
    rw [hsketch, sketch]
    exact (hall ctx).bind fun _ _ ha => .pure (.callSuper method (.commaList ha))
  · refine .of_value (fun ctx => ?_) (fun form ctx => by
      rw [emit]
      · exact fun object name pos' heq => hmember ⟨object, name, pos', heq⟩
      · exact fun method pos' heq => hsuper ⟨method, pos', heq⟩) rfl rfl
    rw [hsketch]
    exact (hall ctx).bind fun _ _ ha => (hcallee ctx).bind fun _ _ hc =>
      .pure (.call hc (.commaList ha))

/-- An assignment is drawn. -/
theorem DrawnParts.drawn_assign {target value : Node} {pos : Pos}
    (h : DrawnParts l r (.assign target value pos))
    (htarget : Parser.isTarget target = true) : Drawn l r (.assign target value pos) := by
  obtain ⟨hvalue, hparts⟩ := List.forall_mem_cons.1 h.evaluated
  refine .of_value (fun ctx => ?_) (fun form ctx => by rw [emit]) rfl rfl
  rw [sketch, plotAll_singleton, plot]
  -- the value is emitted before the parts of the target, as it is sketched
  cases target with
  | identifier name pos' =>
    exact (hvalue ctx).bind fun _ _ hv => .pure (.assign name hv)
  | member object name pos' =>
    rw [sketch]
    exact (hvalue ctx).bind fun _ _ hv => (hparts object (.head _) ctx).bind fun _ _ ho =>
      .pure (.assignMember name ho hv)
  | index object place pos' =>
    rw [sketch, plotAll_append]
    simp only [bind_assoc, pure_bind]
    exact (hvalue ctx).bind fun _ _ hv => (hparts object (.head _) ctx).bind fun _ _ ho =>
      (hparts place (.tail _ (.head _)) ctx).bind fun _ _ hp => .pure (.assignIndex ho hp hv)
  | _ => exact absurd htarget Bool.false_ne_true

/-! ### Declarations -/

/-- A declaration is drawn. -/
theorem DrawnParts.drawn_declare {name : String} {value : Option Node} {constant : Bool} {pos : Pos}
    (h : DrawnParts l r (.declare name value constant pos)) :
    Drawn l r (.declare name value constant pos) := by
  refine .of_lines (fun ctx => ?_) rfl rfl rfl
  have hhow : (if constant then Binder.constant else .let) ≠ .function := by
    cases constant <;> decide
  rw [emit, asLines, sketch, plotAll_singleton, plot_bind hhow]
  refine (follows_option h.evaluated).bind fun v m hv => (Follows.same _).bind ?_
  rintro isNew _ rfl
  -- a name that was declared before is assigned instead
  cases isNew with
  | true => exact .pure ((Lines.declaration constant name hv).line ctx)
  | false => exact .pure ((Lines.assignment name hv).line ctx)

/-- The declaration of a function is drawn. -/
theorem DrawnParts.drawn_functionDecl {d : FunctionDef Node} (h : DrawnParts l r (.function d)) :
    Drawn l r (.function d) := by
  refine .of_lines (fun ctx => ?_) rfl rfl rfl
  rw [emit, asLines, sketch, plotAll, plot_function_name]
  simp only [bind_assoc, pure_bind]
  refine (Follows.same _).bind fun _ _ _ => (follows_function (h.definitions d (.head _))).bind
    fun _ _ hbody => .pure ?_
  obtain ⟨start, hstart, hbody⟩ := hbody
  obtain rfl := hstart rfl
  exact (Lines.function d.displayName d.params hbody).line ctx

/-- The declaration of a class is drawn. -/
theorem DrawnParts.drawn_classDecl {name : String} {parent : Option String}
    {methods : List (FunctionDef Node)} {pos : Pos}
    (h : DrawnParts l r (.classDecl name parent methods pos))
    (hwf : (Node.classDecl name parent methods pos).wellFormed = true) :
    Drawn l r (.classDecl name parent methods pos) := by
  -- the methods are sketched in a scope of their own, which nothing in the emission answers to; they
  -- mind no names around them
  have hbodies : ∀ d ∈ methods, bodyWellFormed d.body = true := fun d hd => by
    rw [Node.wellFormed] at hwf
    exact (methodsWellFormed_mem hwf hd).2
  refine .of_lines (fun ctx => ?_) rfl rfl rfl
  rw [emit, asLines, sketch, plotAll, plot_bind (by decide), plotAll, plotAll_singleton, plot,
    plotAll_methods _ _ hbodies]
  simp only [bind_assoc, pure_bind]
  refine (Follows.same _).bind ?_
  rintro isNew _ rfl
  exact (follows_methods h.definitions).bind fun _ _ hbody =>
    .pure (.classDecl isNew name parent hbody ctx)

/-! ### Blocks and control flow -/

/-- A block is drawn. -/
theorem DrawnParts.drawn_block {items : List Node} (h : DrawnParts l r (.block items)) :
    Drawn l r (.block items) := by
  have hitems : ∀ n ∈ items, Drawn l r n := h.executed
  -- a block is written in its own braces, or is the body of the construct around it
  constructor
  case lines =>
    intro ctx
    rw [emit, sketch, plotAll_singleton, plot]
    exact (follows_scope hitems []).bind fun _ _ ht => .pure (ht.lines.line ctx)
  case value => exact fun hexpr => absurd hexpr Bool.false_ne_true
  case body =>
    intro _ ctx
    rw [emit, sketch, opened]
    exact follows_scope hitems []
  case chained =>
    intro _ ctx
    rw [emit, sketch, plotAll_singleton, plot, ← bind_pure (inBlock _ _ _)]
    exact (follows_scope hitems []).bind fun _ _ ht => .pure ht.chain

/-- A condition is drawn with both of its branches. -/
theorem DrawnParts.drawn_ifElse {condition thenBranch : Node} {elseBranch : Option Node}
    (h : DrawnParts l r (.ifElse condition thenBranch elseBranch))
    (hwf : (Node.ifElse condition thenBranch elseBranch).wellFormed = true) :
    Drawn l r (.ifElse condition thenBranch elseBranch) := by
  simp only [Node.wellFormed, Bool.and_eq_true] at hwf
  have helse : ∀ n ∈ elseBranch.toList,
      Drawn l r n ∧ (n.isBlock = true ∨ n.isConditional = true) := fun n hn => by
    refine ⟨h.executed n (.tail _ hn), ?_⟩
    cases elseBranch with
    | none => cases hn
    | some e =>
      obtain rfl := List.mem_singleton.1 hn
      simp only [elseWellFormed, Bool.and_eq_true, Bool.or_eq_true] at hwf
      exact hwf.2.1
  -- both as a statement and behind an `else`
  have hchain (ctx : Context) : Follows Chain (do
      let c ← emit unsupported r .expression ctx condition
      let t ← emit unsupported r .body ctx thenBranch
      let e ← emitElse unsupported r ctx elseBranch
      return "if (__truthy(" ++ c ++ ")) " ++ t ++ e)
      (plotAll ctx.surroundings (sketch l (.ifElse condition thenBranch elseBranch))) := by
    rw [sketch, plotAll_append, plotAll_append, plotAll_block hwf.1.2.1]
    simp only [bind_assoc, pure_bind]
    exact (h.evaluated condition (.head _) ctx).bind fun _ _ hc =>
      ((h.executed thenBranch (.head _)).body hwf.1.2.1 ctx).bind fun _ _ ht =>
        (follows_else helse).bind fun _ _ he => .pure (.ifElse hc ht he)
  constructor
  case lines =>
    intro ctx
    rw [emit, ← bind_pure (plotAll _ _)]
    · exact (hchain ctx).bind fun _ _ ht => .pure (ht.lines.line ctx)
    · simp
  case value => exact fun hexpr => absurd hexpr Bool.false_ne_true
  case body => exact fun hblock => absurd hblock Bool.false_ne_true
  case chained =>
    intro _ ctx
    rw [emit]
    exact hchain ctx

/-- An endless loop is drawn with its guard. -/
theorem DrawnParts.drawn_loop {body : Node} (h : DrawnParts l r (.loop body)) :
    Drawn l r (.loop body) := by
  refine .of_lines (fun ctx => ?_) rfl rfl rfl
  -- the guard stands in front of the body, which is emitted as statements and not as a block
  have hinner : Follows
      (fun inner m => Lines (ctx.deeper.line (loopGuard ctx.cap) ++ inner) m)
      (emit unsupported r .standing ctx.inLoop.deeper body)
      (plotAll ctx.inLoop.deeper.surroundings (.guard :: sketch l body)) := by
    rw [plotAll, plot, pure_bind, ← bind_pure (emit _ _ _ _ body)]
    exact ((h.executed body (.head _)).lines ctx.inLoop.deeper).bind fun _ _ hb =>
      .pure (((Lines.loopGuard ctx.cap).line ctx.deeper).append hb)
  rw [emit, asLines, sketch, plotAll_singleton, plot]
  exact (hinner.withNames []).bind fun _ _ hb => .pure ((Lines.loop (hb.braces ctx)).line ctx)

/-- A try statement is drawn with its handler. -/
theorem DrawnParts.drawn_tryCatch {body handler : Node} {catchName : Option String}
    (h : DrawnParts l r (.tryCatch body catchName handler))
    (hwf : (Node.tryCatch body catchName handler).wellFormed = true) :
    Drawn l r (.tryCatch body catchName handler) := by
  simp only [Node.wellFormed, Bool.and_eq_true] at hwf
  obtain ⟨⟨hbody, -⟩, hhandler, -⟩ := hwf
  refine .of_lines (fun ctx => ?_) rfl rfl rfl
  rw [emit, asLines, sketch, plotAll_append, plotAll_singleton, plot_handler catchName hhandler,
    plotAll_block hbody]
  simp only [bind_assoc, pure_bind]
  exact ((h.executed body (.head _)).body hbody ctx).bind fun _ _ hb =>
    (follows_bodyBlock (h.executed handler (.tail _ (.head _))) hhandler ctx.deeper _).bind
      fun _ _ hh => .pure ((Lines.tryCatch hb
        (((Lines.caught catchName ctx.deeper).append (hh.line ctx.deeper)).braces ctx)).line ctx)

/-- A switch is drawn with its subject and its cases. -/
theorem DrawnParts.drawn_switch {subject : Node} {cases : List (SwitchCase Node)}
    {default : Option (List Node)} (h : DrawnParts l r (.switch subject cases default)) :
    Drawn l r (.switch subject cases default) := by
  obtain ⟨hs, hvalues⟩ := List.forall_mem_cons.1 h.evaluated
  obtain ⟨hbodies, hlast⟩ := List.forall_mem_append.1 h.executed
  refine .of_lines (fun ctx => ?_) rfl rfl rfl
  rw [emit, asLines, sketch, plotAll_singleton, plot]
  refine (Follows.same _).bind ?_
  -- both sides take the same label, and count on alike
  rintro label _ rfl
  rw [plotAll_append]
  simp only [bind_assoc, pure_bind]
  exact (hs ctx).bind fun _ _ hsubject => (follows_cases hvalues hbodies).bind fun _ _ hcases =>
    (follows_default hlast).bind fun _ _ hdefault => .pure
      (.switch label hsubject (hcases.append hdefault).lines ctx)

/-! ### Primitives and maps -/

/-- The call of a primitive is drawn. -/
theorem DrawnParts.drawn_primitive {p : Primitive} {args : List Node} {pos : Pos}
    (h : DrawnParts l r (.primitive p args pos)) : Drawn l r (.primitive p args pos) := by
  refine .of_value (fun ctx => ?_) (fun form ctx => by rw [emit]) rfl rfl
  -- a reflected literal is a program of its own
  split
  next s rest =>
    rw [sketch]
    exact h.literal s rest pos rfl ctx
  next hother =>
    rw [sketch, ← bind_pure (plotAll _ _)]
    · exact (follows_all h.evaluated).bind fun _ _ hargs =>
        .pure (.primitive p (.commaList hargs))
    · exact hother

/-- A map is drawn with its keys and values. -/
theorem DrawnParts.drawn_map {pairs : List (Node × Node)} (h : DrawnParts l r (.map pairs))
    (hwf : (Node.map pairs).wellFormed = true) : Drawn l r (.map pairs) := by
  rw [Node.wellFormed] at hwf
  -- keys are names or numbers, so only the values are drawn
  have hpairs : ∀ e ∈ pairs, e.1.isKey = true ∧ DrawnValue l r e.2 := fun e he =>
    ⟨Node.isKey_of_mem_pairs hwf he,
      h.evaluated e.2 (List.mem_flatMap.2 ⟨e, he, .tail _ (.head _)⟩)⟩
  refine .of_value (fun ctx => ?_) (fun form ctx => by rw [emit]) rfl rfl
  rw [sketch, ← bind_pure (plotAll _ _)]
  exact (follows_pairs hpairs).bind fun _ _ hentries => .pure (.map (.commaList hentries))

/-! ### Every kind of node -/

/-- Every node is drawn when its parts are. -/
theorem DrawnParts.drawn (h : DrawnParts l r n) (hwf : n.wellFormed = true) : Drawn l r n := by
  -- one case for each form of node; those with many parts have a lemma above
  cases n with
  | program | error => exact absurd hwf (by simp [Node.wellFormed])
  | declare name value constant pos => exact h.drawn_declare
  | function d => exact h.drawn_functionDecl
  | classDecl name parent methods pos => exact h.drawn_classDecl hwf
  | importModule module pos =>
    refine .of_lines (fun ctx => ?_) rfl rfl rfl
    rw [emit, asLines, sketch, plotAll_singleton, plot_bind (by decide), plotAll, pure_bind]
    refine (Follows.same _).bind ?_
    rintro isNew _ rfl
    exact .pure ((Lines.importing isNew module).line ctx)
  | block items => exact h.drawn_block
  | print args =>
    refine .of_lines (fun ctx => ?_) rfl rfl rfl
    rw [emit, asLines, sketch, ← bind_pure (plotAll _ _)]
    exact (follows_all h.evaluated).bind fun _ _ hargs =>
      .pure ((Lines.print (.commaList hargs)).line ctx)
  | returnValue value =>
    refine .of_lines (fun ctx => ?_) rfl rfl rfl
    rw [emit, asLines, sketch, ← bind_pure (plotAll _ _)]
    exact (follows_option h.evaluated).bind fun _ _ hv => .pure (hv.returned.line ctx)
  | yieldValue value =>
    refine .of_lines (fun ctx => ?_) rfl rfl rfl
    rw [emit, asLines, sketch, plotAll_singleton, plot]
    refine (h.evaluated value (.head _) ctx).bind fun v m hv => ?_
    rw [Context.surroundings]
    -- where a function collects, the yield is pushed, and outside it fails
    cases ctx.generator with
    | true => exact .pure ((Lines.push hv).line ctx)
    | false => exact .pure (Lines.yieldOutside.line ctx)
  | breakLoop =>
    refine .of_lines (fun ctx => ?_) rfl rfl rfl
    rw [emit, asLines, sketch, plotAll_singleton, plot]
    -- a break leaves the switch by its label, or the loop
    cases hlabel : ctx.breakLabel with
    | some n =>
      rw [Context.surroundings, hlabel]
      exact .pure ((Lines.breakSwitch n).line ctx)
    | none =>
      rw [Context.surroundings, hlabel]
      exact .pure (Lines.breakLoop.line ctx)
  | continueLoop =>
    refine .of_lines (fun ctx => ?_) rfl rfl rfl
    rw [emit, asLines]
    exact .pure (Lines.continueLoop.line ctx)
  | halt =>
    refine .of_lines (fun ctx => ?_) rfl rfl rfl
    rw [emit, asLines]
    exact .pure (Lines.halt.line ctx)
  | ifElse condition thenBranch elseBranch => exact h.drawn_ifElse hwf
  | whileLoop condition body =>
    simp only [Node.wellFormed, Bool.and_eq_true] at hwf
    refine .of_lines (fun ctx => ?_) rfl rfl rfl
    rw [emit, asLines, sketch, plotAll_append, plotAll_singleton, plot]
    simp only [bind_assoc, pure_bind]
    exact (h.evaluated condition (.head _) ctx).bind fun _ _ hc =>
      ((h.executed body (.head _)).body hwf.2.1 ctx.inLoop).bind fun _ _ hb =>
        .pure ((Lines.whileLoop hc hb).line ctx)
  | loop body => exact h.drawn_loop
  | forEach var iterable body =>
    simp only [Node.wellFormed, Bool.and_eq_true] at hwf
    refine .of_lines (fun ctx => ?_) rfl rfl rfl
    rw [emit, asLines, sketch, plotAll_append, plotAll_singleton, plot]
    simp only [bind_assoc, pure_bind]
    exact (h.evaluated iterable (.head _) ctx).bind fun _ _ hi =>
      (follows_bodyBlock (h.executed body (.head _)) hwf.2.1 ctx.inLoop.deeper _).bind
        fun _ _ hb => .pure ((Lines.forEach var hi ((hb.line ctx.deeper).braces ctx)).line ctx)
  | tryCatch body catchName handler => exact h.drawn_tryCatch hwf
  | switch subject cases default => exact h.drawn_switch
  | assign target value pos =>
    simp only [Node.wellFormed, Bool.and_eq_true] at hwf
    exact h.drawn_assign hwf.1.1
  | call callee args pos => exact h.drawn_call
  | lambda d =>
    refine .of_value (fun ctx => ?_) (fun form ctx => by rw [emit]) rfl rfl
    rw [sketch, ← bind_pure (plotAll _ _)]
    refine (follows_function (h.definitions d (.head _))).bind fun _ _ hbody => .pure ?_
    obtain ⟨start, -, hbody⟩ := hbody
    exact .lambda d.params hbody
  | binary op left right pos =>
    simp only [Node.wellFormed, Bool.and_eq_true] at hwf
    refine .of_value (fun ctx => ?_) (fun form ctx => by rw [emit]) rfl rfl
    rw [sketch, plotAll_append]
    exact (h.evaluated left (.head _) ctx).bind fun _ _ hl =>
      (h.evaluated right (.tail _ (.head _)) ctx).bind fun _ _ hr =>
        .pure (.binaryText hwf.1.1 hl hr)
  | logical op left right =>
    refine .of_value (fun ctx => ?_) (fun form ctx => by rw [emit]) rfl rfl
    rw [sketch, plotAll_append]
    exact (h.evaluated left (.head _) ctx).bind fun _ _ hl =>
      (h.evaluated right (.tail _ (.head _)) ctx).bind fun _ _ hr => .pure (.logicalText op hl hr)
  | index object place pos =>
    refine .of_value (fun ctx => ?_) (fun form ctx => by rw [emit]) rfl rfl
    rw [sketch, plotAll_append]
    exact (h.evaluated object (.head _) ctx).bind fun _ _ ho =>
      (h.evaluated place (.tail _ (.head _)) ctx).bind fun _ _ hp => .pure (.indexed ho hp)
  | unary op operand pos =>
    refine .of_value (fun ctx => ?_) (fun form ctx => by rw [emit]) rfl rfl
    rw [sketch, ← bind_pure (plotAll _ _)]
    exact (h.evaluated operand (.head _) ctx).bind fun _ _ ho => .pure (.unaryText op ho)
  | await operand =>
    refine .of_value (fun ctx => ?_) (fun form ctx => by rw [emit]) rfl rfl
    rw [sketch, ← bind_pure (plotAll _ _)]
    exact (h.evaluated operand (.head _) ctx).bind fun _ _ ho => .pure (.await ho)
  | member object name pos =>
    refine .of_value (fun ctx => ?_) (fun form ctx => by rw [emit]) rfl rfl
    rw [sketch, ← bind_pure (plotAll _ _)]
    exact (h.evaluated object (.head _) ctx).bind fun _ _ ho => .pure (.member name ho)
  | primitive p args pos => exact h.drawn_primitive
  | array items =>
    refine .of_value (fun ctx => ?_) (fun form ctx => by rw [emit]) rfl rfl
    rw [sketch, ← bind_pure (plotAll _ _)]
    exact (follows_all h.evaluated).bind fun _ _ hitems => .pure (.array (.commaList hitems))
  | map pairs => exact h.drawn_map hwf
  | identifier name pos =>
    exact .of_value (fun ctx => .pure (.of_name (isName_sanitize name)))
      (fun form ctx => by rw [emit]) rfl rfl
  | this pos =>
    exact .of_value (fun ctx => .pure .this) (fun form ctx => by rw [emit]) rfl rfl
  | super method pos =>
    exact .of_value (fun ctx => .pure (.super method)) (fun form ctx => by rw [emit]) rfl rfl
  | number x =>
    exact .of_value (fun ctx => .pure (.number x)) (fun form ctx => by rw [emit]) rfl rfl
  | text s =>
    exact .of_value (fun ctx => .pure (.quoted s)) (fun form ctx => by rw [emit]) rfl rfl
  | bool b =>
    exact .of_value (fun ctx => .pure (.bool b)) (fun form ctx => by rw [emit]) rfl rfl
  | null =>
    exact .of_value (fun ctx => .pure .null) (fun form ctx => by rw [emit]) rfl rfl

end Node

/-! ## Trees -/

/-- Well-formed nodes are emitted with the landmarks of their sketches if the literal sources in them
are. -/
theorem drawn_node {n : Node} (hwf : n.wellFormed = true)
    (hl : ∀ s, Sketch.givesAny (l s) = false)
    (hr : n.Literals fun s => ∀ ctx, Follows Value (r ctx s) (plotAll ctx.surroundings (l s))) :
    Drawn l r n := by
  -- the parts of a node are below it, so they are drawn by induction
  induction n using Node.below_induction with
  | node n ih =>
    have hbelow {c : Node} (hc : c.Below n) (hcwf : c.wellFormed = true) : Drawn l r c :=
      ih c hc hcwf fun s rest pos h => hr s rest pos (h.trans hc.occurs)
    have hvalue {c : Node} (hc : c.Below n) (h : c.isExpression = true ∧ c.wellFormed = true) :
        DrawnValue l r c :=
      (hbelow hc h.2).value h.1
    refine DrawnParts.drawn ?_ hwf
    constructor
    case evaluated => exact fun c hc => hvalue (.of_evaluated hc) (Node.wellFormed_evaluated hwf hc)
    case executed => exact fun c hc => hbelow (.of_executed hc) (Node.wellFormed_executed hwf hc)
    case definitions =>
      intro d hd
      have hnode {c : Node} (hc : c ∈ d.body.nodes) : c.Below n := .of_definition hd hc
      obtain ⟨stmts, hb, hstmts⟩ | ⟨value, hb, hwf⟩ :=
        FunctionBody.wellFormed_cases (Node.wellFormed_definition hwf hd)
      · rw [hb] at hnode ⊢
        exact fun c hc => ⟨hbelow (hnode hc) (hstmts c hc), givesAny_sketch (hstmts c hc) hl⟩
      · rw [hb] at hnode ⊢
        exact ⟨hvalue (hnode (.head _)) hwf, givesAny_sketch hwf.2 hl⟩
    case callee =>
      rintro object name pos args pos' rfl
      exact hvalue .calledObject (Node.wellFormed_calledObject hwf)
    case literal =>
      rintro s rest pos rfl
      exact hr s rest pos .self

/-- What a literal source yields is not yielded by what is around it. -/
theorem givesAny_sketchLiteral (fuel : Nat) (source : String) :
    Sketch.givesAny (sketchLiteral fuel source) = false := by
  cases fuel with
  | zero => rfl
  | succ fuel =>
    rw [sketchLiteral]
    split <;> rfl

/-- Literal sources are emitted with the landmarks of their sketches. -/
theorem drawn_literal (fuel : Nat) (source : String) (ctx : Context) :
    Follows Value (reflectLiteral unsupported fuel ctx source)
      (plotAll ctx.surroundings (sketchLiteral fuel source)) := by
  -- a literal is drawn as its program is, with a level of literals less
  induction fuel generalizing source ctx with
  | zero => exact .pure (.placeholderNull _)
  | succ fuel ih =>
    rw [reflectLiteral, sketchLiteral]
    cases hparse : parseSource false (Readable.toCells source) with
    | error e => exact .pure (.refused _)
    | ok program =>
      have hprogram := parseSource_isProgram hparse
      cases program with
      | program items =>
        have hitems : ∀ n ∈ items, Drawn (sketchLiteral fuel) (reflectLiteral unsupported fuel) n :=
          fun n hn => drawn_node (statementsWellFormed_mem hprogram hn)
            (givesAny_sketchLiteral fuel) fun s _ _ _ ctx => ih s ctx
        dsimp only
        rw [plotAll_singleton, plot]
        exact (follows_inBlock (follows_returning hitems) []).bind fun _ _ hbody =>
          .pure (.literal hbody)
      | _ => exact absurd hprogram Bool.false_ne_true

/-- The code of a program has the landmarks of its sketch. -/
theorem outline_compile {program : Node} (h : program.isProgram = true) (cap : Nat) :
    (scan (compile (bare cap) program)).bind outline = some (plotProgram program) := by
  cases program with
  | program items =>
    have hitems : ∀ n ∈ items, Drawn sketchText (reflectText unsupported) n := fun n hn =>
      drawn_node (statementsWellFormed_mem h hn) (fun s => givesAny_sketchLiteral _ s)
        fun s _ _ _ ctx => drawn_literal _ s ctx
    let ctx : Context := { indent := 1, breakLabel := none, generator := false, cap }
    obtain ⟨hbody, -⟩ := (follows_lines hitems :
      Follows Lines (emitLines unsupported (reflectText unsupported) ctx items) _) {}
    -- the program stands inside of the call that runs it
    have hprogram : Trail [.outermost] true (emitProgram unsupported cap (.program items))
        [⟨.within .curly, .ready true, plotProgram (.program items) ++ []⟩] :=
      Trail.first [.outermost] "__main(async () => \x7b\n" rfl rfl |>.lines hbody
        |>.fixed "\x7d);\n" rfl rfl
    obtain ⟨ts, hreads, hread⟩ := hprogram
    rw [compile_bare, hreads.scan_eq, Option.bind_some, outline, hread, List.append_nil]
  | _ => exact absurd h Bool.false_ne_true

end BrailleScript.JavaScript
