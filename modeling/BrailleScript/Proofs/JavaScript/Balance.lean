import BrailleScript.JavaScript.Compiler

/-!
# The stacks of the compiler are balanced

Every construct takes off the stacks what it has pushed, whatever stands in it.  So behind a node the
compiler stands where it stood before: at the same indentation, with the same functions and the same
constructs to leave around it, and with the same names declared in the blocks around it.  Only the
block that the node stands in may have gained names, exactly those that the node declares there, and
labels may have been used up.

What is emitted meanwhile is decided by the tops of the stacks.  A push hides what lies below, so it
takes compilers whose tops agree to compilers whose tops agree, and only the tops need comparing.

## Key results

- `Steady.bind`, `Steady.indented`, `Steady.inScope`: what keeps the stacks composes
- `steady_write`: every node in every place
- `stacks_balanced`: everything that the compiler emits
-/

namespace BrailleScript.JavaScript.Compiler

/-! ## Names of the innermost block -/

/-- A scope after names have been declared in it one by one. -/
def declareAll (names scope : List String) : List String :=
  names.foldl (fun scope name => scope.insert name) scope

/-- Names are declared one after the other. -/
theorem declareAll_append (names more scope : List String) :
    declareAll (names ++ more) scope = declareAll more (declareAll names scope) :=
  List.foldl_append

/-- After that a scope has them besides its own. -/
theorem mem_declareAll {names scope : List String} {name : String} :
    name ∈ declareAll names scope ↔ name ∈ scope ∨ name ∈ names := by
  induction names generalizing scope with
  | nil => simp [declareAll]
  | cons first rest ih =>
    have hrest : declareAll (first :: rest) scope = declareAll rest (scope.insert first) := rfl
    rw [hrest, ih, List.mem_insert_iff, List.mem_cons, or_assoc, or_left_comm]

/-- Whether a name is declared in the innermost block, if there is one. -/
def known (c : Compiler) (name : String) : Option Bool :=
  c.scopes.head?.map (·.contains name)

/-! ## Compilers before and after -/

/-- The second compiler stands where the first one does; meanwhile the names have been declared in
the innermost block, and labels may have been used up. -/
structure Balanced (names : List String) (c d : Compiler) : Prop where
  options : d.options = c.options
  indent : d.indent = c.indent
  height : d.scopes.length = c.scopes.length
  /-- The blocks around the innermost one have the names that they had. -/
  outer : d.scopes.tail = c.scopes.tail
  own : d.scopes.head? = c.scopes.head?.map (declareAll names)
  breaks : d.breaks = c.breaks
  generators : d.generators = c.generators
  labels : c.labels ≤ d.labels

/-- The tops of the stacks say the same, and as many labels are used up. -/
structure Alike (c d : Compiler) : Prop where
  context : c.context = d.context
  known : ∀ name, c.known name = d.known name
  labels : c.labels = d.labels

namespace Balanced

variable {names more : List String} {c d e : Compiler}

/-- Where the scopes are the same, nothing is declared. -/
theorem own_of_eq {scopes scopes' : List (List String)} (h : scopes' = scopes) :
    scopes'.head? = scopes.head?.map (declareAll []) := by
  rw [h]
  cases scopes <;> rfl

/-- Code that declares nothing leaves the scopes as they are. -/
theorem scopes_eq (h : c.Balanced [] d) : d.scopes = c.scopes := by
  have hown := h.own
  have houter := h.outer
  -- the own names are the same and the scopes around them are left
  cases hc : c.scopes with
  | nil =>
    rw [hc] at hown
    exact List.head?_eq_none_iff.1 hown
  | cons scope outer =>
    rw [hc] at hown houter
    obtain ⟨rest, hd⟩ := List.head?_eq_some_iff.1 hown
    rw [hd] at houter ⊢
    exact congrArg (List.cons scope) houter

/-- Writing nothing balances. -/
theorem refl (c : Compiler) : c.Balanced [] c :=
  ⟨rfl, rfl, rfl, rfl, own_of_eq rfl, rfl, rfl, Nat.le_refl _⟩

/-- Balanced code balances in sequence. -/
theorem trans (h : c.Balanced names d) (h' : d.Balanced more e) : c.Balanced (names ++ more) e where
  options := h'.options.trans h.options
  indent := h'.indent.trans h.indent
  height := h'.height.trans h.height
  outer := h'.outer.trans h.outer
  -- the names of the first part are declared first, and those of the second behind them
  own := by
    rw [h'.own, h.own, Option.map_map]
    congr 1
    funext scope
    exact (declareAll_append names more scope).symm
  breaks := h'.breaks.trans h.breaks
  generators := h'.generators.trans h.generators
  labels := Nat.le_trans h.labels h'.labels

/-- Balanced code leaves the context as it was. -/
theorem context_eq (h : c.Balanced names d) : d.context = c.context := by
  simp only [context, h.options, h.indent, h.breaks, h.generators]

/-- A name is known after it when it was known or is declared by it. -/
theorem known_eq (h : c.Balanced names d) (name : String) :
    d.known name = (c.known name).map (· || names.contains name) := by
  rw [known, known, h.own]
  -- outside of all scopes nothing is known
  cases c.scopes.head? with
  | none => rfl
  | some scope =>
    have hcontains : (declareAll names scope).contains name =
        (scope.contains name || names.contains name) := by
      rw [Bool.eq_iff_iff, Bool.or_eq_true, List.contains_iff_mem, List.contains_iff_mem,
        List.contains_iff_mem, mem_declareAll]
    exact congrArg some hcontains

end Balanced

/-- Compilers that are alike stay so after code that declares the same names. -/
theorem Alike.after {names : List String} {c d c' d' : Compiler} (h : c.Alike d)
    (hc : c.Balanced names c') (hd : d.Balanced names d') (hlabels : c'.labels = d'.labels) :
    c'.Alike d' where
  context := by rw [hc.context_eq, hd.context_eq, h.context]
  known name := by rw [hc.known_eq, hd.known_eq, h.known]
  labels := hlabels

/-! ## Steps that keep the stacks -/

/-- A step that leaves the stacks balanced and declares the names in the innermost block.  What it
gives is decided by the tops of the stacks. -/
structure Steady {α : Type} (names : List String) (x : Compiling α) : Prop where
  balanced : ∀ c : Compiler, c.Balanced names (x.run c).2
  alike : ∀ c d : Compiler, c.Alike d →
    (x.run c).1 = (x.run d).1 ∧ (x.run c).2.labels = (x.run d).2.labels

namespace Steady

variable {α β : Type} {names more : List String} {x : Compiling α} {f : α → Compiling β}

/-- A text that is ready is steady. -/
theorem pure (a : α) : Steady [] (Pure.pure a : Compiling α) where
  balanced c := .refl c
  alike _ _ h := ⟨rfl, h.labels⟩

/-- Steady code takes compilers that are alike to such compilers again. -/
theorem alike_after (hx : Steady names x) {c d : Compiler} (h : c.Alike d) :
    (x.run c).2.Alike (x.run d).2 :=
  h.after (hx.balanced c) (hx.balanced d) (hx.alike c d h).2

/-- Steady code is steady in sequence, and declares the names of both. -/
theorem bind (hx : Steady names x) (hf : ∀ a, Steady more (f a)) :
    Steady (names ++ more) (x >>= f) where
  balanced c := (hx.balanced c).trans ((hf _).balanced _)
  -- the first step gives the same on both sides, so it is the same second step that follows
  alike c d h := by
    have hnext := (hf (x.run c).1).alike _ _ (hx.alike_after h)
    rw [StateT.run_bind, StateT.run_bind]
    show ((f (x.run c).1).run (x.run c).2).1 = ((f (x.run d).1).run (x.run d).2).1 ∧
      ((f (x.run c).1).run (x.run c).2).2.labels = ((f (x.run d).1).run (x.run d).2).2.labels
    rw [← (hx.alike c d h).1]
    exact hnext

/-- Behind a step that declares nothing. -/
theorem quiet_bind (hx : Steady [] x) (hf : ∀ a, Steady names (f a)) : Steady names (x >>= f) :=
  hx.bind hf

/-- Before a step that declares nothing. -/
theorem bind_quiet (hx : Steady names x) (hf : ∀ a, Steady [] (f a)) : Steady names (x >>= f) := by
  have hboth := hx.bind hf
  rwa [List.append_nil] at hboth

/-- Asking for the context is steady. -/
theorem here : Steady [] here where
  balanced c := .refl c
  alike _ _ h := ⟨h.context, h.labels⟩

/-- So is putting a text on a line. -/
theorem line (text : String) : Steady [] (line text) :=
  here.quiet_bind fun _ => .pure _

/-- So is taking a label. -/
theorem nextLabel : Steady [] nextLabel where
  balanced c := { Balanced.refl c with labels := Nat.le_succ _ }
  alike _ _ h := ⟨congrArg Nat.succ h.labels, congrArg Nat.succ h.labels⟩

/-- So is declaring a name, which is then the one declared. -/
theorem declare (name : String) : Steady [name] (declare name) where
  -- outside of all blocks there is no scope to declare the name in
  balanced c := by
    obtain ⟨options, indent, scopes, breaks, generators, labels⟩ := c
    cases scopes with
    | nil => exact ⟨rfl, rfl, rfl, rfl, rfl, rfl, rfl, Nat.le_refl _⟩
    | cons scope outer => exact ⟨rfl, rfl, rfl, rfl, rfl, rfl, rfl, Nat.le_refl _⟩
  alike c d h := by
    obtain ⟨options, indent, scopes, breaks, generators, labels⟩ := c
    obtain ⟨options', indent', scopes', breaks', generators', labels'⟩ := d
    have hknown := h.known name
    have hlabels := h.labels
    cases scopes with
    | nil =>
      cases scopes' with
      | nil => exact ⟨rfl, hlabels⟩
      | cons scope outer => cases hknown
    | cons scope outer =>
      cases scopes' with
      | nil => cases hknown
      | cons scope' outer' => exact ⟨congrArg not (Option.some.inj hknown), hlabels⟩

end Steady

/-! ## What is pushed and taken off -/

/-- What is done to the stacks before a step, and undone behind it.  The names are those that the
step declares. -/
structure Bracket (names : List String) where
  enter : Compiler → Compiler
  /-- Undoes it, given the compiler from before. -/
  leave : Compiler → Compiler → Compiler
  balanced : ∀ {c d : Compiler}, (enter c).Balanced names d → c.Balanced [] (leave c d)
  alike : ∀ {c d : Compiler}, c.Alike d → (enter c).Alike (enter d)
  labels : ∀ c d : Compiler, (leave c d).labels = d.labels

namespace Bracket

variable {names : List String}

/-- The step between entering and leaving. -/
def around {α : Type} (b : Bracket names) (x : Compiling α) : Compiling α := fun c =>
  ((x.run (b.enter c)).1, b.leave c (x.run (b.enter c)).2)

/-- One level of indentation. -/
def indentation : Bracket [] where
  enter c := { c with indent := c.indent + 1 }
  leave _ d := { d with indent := d.indent - 1 }
  balanced h := { h with indent := congrArg Nat.pred h.indent }
  alike h := { h with context := congrArg Context.deeper h.context }
  labels _ _ := rfl

/-- What is declared in a block is forgotten behind it. -/
def scope (declared : List String) : Bracket names where
  enter c := { c with scopes := declared :: c.scopes }
  leave _ d := { d with scopes := d.scopes.tail }
  balanced h := {
    h with
    height := congrArg List.length h.outer
    outer := congrArg List.tail h.outer
    -- with the block's own scope gone, the scopes are again those from before
    own := Balanced.own_of_eq h.outer }
  alike h := { h with known := fun _ => rfl }
  labels _ _ := rfl

/-- The statement that a break leaves. -/
def breakable (label : Option Nat) : Bracket [] where
  enter c := { c with breaks := label :: c.breaks }
  leave _ d := { d with breaks := d.breaks.tail }
  balanced h := { h with breaks := congrArg List.tail h.breaks }
  alike h := { h with context := congrArg (fun ctx => { ctx with breakLabel := label }) h.context }
  labels _ _ := rfl

/-- The function that a yield or a return belongs to. -/
def function (generator : Bool) : Bracket [] where
  enter c := { c with generators := generator :: c.generators }
  leave _ d := { d with generators := d.generators.tail }
  balanced h := { h with generators := congrArg List.tail h.generators }
  alike h := { h with context := congrArg (fun ctx => { ctx with generator }) h.context }
  labels _ _ := rfl

/-- Nothing around it can be left. -/
def unbreakable : Bracket [] where
  enter c := { c with breaks := [] }
  leave c d := { d with breaks := c.breaks }
  balanced h := { h with breaks := rfl }
  alike h := { h with context := congrArg (fun ctx => { ctx with breakLabel := none }) h.context }
  labels _ _ := rfl

end Bracket

namespace Steady

variable {α β : Type} {names declared : List String} {x : Compiling α} {f : α → Compiling β}

/-- Code between the ends of a bracket declares nothing outside of it. -/
theorem around (b : Bracket declared) (hx : Steady declared x) : Steady [] (b.around x) where
  balanced c := b.balanced (hx.balanced (b.enter c))
  alike c d h := by
    obtain ⟨hresult, hlabels⟩ := hx.alike _ _ (b.alike h)
    exact ⟨hresult, (b.labels _ _).trans (hlabels.trans (b.labels _ _).symm)⟩

/-- Indented code is steady. -/
theorem indented (hx : Steady [] x) (hf : ∀ a, Steady names (f a)) : Steady names (do
    deepen
    let a ← x
    rise
    f a) :=
  -- pushing, the step and taking off again are `around` by definition, here and below
  (hx.around .indentation).quiet_bind hf

/-- Code in a scope of its own is steady, and its names stay inside. -/
theorem inScope (given : List String) (hx : Steady declared x) (hf : ∀ a, Steady names (f a)) :
    Steady names (do
      openScope given
      let a ← x
      closeScope
      f a) :=
  (hx.around (.scope given)).quiet_bind hf

/-- Code that can be left by a break is steady. -/
theorem breakable (label : Option Nat) (hx : Steady [] x) (hf : ∀ a, Steady names (f a)) :
    Steady names (do
      pushBreak label
      let a ← x
      popBreak
      f a) :=
  (hx.around (.breakable label)).quiet_bind hf

/-- The code of a function is steady. -/
theorem inFunction (generator : Bool) (hx : Steady [] x) (hf : ∀ a, Steady names (f a)) :
    Steady names (do
      pushGenerator generator
      let a ← x
      popGenerator
      f a) :=
  (hx.around (.function generator)).quiet_bind hf

/-- Code that no break from inside can leave is steady. -/
theorem unbreakable (hx : Steady [] x) (hf : ∀ a, Steady names (f a)) : Steady names (do
    let saved ← takeBreaks
    let a ← x
    restoreBreaks saved
    f a) :=
  (hx.around .unbreakable).quiet_bind hf

end Steady

/-! ## Blocks and functions -/

section Blocks

variable {names : List String} {body : Compiling String}

/-- A block with given names is steady. -/
theorem steady_blockWith (given prologue : List String) (h : Steady names body) :
    Steady [] (blockWith given prologue body) := by
  -- the scope that is opened is closed again
  have hinside : Steady [] (do
      let ctx ← here
      openScope given
      let rest ← body
      closeScope
      return String.join (prologue.map ctx.line) ++ rest) :=
    Steady.here.quiet_bind fun _ => h.inScope given fun _ => .pure _
  exact hinside.indented fun text => Steady.here.quiet_bind fun ctx => .pure (braces ctx text)

/-- A block that binds names first is steady. -/
theorem steady_bindingBlock (given prologue : List String) (h : Steady [] body) :
    Steady [] (bindingBlock given prologue body) :=
  steady_blockWith given prologue (h.quiet_bind fun _ => .line _)

/-- A block that collects what it yields is steady. -/
theorem steady_collectingBlock (h : Steady [] body) : Steady [] (collectingBlock body) := by
  have hlines : Steady [] (collectingLines body) :=
    (Steady.line _).quiet_bind fun _ => h.quiet_bind fun _ => (Steady.line _).quiet_bind fun _ =>
      (Steady.line _).quiet_bind fun _ => .pure _
  exact hlines.indented fun _ => Steady.here.quiet_bind fun _ => .pure _

/-- A function is steady when its body is. -/
theorem steady_functionOf (generator : Bool) (h : Steady [] body) :
    Steady [] (functionOf generator body) := by
  have hbody : Steady [] (if generator then collectingBlock body else body) := by
    cases generator with
    | true => exact steady_collectingBlock h
    | false => exact h
  -- the kind of function is pushed and popped again
  have hinside : Steady [] (do
      pushGenerator generator
      let text ← (if generator then collectingBlock body else body)
      popGenerator
      return text) := hbody.inFunction generator fun _ => .pure _
  exact hinside.unbreakable fun _ => .pure _

/-- The lines of a switch are steady when its branches are. -/
theorem steady_switchLines (label : Nat) (subject : String) {branches : Compiling (List String)}
    (h : Steady [] branches) : Steady [] (switchLines label subject branches) := by
  refine (Steady.line _).quiet_bind fun first => h.breakable (some label) fun texts => ?_
  split
  · exact .pure _
  · exact (Steady.line _).quiet_bind fun _ => .pure _

end Blocks

/-! ## Nodes -/

mutual

/-- The names that a statement declares in the block that it stands in. -/
def declared : Node → List String
  | .declare name .. | .classDecl name .. | .importModule name _ => [sanitize name]
  | .function d => [sanitize d.displayName]
  | .program items => declaredAll items
  | _ => []

/-- The names that statements declare in the block around them. -/
def declaredAll : List Node → List String
  | [] => []
  | n :: rest => declared n ++ declaredAll rest

end

/-- Expressions declare no names. -/
theorem declared_of_isExpression {n : Node} (h : n.isExpression = true) : declared n = [] := by
  cases n with
  | declare | function | classDecl | importModule | program => cases h
  | _ => rfl

/-- Only what stands in a block itself declares names there. -/
def keeps (form : Form) (names : List String) : List String :=
  match form with
  | .standing => names
  | .body | .chained | .expression => []

section Forms

variable {names : List String} {x : Compiling String}

/-- Lines stay steady when they are written as a block. -/
theorem Steady.asLines (form : Form) (h : Steady names x) :
    Steady (keeps form names) (asLines form x) := by
  cases form with
  | standing => exact h
  | body | chained => exact steady_blockWith [] [] h
  | expression => exact .pure _

/-- An expression stays steady when it is written as a statement. -/
theorem Steady.asExpression (form : Form) (h : Steady [] x) :
    Steady (keeps form []) (asExpression form x) := by
  cases form with
  | expression => exact h
  | standing | body | chained => exact (h.quiet_bind fun _ => .line _).asLines _

end Forms

section Nodes

variable {reflect : String → Compiling String}

/-- Returning an expression is steady. -/
theorem Steady.returned {n : Node} (h : Steady [] (write reflect .expression n)) :
    Steady [] (do Compiler.line ("return " ++ (← write reflect .expression n) ++ ";")) :=
  h.quiet_bind fun _ => .line _

mutual

/-- A node in any place leaves the stacks balanced, if literal sources do. -/
theorem steady_write (hr : ∀ s, Steady [] (reflect s)) :
    ∀ (form : Form) (n : Node), Steady (keeps form (declared n)) (write reflect form n)
  | form, .declare name value constant _ => by
    rw [write]
    refine ((steady_option hr value).quiet_bind fun v => ?_).asLines form
    refine (Steady.declare _).bind_quiet fun isNew => ?_
    cases isNew with
    | true => exact .line _
    | false => exact .line _
  | form, .function d => by
    rw [write]
    exact ((Steady.declare _).bind_quiet fun _ => (steady_function hr false d).quiet_bind
      fun _ => .line _).asLines form
  | form, .classDecl name parent methods _ => by
    rw [write]
    exact ((Steady.declare _).bind_quiet fun _ => (Steady.line _).quiet_bind fun _ =>
      (steady_methods hr methods).indented fun _ => (Steady.line _).quiet_bind
        fun _ => .pure _).asLines form
  | form, .importModule module _ => by
    rw [write]
    exact ((Steady.declare _).bind_quiet fun _ => .line _).asLines form
  | form, .block items => by
    have hblock : Steady [] (blockWith [] [] (writeLines reflect items)) :=
      steady_blockWith [] [] (steady_lines hr items)
    cases form with
    | standing =>
      rw [write]
      exact hblock.quiet_bind fun _ => .line _
    | body | chained =>
      rw [write]
      exact hblock
    | expression =>
      rw [write]
      exact .pure _
  | form, .print args => by
    rw [write]
    exact ((steady_all hr args).quiet_bind fun _ => .line _).asLines form
  | form, .returnValue value => by
    rw [write]
    exact ((steady_option hr value).quiet_bind fun _ => .line _).asLines form
  | form, .yieldValue value => by
    rw [write]
    refine ((steady_write hr .expression value).quiet_bind fun _ =>
      Steady.here.quiet_bind fun ctx => ?_).asLines form
    cases ctx.generator with
    | true => exact .line _
    | false => exact .line _
  | form, .breakLoop => by
    rw [write]
    refine (Steady.here.quiet_bind fun ctx => ?_).asLines form
    cases ctx.breakLabel with
    | some n => exact .line _
    | none => exact .line _
  | form, .continueLoop | form, .halt => by
    rw [write]
    exact (Steady.line _).asLines form
  | form, .ifElse condition thenBranch elseBranch => by
    have hchain : Steady [] (do
        let c ← write reflect .expression condition
        let t ← write reflect .body thenBranch
        let e ← writeElse reflect elseBranch
        return "if (__truthy(" ++ c ++ ")) " ++ t ++ e) :=
      (steady_write hr .expression condition).quiet_bind fun _ =>
        (steady_write hr .body thenBranch).quiet_bind fun _ =>
          (steady_else hr elseBranch).quiet_bind fun _ => .pure _
    cases form with
    | chained =>
      rw [write]
      exact hchain
    | standing | body | expression =>
      rw [write]
      · exact (hchain.quiet_bind fun _ => .line _).asLines _
      · simp
  | form, .whileLoop condition body => by
    rw [write]
    exact ((steady_write hr .expression condition).quiet_bind fun _ =>
      (steady_write hr .body body).breakable none fun _ => .line _).asLines form
  | form, .loop body => by
    rw [write]
    exact (Steady.here.quiet_bind fun _ =>
      (steady_blockWith [] _ (steady_write hr .standing body)).breakable none
        fun _ => .line _).asLines form
  | form, .forEach var iterable body => by
    rw [write]
    exact ((steady_write hr .expression iterable).quiet_bind fun _ =>
      (steady_bindingBlock _ [] (steady_write hr .body body)).breakable none
        fun _ => .line _).asLines form
  | form, .tryCatch body catchName handler => by
    rw [write]
    exact ((steady_write hr .body body).quiet_bind fun _ =>
      (steady_bindingBlock _ _ (steady_write hr .body handler)).quiet_bind
        fun _ => .line _).asLines form
  | form, .switch subject cases default => by
    have hbranches (n : Nat) : Steady [] (do
        return (← writeCases reflect n cases) ++ (← writeDefault reflect default)) :=
      (steady_cases hr n cases).quiet_bind fun _ =>
        (steady_default hr default).quiet_bind fun _ => .pure _
    rw [write]
    exact (Steady.nextLabel.quiet_bind fun n =>
      (steady_write hr .expression subject).quiet_bind fun _ => (Steady.line _).quiet_bind fun _ =>
        (steady_switchLines n _ (hbranches n)).indented fun _ =>
          (Steady.line _).quiet_bind fun _ => .pure _).asLines form
  | form, .program items => by
    rw [write]
    exact (steady_lines hr items).asLines form
  | form, .error message => by
    cases form with
    | expression =>
      rw [write]
      exact .pure _
    | standing | body | chained =>
      rw [write]
      · exact (Steady.line _).asLines _
      · simp
  | form, .number _ | form, .text _ | form, .bool _ | form, .null | form, .identifier ..
  | form, .this _ | form, .super .. => by
    rw [write]
    exact (Steady.pure _).asExpression form
  | form, .array items => by
    rw [write]
    exact ((steady_all hr items).quiet_bind fun _ => .pure _).asExpression form
  | form, .map pairs => by
    rw [write]
    exact ((steady_pairs hr pairs).quiet_bind fun _ => .pure _).asExpression form
  | form, .assign target value _ => by
    rw [write]
    refine ((steady_write hr .expression value).quiet_bind fun v => ?_).asExpression form
    cases target with
    | member object name _ =>
      exact (steady_write hr .expression object).quiet_bind fun _ => .pure _
    | index object index _ =>
      exact (steady_write hr .expression object).quiet_bind fun _ =>
        (steady_write hr .expression index).quiet_bind fun _ => .pure _
    | _ => exact .pure _
  | form, .lambda d => by
    rw [write]
    exact ((steady_function hr true d).quiet_bind fun _ => .pure _).asExpression form
  | form, .binary _ left right _ | form, .logical _ left right | form, .index left right _ => by
    rw [write]
    exact ((steady_write hr .expression left).quiet_bind fun _ =>
      (steady_write hr .expression right).quiet_bind fun _ => .pure _).asExpression form
  | form, .unary _ operand _ | form, .await operand | form, .member operand _ _ => by
    rw [write]
    exact ((steady_write hr .expression operand).quiet_bind fun _ => .pure _).asExpression form
  | form, .call callee args _ => by
    have hargs := steady_all hr args
    have hcallee := steady_write hr .expression callee
    -- only a member and a method of a parent are called in a way of their own
    cases callee with
    | member object name _ =>
      rw [write]
      exact (hargs.quiet_bind fun _ => (steady_write hr .expression object).quiet_bind
        fun _ => .pure _).asExpression form
    | super method _ =>
      rw [write]
      exact (hargs.quiet_bind fun _ => .pure _).asExpression form
    | _ =>
      rw [write]
      · exact (hargs.quiet_bind fun _ => hcallee.quiet_bind fun _ => .pure _).asExpression form
      · simp
      · simp
  | form, .primitive p args _ => by
    unfold write
    refine Steady.asExpression form ?_
    split
    · exact hr _
    · exact (steady_all hr args).quiet_bind fun _ => .pure _

/-- An optional expression is steady. -/
theorem steady_option (hr : ∀ s, Steady [] (reflect s)) :
    ∀ value : Option Node, Steady [] (writeOption reflect value)
  | none => by
    rw [writeOption]
    exact .pure _
  | some n => by
    rw [writeOption]
    exact steady_write hr .expression n

/-- Expressions in a row are steady. -/
theorem steady_all (hr : ∀ s, Steady [] (reflect s)) :
    ∀ items : List Node, Steady [] (writeAll reflect items)
  | [] => by
    rw [writeAll]
    exact .pure _
  | n :: rest => by
    rw [writeAll]
    exact (steady_write hr .expression n).quiet_bind fun _ => (steady_all hr rest).quiet_bind
      fun _ => .pure _

/-- So are the entries of a map. -/
theorem steady_pairs (hr : ∀ s, Steady [] (reflect s)) :
    ∀ pairs : List (Node × Node), Steady [] (writePairs reflect pairs)
  | [] => by
    rw [writePairs]
    exact .pure _
  | (key, value) :: rest => by
    have hkey := steady_write hr .expression key
    have hvalue := steady_write hr .expression value
    have hrest := steady_pairs hr rest
    -- a text or a number is written as the key that it is, and any other key as an expression
    cases key with
    | text | number =>
      rw [writePairs]
      exact hvalue.quiet_bind fun _ => hrest.quiet_bind fun _ => .pure _
    | _ =>
      rw [writePairs]
      · exact hkey.quiet_bind fun _ => hvalue.quiet_bind fun _ => hrest.quiet_bind fun _ => .pure _
      · simp
      · simp

/-- Statements are steady and declare what each of them does. -/
theorem steady_lines (hr : ∀ s, Steady [] (reflect s)) :
    ∀ items : List Node, Steady (declaredAll items) (writeLines reflect items)
  | [] => by
    rw [writeLines]
    exact .pure _
  | n :: rest => by
    rw [writeLines]
    exact (steady_write hr .standing n).bind fun _ => (steady_lines hr rest).bind_quiet
      fun _ => .pure _

/-- So are statements whose last one is returned. -/
theorem steady_returning (hr : ∀ s, Steady [] (reflect s)) :
    ∀ items : List Node, Steady (declaredAll items) (writeReturning reflect items)
  | [] => by
    rw [writeReturning]
    exact .pure _
  | [n] => by
    rw [writeReturning, declaredAll, declaredAll, List.append_nil]
    -- the last statement is returned when it is an expression
    split
    next hn =>
      rw [declared_of_isExpression hn]
      exact (steady_write hr .expression n).returned
    next => exact steady_write hr .standing n
  | n :: m :: rest => by
    rw [writeReturning]
    · exact (steady_write hr .standing n).bind fun _ =>
        (steady_returning hr (m :: rest)).bind_quiet fun _ => .pure _
    · simp

/-- The other branch of a condition is steady. -/
theorem steady_else (hr : ∀ s, Steady [] (reflect s)) :
    ∀ branch : Option Node, Steady [] (writeElse reflect branch)
  | none => by
    rw [writeElse]
    exact .pure _
  | some n => by
    rw [writeElse]
    exact (steady_write hr .chained n).quiet_bind fun _ => .pure _

/-- The cases of a switch are steady. -/
theorem steady_cases (hr : ∀ s, Steady [] (reflect s)) (label : Nat) :
    ∀ cases : List (SwitchCase Node), Steady [] (writeCases reflect label cases)
  | [] => by
    rw [writeCases]
    exact .pure _
  | ⟨value, body⟩ :: rest => by
    rw [writeCases]
    exact (steady_write hr .expression value).quiet_bind fun _ =>
      (steady_blockWith [] [] (steady_lines hr body)).quiet_bind fun _ =>
        (steady_cases hr label rest).quiet_bind fun _ => .pure _

/-- So is its default. -/
theorem steady_default (hr : ∀ s, Steady [] (reflect s)) :
    ∀ default : Option (List Node), Steady [] (writeDefault reflect default)
  | none => by
    rw [writeDefault]
    exact .pure _
  | some items => by
    rw [writeDefault]
    exact (steady_blockWith [] [] (steady_lines hr items)).quiet_bind fun _ => .pure _

/-- A function definition is steady. -/
theorem steady_function (hr : ∀ s, Steady [] (reflect s)) (arrow : Bool) :
    ∀ d : FunctionDef Node, Steady [] (writeFunction reflect arrow d)
  | ⟨_, params, body, _, _⟩ => by
    rw [writeFunction]
    exact steady_body hr arrow (params.map sanitize) body

/-- So is its body. -/
theorem steady_body (hr : ∀ s, Steady [] (reflect s)) (arrow : Bool) (names : List String) :
    ∀ body : FunctionBody Node, Steady [] (writeBody reflect arrow names body)
  | .block stmts => by
    rw [writeBody]
    exact steady_functionOf _ (steady_blockWith names [] (steady_returning hr stmts))
  | .expr value => by
    have hvalue := steady_write hr .expression value
    rw [writeBody]
    split
    · exact hvalue.inFunction false fun _ => .pure _
    · exact steady_functionOf _ (steady_blockWith names [] hvalue.returned)

/-- The methods of a class are steady. -/
theorem steady_methods (hr : ∀ s, Steady [] (reflect s)) :
    ∀ methods : List (FunctionDef Node), Steady [] (writeMethods reflect methods)
  | [] => by
    rw [writeMethods]
    exact .pure _
  | d :: rest => by
    rw [writeMethods]
    exact (steady_function hr false d).quiet_bind fun _ => (Steady.line _).quiet_bind fun _ =>
      (steady_methods hr rest).quiet_bind fun _ => .pure _

end

end Nodes

/-! ## Literal sources -/

/-- A reflected literal is steady, at every depth. -/
theorem steady_writeLiteral (fuel : Nat) (source : String) :
    Steady [] (writeLiteral fuel source) := by
  induction fuel generalizing source with
  | zero => exact .pure _
  | succ fuel ih =>
    rw [writeLiteral]
    -- a program is emitted, and an unreadable source refused
    split
    · exact (steady_blockWith [] [] (steady_returning ih _)).unbreakable fun _ => .pure _
    · exact .pure _
    · exact .pure _

/-- So is one at the depth that the compiler starts from. -/
theorem steady_literal (source : String) : Steady [] (literal source) :=
  steady_writeLiteral _ source

/-- A list of statements is steady. -/
theorem steady_statements (items : List Node) : Steady (declaredAll items) (statements items) :=
  steady_lines steady_literal items

/-! ## All that is emitted -/

/-- What the compiler emits in one go. -/
inductive Part where
  | statement (n : Node)
  | expression (n : Node)
  | block (items : List Node)
  | functionBody (d : FunctionDef Node)
  | lambda (d : FunctionDef Node)
  | literal (source : String)

namespace Part

/-- The entry point that writes a part. -/
def code : Part → Compiling String
  | .statement n => Compiler.statement n
  | .expression n => Compiler.expression n
  | .block items => Compiler.block items
  | .functionBody d => Compiler.functionBody d
  | .lambda d => Compiler.lambda d
  | .literal source => Compiler.literal source

/-- The names that it declares in the block that it stands in. -/
def declared : Part → List String
  | .statement n => Compiler.declared n
  | .expression _ | .block _ | .functionBody _ | .lambda _ | .literal _ => []

/-- Every part is steady. -/
theorem steady (part : Part) : Steady part.declared part.code := by
  cases part with
  | statement n => exact steady_write steady_literal .standing n
  | expression n => exact steady_write steady_literal .expression n
  | block items => exact steady_blockWith [] [] (steady_statements items)
  | functionBody d => exact steady_function steady_literal false d
  | lambda d => exact (steady_function steady_literal true d).quiet_bind fun _ => .pure _
  | literal source => exact steady_literal source

end Part

/-- Statements that declare the same names and use up as many labels leave the same behind. -/
theorem alike_statements {earlier earlier' : List Node} (c : Compiler)
    (hnames : ∀ name, name ∈ declaredAll earlier ↔ name ∈ declaredAll earlier')
    (hlabels : ((statements earlier).run c).2.labels = ((statements earlier').run c).2.labels) :
    ((statements earlier).run c).2.Alike ((statements earlier').run c).2 := by
  have h := (steady_statements earlier).balanced c
  have h' := (steady_statements earlier').balanced c
  refine ⟨by rw [h.context_eq, h'.context_eq], fun name => ?_, hlabels⟩
  have hcontains : (declaredAll earlier).contains name = (declaredAll earlier').contains name := by
    rw [Bool.eq_iff_iff, List.contains_iff_mem, List.contains_iff_mem, hnames]
  rw [h.known_eq, h'.known_eq, hcontains]

/-- Whatever the compiler emits, and whatever is on its stacks, it leaves the stacks balanced: only
the innermost block gains names, those that a statement declares there.  What is emitted depends on
the tops of the stacks, the names declared in the innermost block and the labels used up.  So the
statements before a part matter to it by the names that they declare and by the number of labels
that they use up, and by nothing else in them. -/
theorem stacks_balanced :
    (∀ (part : Part) (c : Compiler), c.Balanced part.declared (part.code.run c).2) ∧
    (∀ (n : Node) (c : Compiler), ((expression n).run c).2.scopes = c.scopes) ∧
    (∀ (part : Part) (c d : Compiler), c.Alike d →
      (part.code.run c).1 = (part.code.run d).1 ∧
        (part.code.run c).2.Alike (part.code.run d).2) ∧
    ∀ (part : Part) (earlier earlier' : List Node) (c : Compiler),
      (∀ name, name ∈ declaredAll earlier ↔ name ∈ declaredAll earlier') →
      ((statements earlier).run c).2.labels = ((statements earlier').run c).2.labels →
      (part.code.run ((statements earlier).run c).2).1 =
        (part.code.run ((statements earlier').run c).2).1 := by
  refine ⟨fun part => part.steady.balanced, fun n c => ?_, fun part c d h => ?_,
    fun part earlier earlier' c hnames hlabels => ?_⟩
  · exact ((Part.expression n).steady.balanced c).scopes_eq
  · exact ⟨(part.steady.alike c d h).1, part.steady.alike_after h⟩
  · exact (part.steady.alike _ _ (alike_statements c hnames hlabels)).1

/-- A compiler in a loop inside a function with the parameter `x`. -/
def insideLoop : Compiler :=
  { options := {}, indent := 3, scopes := [[], ["x"], []], breaks := [none], generators := [false] }

/-- A compiler in a loop of a program, which stands in a switch. -/
def insideSwitch : Compiler :=
  { options := {}, indent := 3, scopes := [[], []], breaks := [none, some 1] }

/-- Declares a name and uses up a label. -/
def switching : List Node :=
  [.declare "y" none false .start, .switch (.identifier "x" .start) [] (some [.breakLoop])]

/-- Does the same with other statements. -/
def looping : List Node :=
  [.loop (.block [.switch .null [⟨.number 2, [.declare "z" none true .start]⟩] none]),
    .function ⟨some "y", ["x"], .block [.returnValue none], false, .start⟩]

/-- Inside of a loop and of a switch, a part is written alike, and what it declares decides how the
next statement is written. -/
theorem stacks_balanced_redeclared :
    insideLoop.Alike insideSwitch ∧
      ((block looping).run insideLoop).1 = ((block looping).run insideSwitch).1 ∧
    (∀ name, name ∈ declaredAll switching ↔ name ∈ declaredAll looping) ∧
      ((statements switching).run insideLoop).2.labels =
        ((statements looping).run insideLoop).2.labels ∧
      ((statement (.declare "y" none true .start)).run
          ((statements switching).run insideLoop).2).1 =
        ((statement (.declare "y" none true .start)).run
          ((statements looping).run insideLoop).2).1 := by
  have halike : insideLoop.Alike insideSwitch := ⟨rfl, fun _ => rfl, by decide⟩
  have hnames (name : String) : name ∈ declaredAll switching ↔ name ∈ declaredAll looping :=
    Iff.rfl
  have hlabels : ((statements switching).run insideLoop).2.labels =
      ((statements looping).run insideLoop).2.labels := by decide +kernel
  obtain ⟨-, -, hcode, hbehind⟩ := stacks_balanced
  exact ⟨halike, (hcode (.block looping) _ _ halike).1, hnames, hlabels,
    hbehind (.statement (.declare "y" none true .start)) _ _ _ hnames hlabels⟩

end BrailleScript.JavaScript.Compiler
