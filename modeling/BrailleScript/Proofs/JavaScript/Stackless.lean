import BrailleScript.Proofs.JavaScript.Balance

/-!
# The compiler without its stacks

Inside a block the compiler emits what `emit` says in the context that the tops of its stacks give,
declares the same names and uses up the same labels.  So what is proved of `compile` holds of the
compiler with its stacks.

## Key results

- `Emits.bind`, `Emits.blockWith`, `Emits.breakable`: steps and emissions go side by side
- `emits_write`: every node in every place
- `compile_eq`: programs
-/

namespace BrailleScript.JavaScript.Compiler

/-- What of a compiler an emission threads through. -/
def emitState (c : Compiler) : EmitState :=
  ⟨c.scopes.headD [], c.labels⟩

/-- The compiler behind an emission. -/
def resume (c : Compiler) (s : EmitState) : Compiler :=
  { c with scopes := s.declared :: c.scopes.tail, labels := s.labels }

/-- Inside a block, the step does what the emission does in the context of the compiler. -/
structure Emits {α : Type} (x : Compiling α) (f : Context → Emit α) : Prop where
  run_eq : ∀ c : Compiler, c.scopes ≠ [] →
    x.run c = (((f c.context).run c.emitState).1, c.resume ((f c.context).run c.emitState).2)

namespace Emits

variable {α β : Type} {x : Compiling α} {f : Context → Emit α} {k : α → Compiling β}
  {g : Context → α → Emit β}

/-- A compiler resumes in the state that it emits from. -/
theorem resume_self {c : Compiler} (h : c.scopes ≠ []) : c.resume c.emitState = c := by
  obtain ⟨options, indent, scopes, breaks, generators, labels⟩ := c
  cases scopes with
  | nil => exact absurd rfl h
  | cons scope outer => rfl

/-- A text that is ready is emitted as it is. -/
theorem pure (a : α) : Emits (Pure.pure a) fun _ => Pure.pure a := by
  refine ⟨fun c h => ?_⟩
  exact congrArg (Prod.mk a) (resume_self h).symm

/-- A sequence emits one part after the other. -/
theorem bind (hx : Emits x f) (hk : ∀ a, Emits (k a) fun ctx => g ctx a) :
    Emits (x >>= k) fun ctx => f ctx >>= g ctx := by
  refine ⟨fun c h => ?_⟩
  let first := (f c.context).run c.emitState
  have hnext := (hk first.1).run_eq (c.resume first.2) (List.cons_ne_nil _ _)
  rw [StateT.run_bind, hx.run_eq c h]
  exact hnext

/-- Asking for the context emits nothing. -/
theorem here : Emits here fun ctx => Pure.pure ctx := by
  refine ⟨fun c h => ?_⟩
  exact congrArg (Prod.mk c.context) (resume_self h).symm

/-- A line is emitted with the indentation of its context. -/
theorem line (text : String) : Emits (line text) fun ctx => Pure.pure (ctx.line text) :=
  here.bind fun _ => .pure _

/-- Taking a label takes the next number. -/
theorem nextLabel : Emits nextLabel fun _ => newLabel := by
  refine ⟨fun c h => ?_⟩
  refine congrArg (Prod.mk (c.labels + 1)) ?_
  exact congrArg (fun d : Compiler => { d with labels := c.labels + 1 }) (resume_self h).symm

/-- Declaring a name asks whether it is new. -/
theorem declare (name : String) : Emits (declare name) fun _ => declareName name := by
  refine ⟨fun c h => ?_⟩
  obtain ⟨options, indent, scopes, breaks, generators, labels⟩ := c
  cases scopes with
  | nil => exact absurd rfl h
  | cons scope outer =>
    have hname : (declareName name).run ⟨scope, labels⟩ =
        (!scope.contains name, ⟨scope.insert name, labels⟩) := by
      by_cases hmem : name ∈ scope <;> simp [declareName, hmem] <;> rfl
    -- the emission sees the innermost scope alone, and `resume` puts the others back behind it
    let c : Compiler := ⟨options, indent, scope :: outer, breaks, generators, labels⟩
    show (!scope.contains name, c.resume ⟨scope.insert name, labels⟩) =
      (((declareName name).run ⟨scope, labels⟩).1,
        c.resume ((declareName name).run ⟨scope, labels⟩).2)
    rw [hname]

/-- A step that looks at what surrounds the next node. -/
theorem look {k : Context → Compiling α} (g : Context → Context → Emit α)
    (hk : ∀ seen, Emits (k seen) fun ctx => g ctx seen) :
    Emits (Compiler.here >>= k) fun ctx => g ctx ctx :=
  here.bind hk

/-! ### What is pushed and taken off -/

/-- Between the ends of a bracket, code is emitted in the context that the bracket enters. -/
theorem around {names : List String} (b : Bracket names) {under : Context → Context}
    (hx : Emits x f) (hcontext : ∀ c, (b.enter c).context = under c.context)
    (hscopes : ∀ c, (b.enter c).scopes = c.scopes) (hlabels : ∀ c, (b.enter c).labels = c.labels)
    (hleave : ∀ c s, b.leave c ((b.enter c).resume s) = c.resume s) :
    Emits (b.around x) fun ctx => f (under ctx) := by
  refine ⟨fun c h => ?_⟩
  -- the bracket changes where the code stands, and nothing of the state
  have hstate : (b.enter c).emitState = c.emitState := by
    rw [emitState, hscopes, hlabels, emitState]
  have hinside := hx.run_eq (b.enter c) (by rwa [hscopes])
  rw [hcontext, hstate] at hinside
  show ((x.run (b.enter c)).1, b.leave c (x.run (b.enter c)).2) = _
  rw [hinside, hleave]

/-- Indented code is emitted one level deeper. -/
theorem indented (hx : Emits x f) (hk : ∀ a, Emits (k a) fun ctx => g ctx a) : Emits (do
    deepen
    let a ← x
    rise
    k a) fun ctx => f ctx.deeper >>= g ctx :=
  (hx.around .indentation (fun _ => rfl) (fun _ => rfl) (fun _ => rfl) fun _ _ => rfl).bind hk

/-- Code that can be left is emitted with its label. -/
theorem breakable (label : Option Nat) (hx : Emits x f) (hk : ∀ a, Emits (k a) fun ctx => g ctx a) :
    Emits (do
      pushBreak label
      let a ← x
      popBreak
      k a) fun ctx => f { ctx with breakLabel := label } >>= g ctx :=
  (hx.around (.breakable label) (fun _ => rfl) (fun _ => rfl) (fun _ => rfl) fun _ _ => rfl).bind hk

/-- The code of a function is emitted in a function of its kind. -/
theorem inFunction (generator : Bool) (hx : Emits x f)
    (hk : ∀ a, Emits (k a) fun ctx => g ctx a) : Emits (do
      pushGenerator generator
      let a ← x
      popGenerator
      k a) fun ctx => f { ctx with generator } >>= g ctx :=
  (hx.around (.function generator) (fun _ => rfl) (fun _ => rfl) (fun _ => rfl)
    fun _ _ => rfl).bind hk

/-- Code that no break can leave is emitted without a label. -/
theorem unbreakable (hx : Emits x f) (hk : ∀ a, Emits (k a) fun ctx => g ctx a) : Emits (do
    let saved ← takeBreaks
    let a ← x
    restoreBreaks saved
    k a) fun ctx => f { ctx with breakLabel := none } >>= g ctx :=
  (hx.around .unbreakable (fun _ => rfl) (fun _ => rfl) (fun _ => rfl) fun _ _ => rfl).bind hk

/-- Code in a scope of its own is emitted with the given names alone. -/
theorem inScope (given : List String) (hx : Emits x f) (hk : ∀ a, Emits (k a) fun ctx => g ctx a) :
    Emits (do
      openScope given
      let a ← x
      closeScope
      k a) fun ctx => withNames given (f ctx) >>= g ctx := by
  -- the scope is opened on the stack and taken off again, which the state of the emitter shows as
  -- given names
  have hscope : Emits (do openScope given; let a ← x; closeScope; return a) fun ctx =>
      withNames given (f ctx) := by
    refine ⟨fun c h => ?_⟩
    let inside : Compiler := { c with scopes := given :: c.scopes }
    have hinside := hx.run_eq inside (List.cons_ne_nil _ _)
    obtain ⟨options, indent, scopes, breaks, generators, labels⟩ := c
    cases scopes with
    | nil => exact absurd rfl h
    | cons scope outer =>
      show ((x.run inside).1, { (x.run inside).2 with scopes := (x.run inside).2.scopes.tail }) = _
      rw [hinside]
      rfl
  exact hscope.bind hk

end Emits

/-! ## Blocks and functions -/

section Blocks

variable {body : Compiling String} {f : Context → Emit String}

namespace Emits

/-- Braces are put around a text at the indentation of its context. -/
theorem braced (text : String) :
    Emits (do return braces (← Compiler.here) text) fun ctx => Pure.pure (braces ctx text) :=
  Emits.here.bind fun _ => .pure _

/-- A block is emitted one level deeper, behind its first lines. -/
theorem blockWith (given prologue : List String) (h : Emits body f) :
    Emits (blockWith given prologue body) fun ctx => do
      let inner ← withNames given (f ctx.deeper)
      return braces ctx (String.join (prologue.map ctx.deeper.line) ++ inner) := by
  -- both sides ask for the context, write the body in its scope, and put the first lines in front
  have hinside : Emits (do
      let ctx ← Compiler.here
      openScope given
      let rest ← body
      closeScope
      return String.join (prologue.map ctx.line) ++ rest) fun ctx => do
      let ctx' ← Pure.pure ctx
      let rest ← withNames given (f ctx)
      return String.join (prologue.map ctx'.line) ++ rest :=
    Emits.here.bind fun _ => h.inScope given fun _ => .pure _
  exact hinside.indented braced

/-- A block without such lines is emitted as one. -/
theorem block (given : List String) (h : Emits body f) :
    Emits (Compiler.blockWith given [] body) fun ctx => inBlock ctx given f := by
  have hblock := h.blockWith given []
  simp only [List.map_nil, String.join_nil, String.empty_append] at hblock
  exact hblock

/-- A block that binds names first is emitted behind the lines that do. -/
theorem bindingBlock (given prologue : List String) (h : Emits body f) :
    Emits (bindingBlock given prologue body) fun ctx => do
      let inner ← withNames given (f ctx.deeper)
      return braces ctx (String.join (prologue.map ctx.deeper.line) ++ ctx.deeper.line inner) := by
  have hlines : Emits (do Compiler.line (← body)) fun ctx => do return ctx.line (← f ctx) :=
    h.bind fun _ => .line _
  exact hlines.blockWith given prologue

/-- A block that collects its yields is emitted in the frame that collects. -/
theorem collectingBlock (h : Emits body f) :
    Emits (collectingBlock body) fun ctx => do return collecting ctx (← f ctx.deeper) := by
  -- three lines around the body, one level deeper
  have hlines : Emits (collectingLines body) fun ctx => do
      let inner ← f ctx
      return ctx.line "const __y = [];" ++
        ctx.line ("const __r = await (async () => " ++ inner ++ ")();") ++
        ctx.line "return __y.length ? __y : __r;" :=
    (Emits.line _).bind fun _ => h.bind fun _ => (Emits.line _).bind fun _ =>
      (Emits.line _).bind fun _ => .pure _
  exact hlines.indented braced

/-- The body of a function collects its yields when there are any. -/
theorem functionOf (generator : Bool) (h : Emits body f) :
    Emits (functionOf generator body) fun ctx =>
      if generator then do return collecting ctx (← f (ctx.inFunction true).deeper)
      else f (ctx.inFunction false) := by
  cases generator with
  | true =>
    -- the kind of function is pushed around the body, and the breaks further out are put aside
    have hinside : Emits (do
        pushGenerator true
        let text ← Compiler.collectingBlock body
        popGenerator
        return text) fun ctx => do
        return collecting ctx (← f { ctx with generator := true }.deeper) :=
      h.collectingBlock.inFunction true fun _ => .pure _
    exact hinside.unbreakable fun _ => .pure _
  | false =>
    have hinside : Emits (do
        pushGenerator false
        let text ← body
        popGenerator
        return text) fun ctx => f { ctx with generator := false } :=
      h.inFunction false fun text => .pure text
    exact hinside.unbreakable fun text => .pure text

/-- A switch is emitted as a labelled block with a chain of conditions. -/
theorem switchLines (label : Nat) (subject : String) {branches : Compiling (List String)}
    {g : Context → Emit (List String)} (h : Emits branches g) :
    Emits (switchLines label subject branches) fun ctx => do
      let chain := " else ".intercalate (← g (ctx.inSwitch label))
      return ctx.line ("const __s" ++ toString label ++ " = " ++ subject ++ ";") ++
        (if chain.isEmpty then "" else ctx.line chain) := by
  -- the line of the chain is left out where there is no case
  have hchain (first chain : String) : Emits
      (if chain.isEmpty then return first else return first ++ (← Compiler.line chain))
      fun ctx => Pure.pure (first ++ (if chain.isEmpty then "" else ctx.line chain)) := by
    split
    · rw [String.append_empty]
      exact .pure _
    · exact (Emits.line _).bind fun _ => .pure _
  exact (Emits.line _).bind fun first => h.breakable (some label) fun texts => hchain first _

/-! ### Forms -/

/-- Lines are placed as their form says. -/
theorem asLines (form : Form) (h : Emits body f) :
    Emits (asLines form body) fun ctx => JavaScript.asLines unsupported form ctx f := by
  cases form with
  | standing => exact h
  | body | chained => exact h.block []
  | expression => exact .pure _

/-- So is an expression. -/
theorem asExpression (form : Form) (h : Emits body f) :
    Emits (asExpression form body) fun ctx => JavaScript.asExpression unsupported form ctx f := by
  have hline : Emits (do Compiler.line ((← body) ++ ";")) fun ctx => do
      return ctx.line ((← f ctx) ++ ";") := h.bind fun _ => .line _
  -- everywhere but in an expression it becomes a line
  cases form with
  | expression => exact h
  | standing => exact hline.asLines .standing
  | body => exact hline.asLines .body
  | chained => exact hline.asLines .chained

end Emits

end Blocks

/-! ## Nodes -/

section Nodes

variable {reflect : String → Compiling String} {r : Context → String → Emit String}

/-- Returning an expression emits it behind the word for it. -/
theorem Emits.returned {n : Node}
    (h : Emits (write reflect .expression n) fun ctx => emit unsupported r .expression ctx n) :
    Emits (do Compiler.line ("return " ++ (← write reflect .expression n) ++ ";")) fun ctx => do
      return ctx.line ("return " ++ (← emit unsupported r .expression ctx n) ++ ";") :=
  h.bind fun _ => .line _

/-- The other branch of a condition is emitted as part of the chain. -/
theorem Emits.elseBranch {branch : Option Node} (h : ∀ n ∈ branch,
      Emits (write reflect .chained n) fun ctx => emit unsupported r .chained ctx n) :
    Emits (writeElse reflect branch) fun ctx => emitElse unsupported r ctx branch := by
  cases branch with
  | none =>
    simp only [writeElse, emitElse]
    exact .pure _
  | some n =>
    simp only [writeElse, emitElse]
    exact (h n rfl).bind fun _ => .pure _

/-- Calls of anything but a member or a method of a parent. -/
theorem Emits.call {callee : Node} {args : List Node}
    (hargs : Emits (writeAll reflect args) fun ctx => emitAll unsupported r ctx args)
    (hcallee : Emits (write reflect .expression callee)
      fun ctx => emit unsupported r .expression ctx callee)
    (hmember : ∀ object name pos, callee ≠ .member object name pos)
    (hsuper : ∀ method pos, callee ≠ .super method pos) (form : Form) (pos : Pos) :
    Emits (write reflect form (.call callee args pos))
      fun ctx => emit unsupported r form ctx (.call callee args pos) := by
  simp only [write, emit]
  exact Emits.asExpression form (hargs.bind fun _ => hcallee.bind fun _ => .pure _)

mutual

/-- A node in any place is emitted as without the stacks, if literal sources are. -/
theorem emits_write (hr : ∀ s, Emits (reflect s) fun ctx => r ctx s) : ∀ (form : Form) (n : Node),
    Emits (write reflect form n) fun ctx => emit unsupported r form ctx n
  | form, .declare name value constant _ => by
    simp only [write, emit]
    refine Emits.asLines form ((emits_option hr value).bind fun v =>
      (Emits.declare _).bind fun isNew => ?_)
    cases isNew with
    | true => exact .line _
    | false => exact .line _
  | form, .function d => by
    simp only [write, emit]
    exact Emits.asLines form ((Emits.declare _).bind fun _ => (emits_function hr false d).bind
      fun _ => .line _)
  | form, .classDecl name parent methods _ => by
    simp only [write, emit]
    refine Emits.asLines form ((Emits.declare _).bind fun isNew => ?_)
    cases isNew with
    | true =>
      exact (Emits.line _).bind fun _ => (emits_methods hr methods).indented fun _ =>
        (Emits.line _).bind fun _ => .pure _
    | false =>
      exact (Emits.line _).bind fun _ => (emits_methods hr methods).indented fun _ =>
        (Emits.line _).bind fun _ => .pure _
  | form, .importModule module _ => by
    simp only [write, emit]
    exact Emits.asLines form ((Emits.declare _).bind fun _ => .line _)
  | form, .block items => by
    have hblock := (emits_lines hr items).block []
    cases form with
    | standing =>
      simp only [write, emit]
      exact hblock.bind fun _ => .line _
    | body | chained =>
      simp only [write, emit]
      exact hblock
    | expression =>
      simp only [write, emit]
      exact .pure _
  | form, .print args => by
    simp only [write, emit]
    exact Emits.asLines form ((emits_all hr args).bind fun _ => .line _)
  | form, .returnValue value => by
    simp only [write, emit]
    exact Emits.asLines form ((emits_option hr value).bind fun _ => .line _)
  | form, .yieldValue value => by
    simp only [write, emit]
    refine Emits.asLines form ((emits_write hr .expression value).bind fun v => ?_)
    refine .look (fun ctx seen =>
      if seen.generator then return ctx.line ("__y.push(" ++ v ++ ");")
      else return ctx.line "__fail(\"TypeMismatch\", \"yield outside of a function\");")
      fun seen => ?_
    cases seen.generator with
    | true => exact .line _
    | false => exact .line _
  | form, .breakLoop => by
    simp only [write, emit]
    refine Emits.asLines form (.look (fun ctx seen =>
      match seen.breakLabel with
      | some n => return ctx.line ("break __sw" ++ toString n ++ ";")
      | none => return ctx.line "break;") fun seen => ?_)
    cases seen.breakLabel with
    | some n => exact .line _
    | none => exact .line _
  | form, .continueLoop | form, .halt => by
    simp only [write, emit]
    exact Emits.asLines form (.line _)
  | form, .ifElse condition thenBranch elseBranch => by
    have hchain : Emits (do
        let c ← write reflect .expression condition
        let t ← write reflect .body thenBranch
        let e ← writeElse reflect elseBranch
        return "if (__truthy(" ++ c ++ ")) " ++ t ++ e) fun ctx => do
        let c ← emit unsupported r .expression ctx condition
        let t ← emit unsupported r .body ctx thenBranch
        let e ← emitElse unsupported r ctx elseBranch
        return "if (__truthy(" ++ c ++ ")) " ++ t ++ e :=
      (emits_write hr .expression condition).bind fun _ =>
        (emits_write hr .body thenBranch).bind fun _ =>
          (emits_else hr elseBranch).bind fun _ => .pure _
    cases form with
    | chained =>
      simp only [write, emit]
      exact hchain
    | standing | body | expression =>
      simp only [write, emit]
      exact Emits.asLines _ (hchain.bind fun _ => .line _)
  | form, .whileLoop condition body => by
    simp only [write, emit]
    exact Emits.asLines form ((emits_write hr .expression condition).bind fun _ =>
      (emits_write hr .body body).breakable none fun _ => .line _)
  | form, .loop body => by
    simp only [write, emit]
    refine Emits.asLines form (.look (fun ctx seen => do
      let inner ← withNames [] (emit unsupported r .standing ctx.inLoop.deeper body)
      let b := braces ctx (ctx.deeper.line (loopGuard seen.cap) ++ inner)
      return ctx.line ("for (let __n = 0; ; __n++) " ++ b)) fun seen => ?_)
    have hblock := (emits_write hr .standing body).blockWith [] [loopGuard seen.cap]
    simp only [List.map_cons, List.map_nil, String.join_cons, String.join_nil, String.append_empty]
      at hblock
    exact hblock.breakable none fun _ => .line _
  | form, .forEach var iterable body => by
    have hblock := (emits_write hr .body body).bindingBlock [sanitize var] []
    simp only [List.map_nil, String.join_nil, String.empty_append] at hblock
    simp only [write, emit]
    exact Emits.asLines form ((emits_write hr .expression iterable).bind fun _ =>
      hblock.breakable none fun _ => .line _)
  | form, .tryCatch body catchName handler => by
    simp only [write, emit]
    exact Emits.asLines form ((emits_write hr .body body).bind fun _ =>
      ((emits_write hr .body handler).bindingBlock _ _).bind fun _ => .line _)
  | form, .switch subject cases default => by
    have hbranches (n : Nat) : Emits (do
        return (← writeCases reflect n cases) ++ (← writeDefault reflect default)) fun ctx => do
        return (← emitCases unsupported r ctx n cases) ++
          (← emitDefault unsupported r ctx default) :=
      (emits_cases hr n cases).bind fun _ => (emits_default hr default).bind fun _ => .pure _
    have hswitch := Emits.nextLabel.bind fun n => (emits_write hr .expression subject).bind fun s =>
      (Emits.line ("__sw" ++ toString n ++ ": \x7b")).bind fun first =>
        ((hbranches n).switchLines n s).indented fun inside => (Emits.line "\x7d").bind fun last =>
          Emits.pure (first ++ inside ++ last)
    simp only [write, emit]
    refine Emits.asLines form ?_
    -- `emit` has no block between the braces of a switch: the steps and the lines are in one row
    simpa only [bind_assoc, pure_bind, String.append_assoc] using hswitch
  | form, .program items => by
    simp only [write, emit]
    exact Emits.asLines form (emits_lines hr items)
  | form, .error message => by
    cases form with
    | expression =>
      simp only [write, emit]
      exact .pure _
    | standing | body | chained =>
      simp only [write, emit]
      exact Emits.asLines _ (.line _)
  | form, .number _ | form, .text _ | form, .bool _ | form, .null | form, .identifier ..
  | form, .this _ | form, .super .. => by
    simp only [write, emit]
    exact Emits.asExpression form (.pure _)
  | form, .array items => by
    simp only [write, emit]
    exact Emits.asExpression form ((emits_all hr items).bind fun _ => .pure _)
  | form, .map pairs => by
    simp only [write, emit]
    exact Emits.asExpression form ((emits_pairs hr pairs).bind fun _ => .pure _)
  | form, .assign target value _ => by
    simp only [write, emit]
    refine Emits.asExpression form ((emits_write hr .expression value).bind fun v => ?_)
    cases target with
    | member object name _ =>
      exact (emits_write hr .expression object).bind fun _ => .pure _
    | index object index _ =>
      exact (emits_write hr .expression object).bind fun _ =>
        (emits_write hr .expression index).bind fun _ => .pure _
    | _ => exact .pure _
  | form, .lambda d => by
    simp only [write, emit]
    exact Emits.asExpression form ((emits_function hr true d).bind fun _ => .pure _)
  | form, .binary _ left right _ | form, .logical _ left right | form, .index left right _ => by
    simp only [write, emit]
    exact Emits.asExpression form ((emits_write hr .expression left).bind fun _ =>
      (emits_write hr .expression right).bind fun _ => .pure _)
  | form, .unary _ operand _ | form, .await operand | form, .member operand _ _ => by
    simp only [write, emit]
    exact Emits.asExpression form ((emits_write hr .expression operand).bind fun _ => .pure _)
  | form, .call callee args _ => by
    have hargs := emits_all hr args
    have hcallee := emits_write hr .expression callee
    cases callee with
    | member object name _ =>
      simp only [write, emit]
      exact Emits.asExpression form (hargs.bind fun _ => (emits_write hr .expression object).bind
        fun _ => .pure _)
    | super method _ =>
      simp only [write, emit]
      exact Emits.asExpression form (hargs.bind fun _ => .pure _)
    | _ => exact hargs.call hcallee nofun nofun form _
  | form, .primitive p args _ => by
    have hargs := emits_all hr args
    -- only a literal source is compiled in place
    by_cases hliteral : ∃ s rest, p = .reflectExec ∧ args = .text s :: rest
    · obtain ⟨s, rest, rfl, rfl⟩ := hliteral
      simp only [write, emit]
      exact Emits.asExpression form (hr s)
    · have hother (s rest) (hp : p = .reflectExec) : args ≠ .text s :: rest := fun h =>
        hliteral ⟨s, rest, hp, h⟩
      simp only [write, emit]
      exact Emits.asExpression form (hargs.bind fun _ => .pure _)

/-- An optional expression is emitted from the context. -/
theorem emits_option (hr : ∀ s, Emits (reflect s) fun ctx => r ctx s) : ∀ value : Option Node,
    Emits (writeOption reflect value) fun ctx => emitOption unsupported r ctx value
  | none => by
    simp only [writeOption, emitOption]
    exact .pure _
  | some n => by
    simp only [writeOption, emitOption]
    exact emits_write hr .expression n

/-- So are expressions in a row. -/
theorem emits_all (hr : ∀ s, Emits (reflect s) fun ctx => r ctx s) : ∀ items : List Node,
    Emits (writeAll reflect items) fun ctx => emitAll unsupported r ctx items
  | [] => by
    simp only [writeAll, emitAll]
    exact .pure _
  | n :: rest => by
    simp only [writeAll, emitAll]
    exact (emits_write hr .expression n).bind fun _ => (emits_all hr rest).bind fun _ => .pure _

/-- So are the entries of a map. -/
theorem emits_pairs (hr : ∀ s, Emits (reflect s) fun ctx => r ctx s) :
    ∀ pairs : List (Node × Node),
      Emits (writePairs reflect pairs) fun ctx => emitPairs unsupported r ctx pairs
  | [] => by
    simp only [writePairs, emitPairs]
    exact .pure _
  | (key, value) :: rest => by
    have hkey := emits_write hr .expression key
    have hvalue := emits_write hr .expression value
    have hrest := emits_pairs hr rest
    -- a text or a number is written as the key that it is
    cases key with
    | text | number =>
      simp only [writePairs, emitPairs]
      exact hvalue.bind fun _ => hrest.bind fun _ => .pure _
    | _ =>
      simp only [writePairs, emitPairs]
      exact hkey.bind fun _ => hvalue.bind fun _ => hrest.bind fun _ => .pure _

/-- So are statements. -/
theorem emits_lines (hr : ∀ s, Emits (reflect s) fun ctx => r ctx s) : ∀ items : List Node,
    Emits (writeLines reflect items) fun ctx => emitLines unsupported r ctx items
  | [] => by
    simp only [writeLines, emitLines]
    exact .pure _
  | n :: rest => by
    simp only [writeLines, emitLines]
    exact (emits_write hr .standing n).bind fun _ => (emits_lines hr rest).bind fun _ => .pure _

/-- So are statements whose last one is returned. -/
theorem emits_returning (hr : ∀ s, Emits (reflect s) fun ctx => r ctx s) : ∀ items : List Node,
    Emits (writeReturning reflect items) fun ctx => emitReturning unsupported r ctx items
  | [] => by
    simp only [writeReturning, emitReturning]
    exact .pure _
  | [n] => by
    simp only [writeReturning, emitReturning]
    split
    · exact (emits_write hr .expression n).returned
    · exact emits_write hr .standing n
  | n :: m :: rest => by
    simp only [writeReturning, emitReturning]
    exact (emits_write hr .standing n).bind fun _ => (emits_returning hr (m :: rest)).bind
      fun _ => .pure _

/-- So is the other branch of a condition. -/
theorem emits_else (hr : ∀ s, Emits (reflect s) fun ctx => r ctx s) : ∀ branch : Option Node,
    Emits (writeElse reflect branch) fun ctx => emitElse unsupported r ctx branch
  | none => Emits.elseBranch fun _ hm => by cases hm
  | some n => by
    have hn := emits_write hr .chained n
    exact Emits.elseBranch fun _ hm => by cases hm; exact hn

/-- So are the cases of a switch. -/
theorem emits_cases (hr : ∀ s, Emits (reflect s) fun ctx => r ctx s) (label : Nat) :
    ∀ cases : List (SwitchCase Node),
      Emits (writeCases reflect label cases) fun ctx => emitCases unsupported r ctx label cases
  | [] => by
    simp only [writeCases, emitCases]
    exact .pure _
  | ⟨value, body⟩ :: rest => by
    simp only [writeCases, emitCases]
    exact (emits_write hr .expression value).bind fun _ => ((emits_lines hr body).block []).bind
      fun _ => (emits_cases hr label rest).bind fun _ => .pure _

/-- So is its default. -/
theorem emits_default (hr : ∀ s, Emits (reflect s) fun ctx => r ctx s) :
    ∀ default : Option (List Node),
      Emits (writeDefault reflect default) fun ctx => emitDefault unsupported r ctx default
  | none => by
    simp only [writeDefault, emitDefault]
    exact .pure _
  | some items => by
    simp only [writeDefault, emitDefault]
    exact ((emits_lines hr items).block []).bind fun _ => .pure _

/-- So is a function definition. -/
theorem emits_function (hr : ∀ s, Emits (reflect s) fun ctx => r ctx s) (arrow : Bool) :
    ∀ d : FunctionDef Node,
      Emits (writeFunction reflect arrow d) fun ctx => emitFunction unsupported r ctx arrow d
  | ⟨_, params, body, _, _⟩ => by
    simp only [writeFunction, emitFunction]
    exact emits_body hr arrow (params.map sanitize) body

/-- So is its body. -/
theorem emits_body (hr : ∀ s, Emits (reflect s) fun ctx => r ctx s) (arrow : Bool)
    (names : List String) : ∀ body : FunctionBody Node,
      Emits (writeBody reflect arrow names body)
        fun ctx => emitBody unsupported r ctx arrow names body
  | .block stmts => by
    have hbody := Emits.functionOf (anyYield stmts) ((emits_returning hr stmts).block names)
    simp only [writeBody, emitBody]
    exact hbody
  | .expr value => by
    have hvalue := emits_write hr .expression value
    have hbody := Emits.functionOf value.containsYield (hvalue.returned.block names)
    simp only [writeBody, emitBody]
    -- only an arrow before a value without yields does without braces
    cases hy : value.containsYield with
    | true =>
      rw [hy] at hbody
      simp only [Bool.not_true, Bool.and_false, Bool.false_eq_true, if_false]
      exact hbody
    | false =>
      rw [hy] at hbody
      cases arrow with
      | true => exact hvalue.inFunction false fun _ => .pure _
      | false => exact hbody

/-- So are the methods of a class. -/
theorem emits_methods (hr : ∀ s, Emits (reflect s) fun ctx => r ctx s) :
    ∀ methods : List (FunctionDef Node),
      Emits (writeMethods reflect methods) fun ctx => emitMethods unsupported r ctx methods
  | [] => by
    simp only [writeMethods, emitMethods]
    exact .pure _
  | d :: rest => by
    simp only [writeMethods, emitMethods]
    exact (emits_function hr false d).bind fun _ => (Emits.line _).bind fun _ =>
      (emits_methods hr rest).bind fun _ => .pure _

end

end Nodes

/-! ## Literal sources and programs -/

/-- So is a reflected literal, at every depth. -/
theorem emits_writeLiteral (fuel : Nat) (source : String) : Emits (writeLiteral fuel source)
    fun ctx => reflectLiteral unsupported fuel ctx source := by
  induction fuel generalizing source with
  | zero => exact .pure _
  | succ fuel ih =>
    simp only [writeLiteral, reflectLiteral]
    -- both sides refuse an unreadable source, and expand a program in the same way
    cases parseSource false (Readable.toCells source) with
    | error e => exact .pure _
    | ok tree =>
      cases tree with
      | program items =>
        exact ((emits_returning ih items).block []).unbreakable fun _ => .pure _
      | _ => exact .pure _

/-- So is a list of statements. -/
theorem emits_statements (items : List Node) : Emits (statements items)
    fun ctx => emitLines unsupported (reflectText unsupported) ctx items :=
  emits_lines (fun s => emits_writeLiteral _ s) items

/-- The compiler with its stacks gives programs the code that they have without them. -/
theorem compile_eq (options : EmitOptions) (tree : Node) :
    Compiler.compile options tree = JavaScript.compile options tree := by
  have hbody :=
    (emits_statements tree.statements).run_eq { options, indent := 1, scopes := [[]] } nofun
  -- the program starts inside of one block, with nothing declared
  have hprogram : ((program tree).run { options }).1 =
      emitProgram unsupported options.maxLoopIterations tree := by
    show "__main(async () => \x7b\n" ++ ((statements tree.statements).run
      { options, indent := 1, scopes := [[]] }).1 ++ "\x7d);\n" = _
    rw [hbody]
    rfl
  rw [JavaScript.compile, compileWith, ← hprogram]
  rfl

end BrailleScript.JavaScript.Compiler
