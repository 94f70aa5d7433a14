import BrailleScript.Proofs.JavaScript.Statements
import BrailleScript.Proofs.Node.Soundness
import BrailleScript.Proofs.Node.Writer

/-!
# Emitted statements never run together

The text emitted for a statement is over where it ends: with a semicolon, or with the brace of a
declaration or of a construct.  So what stands on the next line, even if it begins with a bracket,
is no continuation of it.  The one exception is a class whose name was declared before in its block.

## Key results

- `ends_statement`: any node in the place of a statement
- `ends_lines`: statements one after the other
- `statements_end`: all parsed programs
-/

namespace BrailleScript.JavaScript

variable {K : String → Prop} {p : String → String} {r : Context → String → Emit String} {n : Node}

/-! ## Bodies -/

/-- An expression is emitted alike in all places, up to what its place adds. -/
theorem emit_eq_asExpression (h : n.isExpression = true) :
    ∃ f, ∀ form ctx, emit p r form ctx n = asExpression p form ctx f := by
  cases n with
  | call callee args pos =>
    -- methods are called in a way of their own
    cases callee with
    | member | super => exact ⟨_, fun form ctx => by rw [emit]⟩
    | _ => exact ⟨_, fun form ctx => by rw [emit] <;> simp⟩
  | assign | lambda | binary | logical | unary | await | member | index | primitive | identifier
  | this | super | number | text | bool | null | array | map =>
    exact ⟨_, fun form ctx => by rw [emit]⟩
  | _ => cases h

/-- As the body of a construct, a statement is put between braces; a block already stands there, and
so may a condition behind `else`. -/
theorem emit_enclosed {form : Form} (hform : form = .body ∨ form = .chained ∧ n.isConditional = false)
    (hblock : n.isBlock = false) (ctx : Context) :
    emit p r form ctx n = inBlock ctx [] fun ctx => emit p r .standing ctx n := by
  -- expressions are placed by one function, and statements each by their own case
  cases hexpr : n.isExpression with
  | true =>
    obtain ⟨f, hf⟩ := emit_eq_asExpression (p := p) (r := r) hexpr
    simp only [hf]
    rcases hform with rfl | ⟨rfl, -⟩ <;> rfl
  | false =>
    cases n with
    | block => cases hblock
    | ifElse =>
      rcases hform with rfl | ⟨rfl, hcond⟩
      · simp only [emit]
        rfl
      · cases hcond
    | declare | function | classDecl | importModule | print | returnValue | yieldValue | breakLoop
    | continueLoop | halt | whileLoop | loop | forEach | tryCatch | switch | program | error =>
      rcases hform with rfl | ⟨rfl, -⟩ <;> (simp only [emit]; rfl)
    | _ => cases hexpr

section Emission

variable {ctx : Context} {f : Context → Emit String} (hnode : ∀ n, EmitsNode K r n)

/-- A block is written in braces. -/
theorem emits_bracesInBlock (h : ∀ ctx, Emits (Closed K) (f ctx)) (names : List String) :
    Emits Braces (inBlock ctx names f) :=
  ((h ctx.deeper).withNames names).bind fun _ hbody => .pure (.of_closed hbody ctx)

include hnode

/-- So is every node in the place of a body, and in the place of a branch that is no condition. -/
theorem emits_braces {form : Form} (hform : form = .body ∨ form = .chained ∧ n.isConditional = false)
    (ctx : Context) : Emits Braces (emit unsupported r form ctx n) := by
  -- a block has its own braces, and any other node is put in some
  cases hblock : n.isBlock with
  | true =>
    obtain ⟨items, rfl⟩ := Node.eq_block_of_isBlock hblock
    have hlines (ctx : Context) : Emits (Closed K) (emitLines unsupported r ctx items) :=
      emits_lines fun n _ => hnode n
    rcases hform with rfl | ⟨rfl, -⟩ <;> rw [emit] <;> exact emits_bracesInBlock hlines []
  | false =>
    rw [emit_enclosed hform hblock]
    exact emits_bracesInBlock (fun ctx => hnode n .standing ctx) []

/-- A function ends with the braces of its body. -/
theorem emits_functionBraces (d : FunctionDef Node) :
    Emits Braces (emitFunction unsupported r ctx false d) := by
  obtain ⟨name, params, body, isAsync, pos⟩ := d
  rw [emitFunction]
  cases body with
  | block stmts =>
    have hstmts (ctx : Context) : Emits (Closed K) (emitReturning unsupported r ctx stmts) :=
      emits_returning fun n _ => hnode n
    rw [emitBody]
    -- in both forms the body stands in braces, with or without the collector
    split
    · exact (emits_inBlock hstmts _).bind fun _ hinner => .pure (.collecting hinner ctx)
    · exact emits_bracesInBlock hstmts _
  | expr value =>
    rw [emitBody]
    split
    · exact (emits_inBlock (fun _ => emits_value (hnode value)) _).bind fun _ hinner =>
        .pure (.collecting hinner ctx)
    · exact emits_bracesInBlock (fun _ => emits_value (hnode value)) _

/-- A condition and its first branch, with what stands behind `else`. -/
theorem emits_branching {condition thenBranch : Node} {elseBranch : Option Node}
    (helse : ∀ n ∈ elseBranch.toList,
      Emits (fun t => Braces t ∨ Branching t) (emit unsupported r .chained ctx n)) :
    Emits Branching (do
      let c ← emit unsupported r .expression ctx condition
      let t ← emit unsupported r .body ctx thenBranch
      let e ← emitElse unsupported r ctx elseBranch
      return "if (__truthy(" ++ c ++ ")) " ++ t ++ e) := by
  refine (hnode condition .expression ctx).bind fun c hc =>
    (emits_braces hnode (.inl rfl) ctx).bind fun t ht => ?_
  cases elseBranch with
  | none =>
    rw [emitElse]
    exact .pure (.only hc ht)
  | some n =>
    rw [emitElse]
    -- the other branch is a block or a condition, whatever it was before
    have hbranch : Emits (fun t => ∃ more, t = " else " ++ more ∧ (Braces more ∨ Branching more))
        (do return " else " ++ (← emit unsupported r .chained ctx n)) :=
      (helse n (.head _)).bind fun more hmore => .pure ⟨more, rfl, hmore⟩
    refine hbranch.bind fun e he => .pure ?_
    obtain ⟨more, rfl, hmore⟩ := he
    exact .other hc ht hmore

/-- A branch is a block in braces or a condition with branches. -/
theorem emits_chained (n : Node) (ctx : Context) :
    Emits (fun t => Braces t ∨ Branching t) (emit unsupported r .chained ctx n) := by
  -- conditions behind `else` stand in one another
  induction n using Node.below_induction with
  | node n ih =>
    cases hcond : n.isConditional with
    | true =>
      cases n with
      | ifElse condition thenBranch elseBranch =>
        rw [emit]
        have hbelow {m : Node} (hm : m ∈ elseBranch.toList) :
            m.Below (.ifElse condition thenBranch elseBranch) := .of_executed (.tail _ hm)
        exact (emits_branching hnode fun m hm => ih m (hbelow hm)).imp fun _ => .inr
      | _ => cases hcond
    | false => exact (emits_braces hnode (.inr ⟨rfl, hcond⟩) ctx).imp fun _ => .inl

end Emission

/-! ## Statements -/

/-- The text is a line that ends with a semicolon. -/
def Line (text : String) : Prop :=
  ∃ before, text = before ++ ";\n"

/-- The text is over where it ends. -/
def Ends (text : String) : Prop :=
  Line text ∨ SelfEnding text

/-- The node is no class whose name was declared before. -/
def FreshClass (s : EmitState) (n : Node) : Prop :=
  ∀ name parent methods pos, n = .classDecl name parent methods pos → sanitize name ∉ s.declared

namespace Ends

/-- A line that ends with a semicolon ends a statement. -/
theorem of_eq (ctx : Context) {text before : String} (h : text = before ++ ";") :
    Ends (ctx.line text) :=
  .inl ⟨ctx.indentation ++ before, by
    rw [h, Context.line, ← String.append_assoc, String.append_assoc]
    rfl⟩

/-- So does a text with a semicolon behind it. -/
theorem line (ctx : Context) (text : String) : Ends (ctx.line (text ++ ";")) :=
  of_eq ctx rfl

/-- So does a call. -/
theorem call (ctx : Context) (text : String) : Ends (ctx.line (text ++ ");")) := by
  have hsplit : text ++ ");" = text ++ ")" ++ ";" := by
    rw [String.append_assoc]
    rfl
  exact of_eq ctx hsplit

end Ends

/-- The first declaration of a class ends with its braces. -/
theorem ends_class (hnode : ∀ n, EmitsNode K r n) {name : String} {parent : Option String}
    {methods : List (FunctionDef Node)} {pos : Pos} (ctx : Context) (s : EmitState)
    (hnew : sanitize name ∉ s.declared) :
    Ends ((emit unsupported r .standing ctx (.classDecl name parent methods pos)).run s).1 := by
  -- the name is new, so the class is declared
  have hdeclare : (declareName (sanitize name)).run s =
      (true, { s with declared := sanitize name :: s.declared }) := by
    simp [declareName, hnew]
    rfl
  rw [emit, asLines, StateT.run_bind, hdeclare]
  refine .inr (Emits.bind (Q := SelfEnding) (emits_methods fun _ _ n _ => hnode n)
    (fun _ hbody => ?_) _)
  exact .pure (.classDecl name parent hbody ctx)

/-- Every other statement ends, whatever stands around it. -/
theorem ends_statement (hnode : ∀ n, EmitsNode K r n) (hprogram : ∀ items, n ≠ .program items)
    (ctx : Context) (s : EmitState) (hclass : FreshClass s n) :
    Ends ((emit unsupported r .standing ctx n).run s).1 := by
  -- all but classes end alike whatever was declared
  have hany {x : Emit String} (h : Emits Ends x) : Ends (x.run s).1 := h s
  have hself {x : Emit String} (h : Emits SelfEnding x) : Ends (x.run s).1 := .inr (h s)
  cases hexpr : n.isExpression with
  | true =>
    obtain ⟨f, hf⟩ := emit_eq_asExpression (p := unsupported) (r := r) hexpr
    rw [hf]
    exact hany ((Emits.any (f ctx)).bind fun t _ => .pure (.line ctx t))
  | false =>
    cases n with
    | declare name value constant pos =>
      rw [emit]
      refine hany ((Emits.any _).bind fun v _ => (Emits.any _).bind fun isNew _ => ?_)
      split <;> exact .pure (.line ctx _)
    | function d =>
      rw [emit]
      exact hself ((Emits.any _).bind fun _ _ => (emits_functionBraces hnode d).bind fun _ hb =>
        .pure ((SelfEnding.function _ _ hb).line ctx))
    | classDecl name parent methods pos =>
      exact ends_class hnode ctx s (hclass name parent methods pos rfl)
    | importModule module pos =>
      rw [emit]
      exact hany ((Emits.any _).bind fun isNew _ => .pure (.call ctx _))
    | block items =>
      rw [emit]
      exact hself ((emits_bracesInBlock (fun ctx => emits_lines fun n _ => hnode n) []).bind
        fun _ hb => .pure ((SelfEnding.block hb).line ctx))
    | print args =>
      rw [emit]
      exact hany ((Emits.any _).bind fun _ _ => .pure (.call ctx _))
    | returnValue value =>
      rw [emit]
      exact hany ((Emits.any _).bind fun _ _ => .pure (.line ctx _))
    | yieldValue value =>
      rw [emit]
      refine hany ((Emits.any _).bind fun _ _ => ?_)
      split
      · exact .pure (.call ctx _)
      · exact .pure (.call ctx "__fail(\"TypeMismatch\", \"yield outside of a function\"")
    | breakLoop =>
      rw [emit]
      refine hany ?_
      rw [asLines]
      split
      · exact .pure (.line ctx _)
      · exact .pure (.line ctx "break")
    | continueLoop =>
      rw [emit]
      exact hany (.pure (.line ctx "continue"))
    | halt =>
      rw [emit]
      exact hany (.pure (.call ctx "throw new __Halt("))
    | ifElse condition thenBranch elseBranch =>
      rw [emit]
      · exact hself ((emits_branching hnode fun m _ => emits_chained hnode m ctx).bind fun _ ht =>
          .pure ((SelfEnding.conditional ht).line ctx))
      · simp
    | whileLoop condition body =>
      rw [emit]
      exact hself ((hnode condition .expression ctx).bind fun _ hc =>
        (emits_braces hnode (.inl rfl) ctx.inLoop).bind fun _ hb =>
          .pure ((SelfEnding.whileLoop hc hb).line ctx))
    | loop body =>
      rw [emit]
      exact hself (((hnode body .standing ctx.inLoop.deeper).withNames []).bind fun _ hb => .pure
        ((SelfEnding.loop (.of_closed (((Leads.loopGuard ctx.cap).line ctx.deeper).code hb) ctx)).line
          ctx))
    | forEach var iterable body =>
      rw [emit]
      exact hself ((hnode iterable .expression ctx).bind fun _ hi =>
        ((hnode body .body ctx.inLoop.deeper).withNames [sanitize var]).bind fun _ hb => .pure
          ((SelfEnding.forEach var hi (.of_closed (hb.line ctx.deeper) ctx)).line ctx))
    | tryCatch body catchName handler =>
      rw [emit]
      exact hself ((emits_braces hnode (.inl rfl) ctx).bind fun _ hb =>
        ((hnode handler .body ctx.deeper).withNames _).bind fun _ hh => .pure
          ((SelfEnding.tryCatch hb (.of_closed
            ((Leads.handlerHead catchName ctx.deeper).code (hh.line ctx.deeper)) ctx)).line ctx))
    | switch subject cases default =>
      rw [emit]
      refine hself ((Emits.any _).bind fun n _ => (hnode subject .expression ctx).bind fun _ hs =>
        (emits_cases (fun n _ => hnode n) fun n _ => hnode n).bind fun _ hcases =>
          (emits_default fun n _ => hnode n).bind fun _ hdefault => .pure ?_)
      have hchain := Leads.intercalate (List.forall_mem_append.2 ⟨hcases, hdefault⟩)
        (rfl : " else " = String.ofList _) (by repeat constructor) rfl
      have h := SelfEnding.switch n (Leads.switchInside n hs hchain ctx.deeper) ctx
      rwa [← String.append_assoc] at h
    | program items => exact absurd rfl (hprogram items)
    | error message =>
      rw [emit]
      · exact hself (.pure ((SelfEnding.comment message).line ctx))
      · simp
    | _ => cases hexpr

/-! ## Rows of statements -/

/-- The lexemes are over where they end. -/
def Over (ts : List Lexeme) : Prop :=
  Semicoloned ts ∨ Compound ts

/-- A text that is over where it ends is read as lexemes that are. -/
theorem Ends.spelt {text : String} (h : Ends text) (hclosed : Closed K text) :
    ∃ ts, Spelt true text ts ∧ (Line text ∧ Semicoloned ts ∨ Compound ts) := by
  rcases h with ⟨before, rfl⟩ | ⟨ts, hts, hcompound⟩
  · obtain ⟨ts, hts, hnested⟩ := Spelt.of_code hclosed
    exact ⟨ts, hts, .inl ⟨⟨before, rfl⟩, hts.semicoloned hnested⟩⟩
  · exact ⟨ts, hts, .inr hcompound⟩

/-- None of the statements, emitted one after the other, is a class whose name was declared before. -/
def FreshClasses (r : Context → String → Emit String) (ctx : Context) : List Node → EmitState → Prop
  | [], _ => True
  | n :: rest, s =>
    FreshClass s n ∧ FreshClasses r ctx rest ((emit unsupported r .standing ctx n).run s).2

/-- The code of statements falls into rows of lexemes, one for each, and each is over where it ends. -/
theorem ends_lines (hnode : ∀ n, EmitsNode K r n) (ctx : Context) {items : List Node}
    (hprogram : ∀ n ∈ items, ∀ nested, n ≠ .program nested) (s : EmitState)
    (hclasses : FreshClasses r ctx items s) :
    ∃ rows : List (List Lexeme),
      Spelt true ((emitLines unsupported r ctx items).run s).1 rows.flatten ∧
      rows.length = items.length ∧ ∀ row ∈ rows, Over row := by
  induction items generalizing s with
  | nil =>
    rw [emitLines]
    exact ⟨[], .nil, rfl, List.forall_mem_nil _⟩
  | cons n rest ih =>
    rw [List.forall_mem_cons] at hprogram
    -- the first statement is over where its row ends, whatever follows
    obtain ⟨row, hrow, hends⟩ := (ends_statement hnode hprogram.1 ctx s hclasses.1).spelt
      (hnode n .standing ctx s)
    obtain ⟨rows, hrows, hlength, hover⟩ := ih hprogram.2 _ hclasses.2
    rw [emitLines]
    exact ⟨row :: rows, hrow.code hrows, congrArg Nat.succ hlength,
      List.forall_mem_cons.2 ⟨hends.imp_left And.right, hover⟩⟩

/-! ## Programs -/

/-- Every statement of a parsed program, and of the literal sources in it, is emitted as a text that
ends with a semicolon outside all brackets and a line feed, or that is one declaration, construct or
comment: in whatever surroundings it stands and whatever was declared before it, unless it is a class
whose name was declared before in its block. -/
theorem statements_end {tokens : List Token} {program : Node} (h : parse tokens = .ok program)
    {item n : Node} (hitem : item ∈ program.statements) (hn : n.OccursIn item)
    {r : Context → String → Emit String}
    (hr : r = reflectText unsupported ∨ ∃ fuel, r = reflectLiteral unsupported fuel)
    (ctx : Context) (s : EmitState) (hclass : FreshClass s n) :
    let text := ((emit unsupported r .standing ctx n).run s).1
    ∃ ts, scan text = some ts ∧ (Line text ∧ Semicoloned ts ∨ Compound ts) := by
  intro text
  have hliteral (ctx : Context) (source : String) :
      Emits (Code fun _ => True) (r ctx source) := by
    -- the statement stands in the program or in a literal of some level
    rcases hr with rfl | ⟨fuel, rfl⟩ <;> exact emits_reflectLiteral (fun _ => trivial) _ ctx source
  have hnode (n : Node) : EmitsNode (fun _ => True) r n :=
    emits_node (fun _ _ _ _ => trivial) fun source _ _ _ ctx => hliteral ctx source
  have hwf : n.wellFormed = true := by
    have hwhole := parse_isProgram h
    cases program with
    | program items => exact hn.wellFormed (statementsWellFormed_mem hwhole hitem)
    | _ => cases hwhole
  have hprogram : ∀ items, n ≠ .program items := by
    -- a program stands inside of no other one
    rintro items rfl
    exact absurd hwf Bool.false_ne_true
  obtain ⟨ts, hts, hends⟩ :=
    (ends_statement hnode hprogram ctx s hclass).spelt (hnode n .standing ctx s)
  exact ⟨ts, Reads.scan_eq hts, hends⟩

/-- Declares a variable again, and a class under a name that is new. -/
def assigning : Node :=
  .program
    [.declare "x" (some (.number 1)) false .start,
     .declare "x" (some (.number 2)) false .start,
     .classDecl "C" none [] .start]

/-- Inside the main function. -/
def mainContext : Context :=
  { indent := 1, breakLabel := none, generator := false, cap := 10 }

/-- A second declaration of a variable, which is an assignment. -/
theorem statements_end_assigning :
    parse assigning.written = .ok assigning ∧
      FreshClass { declared := ["x"] } (.declare "x" (some (.number 2)) false .start) ∧
      ∃ ts, scan ((emit unsupported (reflectText unsupported) .standing mainContext
          (.declare "x" (some (.number 2)) false .start)).run { declared := ["x"] }).1 = some ts ∧
        (Line ((emit unsupported (reflectText unsupported) .standing mainContext
          (.declare "x" (some (.number 2)) false .start)).run { declared := ["x"] }).1 ∧
          Semicoloned ts ∨ Compound ts) := by
  have hparse : parse assigning.written = .ok assigning := rfl
  have hfresh : FreshClass { declared := ["x"] } (.declare "x" (some (.number 2)) false .start) := by
    simp [FreshClass]
  exact ⟨hparse, hfresh,
    statements_end hparse (.tail _ (.head _)) .self (.inl rfl) mainContext _ hfresh⟩

/-- Declares a class under the name of a variable, and goes on with a call. -/
def reassigning : Node :=
  .program
    [.declare "C" (some (.number 1)) false .start,
     .classDecl "C" none [] .start,
     .call (.identifier "C" .start) [] .start]

/-- Such a class is left out above for a reason: it is emitted as an assignment without a semicolon,
and the call on the next line goes on with it. -/
theorem class_assigned_goes_on :
    parse reassigning.written = .ok reassigning ∧
      (∃ ts, scan ((emit unsupported (reflectText unsupported) .standing mainContext
          (.classDecl "C" none [] .start)).run { declared := ["C"] }).1 = some ts ∧
        ¬(Semicoloned ts ∨ Compound ts)) ∧
      scan (compile (bare 10) reassigning) = some
        [.word "__main".toList, .mark '(', .word "async".toList, .mark '(', .mark ')', .mark '=',
          .mark '>', .mark '\x7b', .word "let".toList, .word "C".toList, .mark '=',
          .word "1".toList, .mark ';', .word "C".toList, .mark '=', .word "class".toList,
          .word "C".toList, .mark '\x7b', .mark '\x7d', .mark '(', .word "await".toList,
          .word "__call".toList, .mark '(', .word "C".toList, .mark ',', .mark '[', .mark ']',
          .mark ')', .mark ')', .mark ';', .mark '\x7d', .mark ')', .mark ';'] := by
  have hscan : scan ((emit unsupported (reflectText unsupported) .standing mainContext
      (.classDecl "C" none [] .start)).run { declared := ["C"] }).1 = some
        [.word "C".toList, .mark '=', .word "class".toList, .word "C".toList, .mark '\x7b',
          .mark '\x7d'] := by decide +kernel
  refine ⟨rfl, ⟨_, hscan, ?_⟩, by decide +kernel⟩
  -- its last lexeme is the closing brace, and its first one is a name
  rintro (⟨before, -, hlast⟩ | hcompound)
  · have hsemicolon := congrArg List.getLast? hlast
    rw [List.getLast?_concat] at hsemicolon
    exact absurd hsemicolon (by decide)
  · exact absurd hcompound.opens (by decide)

end BrailleScript.JavaScript
