import BrailleScript.JavaScript.Emitter
import BrailleScript.Proofs.JavaScript.Landmarks
import BrailleScript.Proofs.Node.Yields

/-!
# Sketches of programs

What of a program decides where names are declared, where a `break` goes and where values are
yielded: its declarations, breaks and yields, inside the constructs that stand around them.  `plot`
says which landmarks the emitted code has for a sketch.

## Key results

- `Node.sketch`: the sketch of a tree
- `plot`: the landmarks for a sketch
- `givesAny_sketch`: a tree yields where its sketch does
-/

namespace BrailleScript.JavaScript

/-- A part of a program. -/
inductive Sketch where
  | bind (how : Binder) (name : String) (value : List Sketch)
  | leave
  | give (value : List Sketch)
  | scope (inside : List Sketch)
  /-- The check of the iteration cap. -/
  | guard
  | loop (inside : List Sketch)
  | switch (subject branches : List Sketch)
  | function (params : List String) (inside : List Sketch)
  /-- A function that is only a value. -/
  | value (inside : List Sketch)
  /-- A literal source that is compiled in place. -/
  | literal (inside : List Sketch)
  /-- A literal source that is no program. -/
  | refused
  /-- Two parts of which the second one is emitted first. -/
  | turned (first second : List Sketch)

namespace Sketch

mutual

/-- Whether a value is yielded outside of further functions. -/
def gives : Sketch → Bool
  | .give _ => true
  | .bind _ _ inside | .scope inside | .loop inside => givesAny inside
  | .switch a b | .turned a b => givesAny a || givesAny b
  | .leave | .guard | .function .. | .value _ | .literal _ | .refused => false

/-- Does any of the sketches give a value to a collector? -/
def givesAny : List Sketch → Bool
  | [] => false
  | s :: rest => s.gives || givesAny rest

end

/-- Sketches in a row do when some of either row does. -/
theorem givesAny_append (ss ts : List Sketch) :
    givesAny (ss ++ ts) = (givesAny ss || givesAny ts) := by
  induction ss with
  | nil => rfl
  | cons s ss ih => rw [List.cons_append, givesAny, givesAny, ih, Bool.or_assoc]

end Sketch

/-! ## Trees -/

/-- What stands between the braces of a block. -/
def opened : List Sketch → List Sketch
  | [.scope inside] => inside
  | sketch => sketch

section

variable (literal : String → List Sketch)

mutual

/-- The sketch of a node, from the program alone. -/
def sketch : Node → List Sketch
  | .program items | .print items | .array items => sketchAll items
  | .declare name value constant _ =>
    [.bind (if constant then .constant else .let) name (sketchOption value)]
  | .function d => .bind .function d.displayName [] :: sketchFunction false d
  | .classDecl name _ methods _ => [.bind .class name [], .scope (sketchMethods methods)]
  | .importModule module _ => [.bind .constant module []]
  | .block items => [.scope (sketchAll items)]
  | .returnValue value => sketchOption value
  | .yieldValue value => [.give (sketch value)]
  | .breakLoop => [.leave]
  | .ifElse c t e => sketch c ++ sketch t ++ sketchOption e
  | .whileLoop c b => sketch c ++ [.loop (opened (sketch b))]
  | .loop b => [.loop (.guard :: sketch b)]
  | .forEach _ items b => sketch items ++ [.loop (sketch b)]
  | .tryCatch b name h =>
    sketch b ++ [.scope (name.toList.map (.bind .let · []) ++ sketch h)]
  | .switch s cases d => [.switch (sketch s) (sketchCases cases ++ sketchDefault d)]
  | .assign a b _ => [.turned (sketch a) (sketch b)]
  | .call a args _ => [.turned (sketch a) (sketchAll args)]
  | .binary _ a b _ | .logical _ a b | .index a b _ => sketch a ++ sketch b
  | .unary _ a _ | .await a | .member a _ _ => sketch a
  | .lambda d => sketchFunction true d
  | .primitive p args _ =>
    match p, args with
    | .reflectExec, .text source :: _ => literal source
    | _, _ => sketchAll args
  | .map pairs => sketchPairs pairs
  | .continueLoop | .halt | .identifier .. | .this _ | .super .. | .number _ | .text _ | .bool _
  | .null | .error _ => []

/-- The sketches of nodes in a row. -/
def sketchAll : List Node → List Sketch
  | [] => []
  | n :: rest => sketch n ++ sketchAll rest

/-- The sketch of an optional node. -/
def sketchOption : Option Node → List Sketch
  | none => []
  | some n => sketch n

/-- The sketch of a switch's default, which is a scope. -/
def sketchDefault : Option (List Node) → List Sketch
  | none => []
  | some items => [.scope (sketchAll items)]

/-- The sketches of a switch's cases, with their values in front of their scopes. -/
def sketchCases : List (SwitchCase Node) → List Sketch
  | [] => []
  | ⟨value, body⟩ :: rest => sketch value ++ .scope (sketchAll body) :: sketchCases rest

/-- The sketches of a map's keys and values. -/
def sketchPairs : List (Node × Node) → List Sketch
  | [] => []
  | (k, v) :: rest => sketch k ++ sketch v ++ sketchPairs rest

/-- A function, here behind an arrow or not. -/
def sketchFunction (arrow : Bool) : FunctionDef Node → List Sketch
  | ⟨_, params, body, _, _⟩ => sketchBody arrow params body

/-- The sketch of a function's body, where an arrow function may give its value at once. -/
def sketchBody (arrow : Bool) (params : List String) : FunctionBody Node → List Sketch
  | .block stmts => [.function params (sketchAll stmts)]
  | .expr value =>
    if arrow && !value.containsYield then [.value (sketch value)]
    else [.function params (sketch value)]

/-- The sketches of the methods of a class. -/
def sketchMethods : List (FunctionDef Node) → List Sketch
  | [] => []
  | d :: rest => sketchFunction false d ++ sketchMethods rest

end

end

section Gives

variable {literal : String → List Sketch}

/-- Opening the blocks of a row changes nothing about that. -/
theorem givesAny_opened (sketch : List Sketch) :
    Sketch.givesAny (opened sketch) = Sketch.givesAny sketch := by
  unfold opened
  split
  next inside => simp [Sketch.givesAny, Sketch.gives]
  next => rfl

/-- The sketch of a node yields if and only if the node does. -/
def YieldsAlike (literal : String → List Sketch) (n : Node) : Prop :=
  Sketch.givesAny (sketch literal n) = n.containsYield

/-- Sketches in a row give values when their nodes yield. -/
theorem givesAny_sketchAll {items : List Node} (h : ∀ n ∈ items, YieldsAlike literal n) :
    Sketch.givesAny (sketchAll literal items) = items.any Node.containsYield := by
  induction items with
  | nil => rfl
  | cons n rest ih =>
    rw [List.forall_mem_cons] at h
    rw [sketchAll, Sketch.givesAny_append, h.1, ih h.2, List.any_cons]

/-- So does the sketch of an optional node. -/
theorem givesAny_sketchOption {value : Option Node} (h : ∀ n ∈ value.toList, YieldsAlike literal n) :
    Sketch.givesAny (sketchOption literal value) = value.toList.any Node.containsYield := by
  cases value with
  | none => rfl
  | some n => rw [sketchOption, h n (.head _)]; simp

/-- So do those of the cases of a switch. -/
theorem givesAny_sketchCases {cases : List (SwitchCase Node)}
    (hv : ∀ n ∈ cases.map (·.value), YieldsAlike literal n)
    (hb : ∀ n ∈ cases.flatMap (·.body), YieldsAlike literal n) :
    Sketch.givesAny (sketchCases literal cases) = ((cases.map (·.value)).any Node.containsYield ||
      (cases.flatMap (·.body)).any Node.containsYield) := by
  induction cases with
  | nil => rfl
  | cons k rest ih =>
    rw [List.map_cons, List.forall_mem_cons] at hv
    rw [List.flatMap_cons, List.forall_mem_append] at hb
    rw [sketchCases, Sketch.givesAny_append, Sketch.givesAny, Sketch.gives, hv.1,
      givesAny_sketchAll hb.1, ih hv.2 hb.2, List.map_cons, List.flatMap_cons, List.any_cons,
      List.any_append]
    ac_rfl

/-- So does that of its default. -/
theorem givesAny_sketchDefault {default : Option (List Node)}
    (h : ∀ n ∈ default.getD [], YieldsAlike literal n) :
    Sketch.givesAny (sketchDefault literal default) =
      (default.getD []).any Node.containsYield := by
  cases default with
  | none => rfl
  | some items =>
    have hitems : ∀ n ∈ items, YieldsAlike literal n := h
    simp [sketchDefault, Sketch.givesAny, Sketch.gives, givesAny_sketchAll hitems]

/-- So do those of the entries of a map. -/
theorem givesAny_sketchPairs {pairs : List (Node × Node)}
    (h : ∀ n ∈ pairs.flatMap fun p => [p.1, p.2], YieldsAlike literal n) :
    Sketch.givesAny (sketchPairs literal pairs) =
      (pairs.flatMap fun p => [p.1, p.2]).any Node.containsYield := by
  induction pairs with
  | nil => rfl
  | cons e rest ih =>
    rw [List.flatMap_cons, List.forall_mem_append] at h
    rw [sketchPairs, Sketch.givesAny_append, Sketch.givesAny_append, h.1 _ (.head _),
      h.1 _ (.tail _ (.head _)), ih h.2]
    simp [Bool.or_assoc]

/-- Functions are not searched. -/
theorem givesAny_sketchFunction (arrow : Bool) (d : FunctionDef Node) :
    Sketch.givesAny (sketchFunction literal arrow d) = false := by
  obtain ⟨name, params, body, isAsync, pos⟩ := d
  cases body with
  | block stmts => rfl
  | expr value =>
    rw [sketchFunction, sketchBody]
    split <;> rfl

/-- Methods give nothing to the code around their class. -/
theorem givesAny_sketchMethods (methods : List (FunctionDef Node)) :
    Sketch.givesAny (sketchMethods literal methods) = false := by
  induction methods with
  | nil => rfl
  | cons d rest ih =>
    rw [sketchMethods, Sketch.givesAny_append, givesAny_sketchFunction, ih]
    rfl

/-- A well-formed tree yields where its sketch does. -/
theorem givesAny_sketch {n : Node} (hwf : n.wellFormed = true)
    (hl : ∀ s, Sketch.givesAny (literal s) = false) : YieldsAlike literal n := by
  induction n using Node.below_induction with
  | node n ih =>
    have hv {c : Node} (hc : c ∈ n.evaluated) : YieldsAlike literal c :=
      ih c (.of_evaluated hc) (Node.wellFormed_evaluated hwf hc).2
    have hb {c : Node} (hc : c ∈ n.executed) : YieldsAlike literal c :=
      ih c (.of_executed hc) (Node.wellFormed_executed hwf hc)
    unfold YieldsAlike
    rw [Node.containsYield_parts hwf]
    cases n with
    | program | error => exact absurd hwf (by simp [Node.wellFormed])
    | declare name value constant pos =>
      simp [sketch, Sketch.givesAny, Sketch.gives, givesAny_sketchOption fun c => hv, Node.isYield]
    | function d | lambda d =>
      simp [sketch, Sketch.givesAny, Sketch.gives, givesAny_sketchFunction, Node.isYield]
    | classDecl name parent methods pos =>
      simp [sketch, Sketch.givesAny, Sketch.gives, givesAny_sketchMethods, Node.isYield]
    | print args | array args =>
      have hargs : ∀ c ∈ args, YieldsAlike literal c := fun c => hv
      simp [sketch, givesAny_sketchAll hargs, Node.isYield]
    | block items =>
      have hitems : ∀ c ∈ items, YieldsAlike literal c := fun c => hb
      simp [sketch, Sketch.givesAny, Sketch.gives, givesAny_sketchAll hitems, Node.isYield]
    | returnValue value =>
      simp [sketch, givesAny_sketchOption fun c => hv, Node.isYield]
    | yieldValue value => rfl
    | ifElse c t e =>
      have hc : Sketch.givesAny (sketch literal c) = _ := hv (.head _)
      have ht : Sketch.givesAny (sketch literal t) = _ := hb (.head _)
      simp [sketch, Sketch.givesAny_append, hc, ht,
        givesAny_sketchOption fun c hc => hb (.tail _ hc), Node.isYield]
    | whileLoop c b | forEach var c b =>
      have hc : Sketch.givesAny (sketch literal c) = _ := hv (.head _)
      have hb : Sketch.givesAny (sketch literal b) = _ := hb (.head _)
      simp [sketch, Sketch.givesAny_append, Sketch.givesAny, Sketch.gives, givesAny_opened, hc, hb,
        Node.isYield]
    | loop b =>
      have hb : Sketch.givesAny (sketch literal b) = _ := hb (.head _)
      simp [sketch, Sketch.givesAny, Sketch.gives, hb, Node.isYield]
    | tryCatch b name h =>
      have hbody : Sketch.givesAny (sketch literal b) = _ := hb (.head _)
      have hhandler : Sketch.givesAny (sketch literal h) = _ := hb (.tail _ (.head _))
      cases name <;> simp [sketch, Sketch.givesAny_append, Sketch.givesAny, Sketch.gives, hbody,
        hhandler, Node.isYield]
    | switch subject cases default =>
      have hs : Sketch.givesAny (sketch literal subject) = _ := hv (.head _)
      simp [sketch, Sketch.givesAny, Sketch.gives, Sketch.givesAny_append, hs,
        givesAny_sketchCases (fun c hc => hv (.tail _ hc))
          (fun c hc => hb (List.mem_append_left _ hc)),
        givesAny_sketchDefault fun c hc => hb (List.mem_append_right _ hc), Node.isYield,
        Bool.or_assoc]
    | assign target value pos =>
      have hvalue : Sketch.givesAny (sketch literal value) = _ := hv (.head _)
      have htarget : Sketch.givesAny (sketch literal target) =
          target.targetParts.any Node.containsYield := by
        simp only [Node.wellFormed, Bool.and_eq_true] at hwf
        cases target with
        | identifier => rfl
        | member object name pos =>
          have ho : Sketch.givesAny (sketch literal object) = _ := hv (.tail _ (.head _))
          simp [sketch, ho]
        | index object place pos =>
          have ho : Sketch.givesAny (sketch literal object) = _ := hv (.tail _ (.head _))
          have hp : Sketch.givesAny (sketch literal place) = _ := hv (.tail _ (.tail _ (.head _)))
          simp [sketch, Sketch.givesAny_append, ho, hp]
        | _ => exact absurd hwf.1.1 Bool.false_ne_true
      simp [sketch, Sketch.givesAny, Sketch.gives, hvalue, htarget, Node.isYield, Bool.or_comm]
    | call callee args pos =>
      have hc : Sketch.givesAny (sketch literal callee) = _ := hv (.head _)
      simp [sketch, Sketch.givesAny, Sketch.gives, hc,
        givesAny_sketchAll fun c hc => hv (.tail _ hc), Node.isYield]
    | binary op a b pos | logical op a b | index a b pos =>
      have ha : Sketch.givesAny (sketch literal a) = _ := hv (.head _)
      have hb : Sketch.givesAny (sketch literal b) = _ := hv (.tail _ (.head _))
      simp [sketch, Sketch.givesAny_append, ha, hb, Node.isYield]
    | unary op a pos | await a | member a name pos =>
      have ha : Sketch.givesAny (sketch literal a) = _ := hv (.head _)
      simp [sketch, ha, Node.isYield]
    | primitive p args pos =>
      -- a literal source stands for its other arguments, which yield nothing
      have hargs : args.any Node.containsYield = false := List.any_eq_false.2 fun c hc => by
        simp [Node.containsYield_evaluated hwf hc]
      have hsketch : Sketch.givesAny (sketch literal (.primitive p args pos)) = false := by
        have hall : ∀ c ∈ args, YieldsAlike literal c := fun c => hv
        unfold sketch
        split
        · exact hl _
        · rw [givesAny_sketchAll hall, hargs]
      simp [hsketch, hargs, Node.isYield]
    | map pairs =>
      simp [sketch, givesAny_sketchPairs fun c => hv, Node.isYield]
    | importModule | breakLoop | continueLoop | halt | identifier | this | super | number | text
    | bool | null => rfl

end Gives

/-- The sketch of a literal source; literals inside it are looked into at most `fuel` deep. -/
def sketchLiteral : Nat → String → List Sketch
  | 0, _ => []
  | fuel + 1, source =>
    match parseSource false (Readable.toCells source) with
    | .ok (.program items) => [.literal (sketchAll (sketchLiteral fuel) items)]
    | .ok _ => []
    | .error _ => [.refused]

/-- The sketch of a literal source in a program. -/
def sketchText (source : String) : List Sketch :=
  sketchLiteral (source.length + 1) source

/-! ## Landmarks -/

/-- The label of a switch. -/
def labelName (n : Nat) : List Char :=
  ['_', '_', 's', 'w'] ++ (toString n).toList

/-- The name of the value that a switch looks at. -/
def subjectName (n : Nat) : List Char :=
  ['_', '_', 's'] ++ (toString n).toList

/-- What surrounds a part of a program: the label of the innermost construct that `break` leaves, if
that is a switch, and whether the function collects what it yields. -/
structure Surroundings where
  label : Option Nat
  generator : Bool

/-- What surrounds a node that is emitted. -/
def Context.surroundings (ctx : Context) : Surroundings :=
  ⟨ctx.breakLabel, ctx.generator⟩

/-- What a function has between its braces.  What it yields is collected around its statements. -/
def functionMarks (generator : Bool) (inside : List Landmark) : List Landmark :=
  if generator then
    [.binds .constant ['_', '_', 'y'], .binds .constant ['_', '_', 'r'],
      .block (.function []) inside]
  else inside

mutual

/-- The landmarks of the code for a part of a program. -/
def plot (around : Surroundings) : Sketch → Emit (List Landmark)
  | .bind how name value => do
    let m ← plotAll around value
    let isNew ← declareName (sanitize name)
    return (if isNew || how = .function then .binds how (sanitize name).toList
      else .assigns (sanitize name).toList) :: m
  | .leave => return [.jump (around.label.map labelName)]
  | .give value => do
    let m ← plotAll around value
    return if around.generator then .pushes :: m else [.fails]
  | .scope inside => do
    return [.block .plain (← withNames [] (plotAll around inside))]
  | .guard => return [.block .plain [.jump none]]
  | .loop inside => do
    return [.block .loop (← withNames [] (plotAll { around with label := none } inside))]
  | .switch subject branches => do
    let n ← newLabel
    let s ← plotAll around subject
    let b ← plotAll { around with label := some n } branches
    return [.block (.labelled (labelName n)) (.binds .constant (subjectName n) :: s ++ b)]
  | .function params inside => do
    let names := params.map sanitize
    let generator := Sketch.givesAny inside
    let m ← withNames names (plotAll ⟨none, generator⟩ inside)
    return [.block (.function (names.map (·.toList))) (functionMarks generator m)]
  | .value inside => plotAll { around with generator := false } inside
  | .literal inside => do
    return [.block (.function [])
      (← withNames [] (plotAll { around with label := none } inside))]
  | .refused => return [.fails]
  | .turned first second => do
    let m' ← plotAll around second
    let m ← plotAll around first
    return m ++ m'

/-- The landmarks of sketches in a row. -/
def plotAll (around : Surroundings) : List Sketch → Emit (List Landmark)
  | [] => return []
  | s :: rest => do
    let m ← plot around s
    let m' ← plotAll around rest
    return m ++ m'

end

/-- Two rows are plotted one after the other. -/
theorem plotAll_append (around : Surroundings) (ss ts : List Sketch) :
    plotAll around (ss ++ ts) = do
      let m ← plotAll around ss
      let m' ← plotAll around ts
      return m ++ m' := by
  induction ss with
  | nil => simp [plotAll]
  | cons s ss ih =>
    simp only [List.cons_append, plotAll, ih, bind_assoc, pure_bind, List.append_assoc]

/-- A single sketch is plotted as itself. -/
theorem plotAll_singleton (around : Surroundings) (s : Sketch) :
    plotAll around [s] = plot around s := by
  simp [plotAll]

/-- The landmarks of the code for a program. -/
def plotProgram (program : Node) : List Landmark :=
  [.block (.function [])
    ((plotAll ⟨none, false⟩ (sketchAll sketchText program.statements)).run {}).1]

end BrailleScript.JavaScript
