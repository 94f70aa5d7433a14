import BrailleScript.Backend.DryRun
import BrailleScript.Proofs.JavaScript.Mirror
import BrailleScript.Proofs.Machine.Noting
import BrailleScript.Proofs.Node.Writer

/-!
# Where emitted code collects what it yields

A function that yields values declares the array that collects them, around its statements.  In the
code of a program without reflection every value that is yielded inside a function is pushed to the
array that this function declares: no further function stands between, and no other declaration has
the name of the array.  Outside of functions there is no array, and the code fails there.

## Key results

- `reflects_sketch`: programs without reflection have no literal sources in them
- `Mirrors.delivers`: where the code of a program pushes values, and where it fails
- `generators_agree`: what is yielded in a run, and in the code
-/

namespace BrailleScript.JavaScript

open Sketch (AreValues Tidy)

/-! ## Code -/

/-- The name of the array that collects what a function yields. -/
def collectorName : List Char :=
  ['_', '_', 'y']

/-- What is yielded in the code goes where it should.  The code stands outside of functions, or in a
function that collects what it yields, or in one that does not.  A function that collects declares the
array and has its statements in a function of their own. -/
inductive Delivers : Option Bool → List Landmark → Prop
  | nil {home} : Delivers home []
  /-- A push stands in a function that declares the array. -/
  | pushes {rest} (hrest : Delivers (some true) rest) : Delivers (some true) (.pushes :: rest)
  /-- What fails stands outside of functions. -/
  | fails {rest} (hrest : Delivers none rest) : Delivers none (.fails :: rest)
  | jump {home label rest} (hrest : Delivers home rest) : Delivers home (.jump label :: rest)
  /-- No other declaration has the name of the array. -/
  | binds {home how name rest} (hname : name ≠ collectorName) (hrest : Delivers home rest) :
    Delivers home (.binds how name :: rest)
  | assigns {home name rest} (hname : name ≠ collectorName) (hrest : Delivers home rest) :
    Delivers home (.assigns name :: rest)
  | block {home kind inner rest} (hkind : ∀ params, kind ≠ .function params)
    (hinner : Delivers home inner) (hrest : Delivers home rest) :
    Delivers home (.block kind inner :: rest)
  | function {home params collects inner rest} (hinner : Delivers (some collects) inner)
    (hrest : Delivers home rest) :
    Delivers home (.block (.function params) (functionMarks collects inner) :: rest)

namespace Delivers

variable {home : Option Bool} {marks marks' : List Landmark}

/-- Marks deliver one after the other. -/
theorem append (h : Delivers home marks) (h' : Delivers home marks') :
    Delivers home (marks ++ marks') := by
  induction h with
  | nil => exact h'
  | pushes _ ih => exact .pushes (ih h')
  | fails _ ih => exact .fails (ih h')
  | jump _ ih => exact .jump (ih h')
  | binds hname _ ih => exact .binds hname (ih h')
  | assigns hname _ ih => exact .assigns hname (ih h')
  | block hkind hinner _ _ ih => exact .block hkind hinner (ih h')
  | function hinner _ _ ih => exact .function hinner (ih h')

/-- Code that yields nothing may stand anywhere. -/
theorem anywhere (h : Delivers (some false) marks) (home : Option Bool) : Delivers home marks := by
  -- the place where nothing may be yielded
  generalize hplace : some false = place at h
  induction h with
  | nil => exact .nil
  | pushes | fails => cases hplace
  | jump _ ih => exact .jump (ih hplace)
  | binds hname _ ih => exact .binds hname (ih hplace)
  | assigns hname _ ih => exact .assigns hname (ih hplace)
  | block hkind _ _ ihinner ih => exact .block hkind (ihinner hplace) (ih hplace)
  | function hinner _ _ ih => exact .function hinner (ih hplace)

end Delivers

/-! ## Programs without reflection -/

namespace Sketch

mutual

/-- Whether a literal source stands anywhere in a part of a program. -/
def reflects : Sketch → Bool
  | .literal _ | .refused => true
  | .bind _ _ inside | .give inside | .scope inside | .loop inside | .function _ inside
  | .value inside => reflectsAny inside
  | .switch a b | .turned a b => reflectsAny a || reflectsAny b
  | .leave | .guard => false

/-- Does any of the sketches run a reflected program? -/
def reflectsAny : List Sketch → Bool
  | [] => false
  | s :: rest => s.reflects || reflectsAny rest

end

/-- Sketches in a row do so when some of either row does. -/
theorem reflectsAny_append (ss ts : List Sketch) :
    reflectsAny (ss ++ ts) = (reflectsAny ss || reflectsAny ts) := by
  induction ss with
  | nil => rfl
  | cons s ss ih => rw [List.cons_append, reflectsAny, reflectsAny, ih, Bool.or_assoc]

/-- A row does not when neither its first sketch nor any other does. -/
theorem reflectsAny_cons {s : Sketch} {ss : List Sketch} :
    reflectsAny (s :: ss) = false ↔ s.reflects = false ∧ reflectsAny ss = false := by
  rw [reflectsAny, Bool.or_eq_false_iff]

/-- Opening the blocks of a row changes nothing about it. -/
theorem reflectsAny_opened (ss : List Sketch) : reflectsAny (opened ss) = reflectsAny ss := by
  unfold opened
  split
  next inside => simp [reflectsAny, reflects]
  next => rfl

/-- The parts of a value yield nothing outside of functions. -/
theorem AreValues.givesAny {ss : List Sketch} (h : AreValues ss) (htidy : Tidy ss) :
    givesAny ss = false := by
  -- the parts of a value are values, functions and literals
  induction htidy with
  | nil => rfl
  | bind | leave | give | scope | loop | guarded | switch =>
    exact absurd (h _ (.head _)) Bool.false_ne_true
  | function _ _ _ ih | value _ _ _ _ ih | literal _ _ _ ih | refused _ ih =>
    rw [Sketch.givesAny, gives, ih (List.forall_mem_cons.1 h).2]
    rfl
  | turned hfirst _ hsecond _ _ ihfirst ihsecond ih =>
    rw [Sketch.givesAny, gives, ihfirst hfirst, ihsecond hsecond, ih (List.forall_mem_cons.1 h).2]
    rfl

end Sketch

section Trees

variable {literal : String → List Sketch}

/-- No literal source stands in the sketch of the node. -/
abbrev Plain (literal : String → List Sketch) (n : Node) : Prop :=
  Sketch.reflectsAny (sketch literal n) = false

/-- Nodes without reflected programs have sketches without any. -/
theorem plain_sketchAll {items : List Node} (h : ∀ n ∈ items, Plain literal n) :
    Sketch.reflectsAny (sketchAll literal items) = false := by
  induction items with
  | nil => rfl
  | cons n rest ih =>
    rw [List.forall_mem_cons] at h
    rw [sketchAll, Sketch.reflectsAny_append, h.1, ih h.2]
    rfl

/-- So has an optional node. -/
theorem plain_sketchOption {value : Option Node} (h : ∀ n ∈ value.toList, Plain literal n) :
    Sketch.reflectsAny (sketchOption literal value) = false := by
  cases value with
  | none => rfl
  | some n => exact h n (.head _)

/-- So have the cases of a switch. -/
theorem plain_sketchCases {cases : List (SwitchCase Node)}
    (hv : ∀ n ∈ cases.map (·.value), Plain literal n)
    (hb : ∀ n ∈ cases.flatMap (·.body), Plain literal n) :
    Sketch.reflectsAny (sketchCases literal cases) = false := by
  induction cases with
  | nil => rfl
  | cons k rest ih =>
    rw [List.map_cons, List.forall_mem_cons] at hv
    rw [List.flatMap_cons, List.forall_mem_append] at hb
    rw [sketchCases, Sketch.reflectsAny_append, Sketch.reflectsAny, Sketch.reflects, hv.1,
      plain_sketchAll hb.1, ih hv.2 hb.2]
    rfl

/-- So has its default. -/
theorem plain_sketchDefault {default : Option (List Node)}
    (h : ∀ n ∈ default.getD [], Plain literal n) :
    Sketch.reflectsAny (sketchDefault literal default) = false := by
  cases default with
  | none => rfl
  | some items =>
    have hitems : ∀ n ∈ items, Plain literal n := h
    simp [sketchDefault, Sketch.reflectsAny, Sketch.reflects, plain_sketchAll hitems]

/-- So have the entries of a map. -/
theorem plain_sketchPairs {pairs : List (Node × Node)}
    (h : ∀ n ∈ pairs.flatMap fun p => [p.1, p.2], Plain literal n) :
    Sketch.reflectsAny (sketchPairs literal pairs) = false := by
  induction pairs with
  | nil => rfl
  | cons e rest ih =>
    rw [List.flatMap_cons, List.forall_mem_append] at h
    rw [sketchPairs, Sketch.reflectsAny_append, Sketch.reflectsAny_append, h.1 _ (.head _),
      h.1 _ (.tail _ (.head _)), ih h.2]
    rfl

/-- So has a function definition. -/
theorem plain_sketchFunction {d : FunctionDef Node} (h : ∀ n ∈ d.body.nodes, Plain literal n)
    (arrow : Bool) : Sketch.reflectsAny (sketchFunction literal arrow d) = false := by
  obtain ⟨name, params, body, isAsync, pos⟩ := d
  -- a body is a row of statements, or an expression to return
  cases body with
  | block stmts =>
    have hstmts : ∀ n ∈ stmts, Plain literal n := h
    simp [sketchFunction, sketchBody, Sketch.reflectsAny, Sketch.reflects, plain_sketchAll hstmts]
  | expr value =>
    have hvalue : Sketch.reflectsAny (sketch literal value) = false := h value (.head _)
    rw [sketchFunction, sketchBody]
    split <;> simp [Sketch.reflectsAny, Sketch.reflects, hvalue]

/-- So have the methods of a class. -/
theorem plain_sketchMethods {methods : List (FunctionDef Node)}
    (h : ∀ d ∈ methods, ∀ n ∈ d.body.nodes, Plain literal n) :
    Sketch.reflectsAny (sketchMethods literal methods) = false := by
  induction methods with
  | nil => rfl
  | cons d rest ih =>
    rw [List.forall_mem_cons] at h
    rw [sketchMethods, Sketch.reflectsAny_append, plain_sketchFunction h.1, ih h.2]
    rfl

/-- A tree without reflection has no literal sources in its sketch. -/
theorem reflects_sketch {n : Node} (hfree : n.Unreflecting) : Plain literal n := by
  -- each form of node is sketched by the nodes below it, which have no reflection either
  induction n using Node.below_induction with
  | node n ih =>
    have hbelow {c : Node} (hc : c.Below n) : Plain literal c := ih c hc (hfree.part hc.occurs)
    have hchild {c : Node} (hc : c ∈ n.children) : Plain literal c := hbelow (.child hc)
    have hv {c : Node} (hc : c ∈ n.evaluated) : Plain literal c := hbelow (.of_evaluated hc)
    have hb {c : Node} (hc : c ∈ n.executed) : Plain literal c := hbelow (.of_executed hc)
    have hd {d : FunctionDef Node} (hd : d ∈ n.definitions) : ∀ c ∈ d.body.nodes, Plain literal c :=
      fun _ hc => hbelow (.of_definition hd hc)
    unfold Plain
    cases n with
    | program items =>
      rw [sketch]
      exact plain_sketchAll fun c => hchild
    | declare name value constant pos =>
      simp [sketch, Sketch.reflectsAny, Sketch.reflects, plain_sketchOption fun c => hv]
    | returnValue value =>
      rw [sketch]
      exact plain_sketchOption fun c => hv
    | function d =>
      simp [sketch, Sketch.reflectsAny, Sketch.reflects, plain_sketchFunction (hd (.head _))]
    | lambda d => simp [sketch, plain_sketchFunction (hd (.head _))]
    | classDecl name parent methods pos =>
      have hmethods : ∀ d ∈ methods, ∀ c ∈ d.body.nodes, Plain literal c := fun d => hd
      simp [sketch, Sketch.reflectsAny, Sketch.reflects, plain_sketchMethods hmethods]
    | print args | array args =>
      rw [sketch]
      exact plain_sketchAll fun c => hv
    | block items =>
      have hitems : ∀ c ∈ items, Plain literal c := fun c => hb
      simp [sketch, Sketch.reflectsAny, Sketch.reflects, plain_sketchAll hitems]
    | yieldValue value =>
      have hvalue : Plain literal value := hv (.head _)
      simp [sketch, Sketch.reflectsAny, Sketch.reflects, hvalue]
    | ifElse c t e =>
      have hc : Plain literal c := hv (.head _)
      have ht : Plain literal t := hb (.head _)
      simp [sketch, Sketch.reflectsAny_append, hc, ht,
        plain_sketchOption fun c hc => hb (.tail _ hc)]
    | whileLoop c b | forEach var c b =>
      have hc : Plain literal c := hv (.head _)
      have hbody : Plain literal b := hb (.head _)
      simp [sketch, Sketch.reflectsAny_append, Sketch.reflectsAny, Sketch.reflects,
        Sketch.reflectsAny_opened, hc, hbody]
    | loop b =>
      have hbody : Plain literal b := hb (.head _)
      simp [sketch, Sketch.reflectsAny, Sketch.reflects, hbody]
    | tryCatch b name h =>
      have hbody : Plain literal b := hb (.head _)
      have hhandler : Plain literal h := hb (.tail _ (.head _))
      cases name <;> simp [sketch, Sketch.reflectsAny_append, Sketch.reflectsAny, Sketch.reflects,
        hbody, hhandler]
    | switch subject cases default =>
      have hsubject : Plain literal subject := hv (.head _)
      have hcases := plain_sketchCases (fun c hc => hv (.tail _ hc))
        fun c hc => hb (List.mem_append_left _ hc)
      have hdefault := plain_sketchDefault fun c hc => hb (List.mem_append_right _ hc)
      simp [sketch, Sketch.reflectsAny, Sketch.reflects, Sketch.reflectsAny_append, hsubject, hcases,
        hdefault]
    | assign target value pos =>
      have htarget : Plain literal target := hchild (.head _)
      have hvalue : Plain literal value := hv (.head _)
      simp [sketch, Sketch.reflectsAny, Sketch.reflects, htarget, hvalue]
    | call callee args pos =>
      have hcallee : Plain literal callee := hv (.head _)
      simp [sketch, Sketch.reflectsAny, Sketch.reflects, hcallee,
        plain_sketchAll fun c hc => hv (.tail _ hc)]
    | binary op a b pos | logical op a b | index a b pos =>
      have ha : Plain literal a := hv (.head _)
      have hb : Plain literal b := hv (.tail _ (.head _))
      simp [sketch, Sketch.reflectsAny_append, ha, hb]
    | unary op a pos | await a | member a name pos =>
      rw [sketch]
      exact hv (.head _)
    | primitive p args pos =>
      have hargs : ∀ c ∈ args, Plain literal c := fun c => hv
      -- the one primitive whose sketch may hold a literal is excluded by the assumption
      have hother : p ≠ .reflectExec := by
        rintro rfl
        exact absurd (hfree _ .self) (by simp [Node.isReflection])
      unfold sketch
      split
      · exact absurd rfl hother
      · exact plain_sketchAll hargs
    | map pairs =>
      rw [sketch]
      exact plain_sketchPairs fun c => hv
    | importModule | breakLoop | continueLoop | halt | identifier | this | super | number | text
    | bool | null | error => rfl

end Trees

/-! ## Where values go -/

/-- No name of a program is written as the collector's. -/
theorem sanitize_ne_collectorName (name : String) : (sanitize name).toList ≠ collectorName := by
  intro h
  exact (isUsable_sanitize name).notInternal (h ▸ ⟨['y'], rfl⟩)

/-- Nor is the name of a switch's subject. -/
theorem subjectName_ne_collectorName (n : Nat) : subjectName n ≠ collectorName := by
  simp [subjectName, collectorName]

/-- The parts stand where the code stands, and in a function they yield only if it collects. -/
def Fits : Option Bool → Surroundings → List Sketch → Prop
  | none, around, _ => around.generator = false
  | some collects, around, ss =>
    around.generator = collects ∧ (Sketch.givesAny ss = true → collects = true)

/-- What fits as a row fits without its first sketch. -/
theorem Fits.tail {home : Option Bool} {around : Surroundings} {s : Sketch} {rest : List Sketch}
    (h : Fits home around (s :: rest)) : Fits home around rest := by
  cases home with
  | none => exact h
  | some collects => exact ⟨h.1, fun hgives => h.2 (by simp [Sketch.givesAny, hgives])⟩

/-- Parts that yield no more stand at the same place, whatever label is around them. -/
theorem Fits.inside {home : Option Bool} {around around' : Surroundings} {ss ts : List Sketch}
    (h : Fits home around ss) (hgenerator : around'.generator = around.generator)
    (hgives : Sketch.givesAny ts = true → Sketch.givesAny ss = true) : Fits home around' ts := by
  cases home with
  | none => exact hgenerator.trans h
  | some collects => exact ⟨hgenerator.trans h.1, fun ht => h.2 (hgives ht)⟩

/-- What is yielded in the code of a part of a program goes where it should. -/
theorem Mirrors.delivers {around : Surroundings} {ss : List Sketch} {marks : List Landmark}
    (h : Mirrors around ss marks) (htidy : Tidy ss) (hplain : Sketch.reflectsAny ss = false)
    {home : Option Bool} (hfits : Fits home around ss) : Delivers home marks := by
  induction htidy generalizing around marks home with
  | nil =>
    cases h
    exact .nil
  | bind _ _ _ ihvalue ih =>
    obtain ⟨hhead, hplain⟩ := Sketch.reflectsAny_cons.1 hplain
    cases h with
    | bind hmark hvalue hrest =>
      have hrest := ih hrest hplain hfits.tail
      have hvalue := ihvalue hvalue hhead (hfits.inside rfl fun hgives => by
        simp [Sketch.givesAny, Sketch.gives, hgives])
      rcases hmark with rfl | rfl
      · exact .binds (sanitize_ne_collectorName _) (hvalue.append hrest)
      · exact .assigns (sanitize_ne_collectorName _) (hvalue.append hrest)
  | leave _ ih =>
    cases h with
    | leave hrest => exact .jump (ih hrest hplain hfits.tail)
  | give _ _ _ ihvalue ih =>
    obtain ⟨hhead, hplain⟩ := Sketch.reflectsAny_cons.1 hplain
    cases h with
    | give hvalue hrest =>
      have hrest := ih hrest hplain hfits.tail
      cases home with
      | none =>
        rw [show around.generator = false from hfits]
        exact .fails hrest
      | some collects =>
        -- a function in which a value is yielded collects it
        obtain rfl : collects = true := hfits.2 rfl
        have hvalue : Delivers (some true) _ := ihvalue hvalue hhead ⟨hfits.1, fun _ => rfl⟩
        rw [hfits.1]
        exact .pushes (hvalue.append hrest)
  | scope _ _ ihinside ih =>
    obtain ⟨hhead, hplain⟩ := Sketch.reflectsAny_cons.1 hplain
    cases h with
    | scope hinside _ hrest =>
      refine .block (by simp) (ihinside hinside hhead (hfits.inside rfl fun hgives => ?_))
        (ih hrest hplain hfits.tail)
      simp [Sketch.givesAny, Sketch.gives, hgives]
  | loop _ _ ihinside ih =>
    obtain ⟨hhead, hplain⟩ := Sketch.reflectsAny_cons.1 hplain
    cases h with
    | loop hinside _ hrest =>
      refine .block (by simp) (ihinside hinside hhead (hfits.inside rfl fun hgives => ?_))
        (ih hrest hplain hfits.tail)
      simp [Sketch.givesAny, Sketch.gives, hgives]
  | guarded _ _ ihinside ih =>
    obtain ⟨hhead, hplain⟩ := Sketch.reflectsAny_cons.1 hplain
    cases h with
    | loop hinside _ hrest =>
      cases hinside with
      | guard hinside =>
        have hinside := ihinside hinside hhead (hfits.inside rfl fun hgives => by
          simp [Sketch.givesAny, Sketch.gives, hgives])
        exact .block (by simp) (.block (by simp) (.jump .nil) hinside) (ih hrest hplain hfits.tail)
  | switch _ _ _ _ _ ihsubject ihbranches ih =>
    obtain ⟨hhead, hplain⟩ := Sketch.reflectsAny_cons.1 hplain
    obtain ⟨hfirst', hsecond'⟩ := Bool.or_eq_false_iff.1 hhead
    cases h with
    | switch n hsubject hbranches _ hrest =>
      have hsubject := ihsubject hsubject hfirst' (hfits.inside rfl fun hgives => by
        simp [Sketch.givesAny, Sketch.gives, hgives])
      have hbranches := ihbranches hbranches hsecond' (hfits.inside rfl fun hgives => by
        simp [Sketch.givesAny, Sketch.gives, hgives])
      exact .block (by simp) (.binds (subjectName_ne_collectorName n) (hsubject.append hbranches))
        (ih hrest hplain hfits.tail)
  | function _ _ ihinside ih =>
    obtain ⟨hhead, hplain⟩ := Sketch.reflectsAny_cons.1 hplain
    cases h with
    | function hinside _ hrest =>
      -- whether the function collects is decided by what it yields
      have hinside : Delivers (some _) _ := ihinside hinside hhead ⟨rfl, id⟩
      exact .function hinside (ih hrest hplain hfits.tail)
  | value hvalue hinside' _ ihinside ih =>
    obtain ⟨hhead, hplain⟩ := Sketch.reflectsAny_cons.1 hplain
    cases h with
    | value hinside _ hrest =>
      have hnone := hvalue.givesAny hinside'
      have hinside : Delivers (some false) _ := ihinside hinside hhead ⟨rfl, by simp [hnone]⟩
      exact (hinside.anywhere home).append (ih hrest hplain hfits.tail)
  | literal | refused => cases hplain
  | turned _ _ _ _ _ ihfirst ihsecond ih =>
    obtain ⟨hhead, hplain⟩ := Sketch.reflectsAny_cons.1 hplain
    obtain ⟨hfirst', hsecond'⟩ := Bool.or_eq_false_iff.1 hhead
    cases h with
    | turned hfirst hsecond hrest =>
      have hfirst := ihfirst hfirst hfirst' (hfits.inside rfl fun hgives => by
        simp [Sketch.givesAny, Sketch.gives, hgives])
      have hsecond := ihsecond hsecond hsecond' (hfits.inside rfl fun hgives => by
        simp [Sketch.givesAny, Sketch.gives, hgives])
      exact (hfirst.append hsecond).append (ih hrest hplain hfits.tail)

/-! ## Programs -/

/-- What is yielded when a program without reflection runs, and in its code.  It does not matter what
yielding a value would do inside a call that does not collect it: no value is ever yielded there, and
what fails stands outside of functions.  Each call gives a new array of the values that the statements
of its own body have yielded, in order, or the value of the body if there are none; it returns if the
body ends without an error, unless the call is refused or has to be recorded.  In the code each value
that is yielded inside a function is pushed to the array that this function declares. -/
theorem generators_agree {tokens : List Token} {program : Node} (hparse : parse tokens = .ok program)
    (hfree : program.Unreflecting) :
    (∀ yielding : BrailleScript.Value → Run Unit, (∀ v m, m.Collects → yielding v m = Run.yieldValue v m) →
      ∀ bound m, m.Only FunctionDef.Unreflecting → m.frames = [] →
        Yielding.run yielding bound program m =
          Run.sequence (exec bound) .null program.statements m) ∧
    (∀ bound m, m.Only FunctionDef.Unreflecting → m.frames = [] →
      Noted.run bound program m = Run.sequence (exec bound) .null program.statements m) ∧
    (∀ bound callee args m, m.Only FunctionDef.Unreflecting →
      callee.Only FunctionDef.Unreflecting → (∀ v ∈ args, v.Only FunctionDef.Unreflecting) →
        Noted.call bound callee args m = call bound callee args m) ∧
    (∀ bound id f args m, m.Only FunctionDef.Unreflecting →
      f.Only FunctionDef.Unreflecting → (∀ v ∈ args, v.Only FunctionDef.Unreflecting) →
        (∀ v last, call (bound + 1) (.function id f) args m = .ok v last →
          ∃ value own ended, Noted.body bound f args (Noted.counted m) = .ok (value, own) ended ∧
            Noted.Gives ended value own v last) ∧
        (m.frames.length < m.options.maxCallDepth → m.options.traceDeterministic = false →
          ∀ result ended, Noted.body bound f args (Noted.counted m) = .ok result ended →
            ∃ v last, call (bound + 1) (.function id f) args m = .ok v last)) ∧
    ∀ cap, ∃ marks,
      (scan (compile (bare cap) program)).bind outline = some [.block (.function []) marks] ∧
        Mirrors ⟨none, false⟩ (sketchAll sketchText program.statements) marks ∧
        Delivers none marks := by
  have hprogram := parse_isProgram hparse
  refine ⟨fun yielding hyielding bound m honly hframes => ?_, fun bound m honly hframes => ?_,
    fun bound callee args m honly hcallee hargs => ?_, fun bound id f args m honly hf hargs => ?_,
    fun cap => ?_⟩
  · exact Yielding.run_eq hyielding hprogram hfree bound honly hframes
  · exact Noted.run_eq hprogram hfree bound honly hframes
  · exact Noted.call_eq bound honly hcallee hargs
  · -- the call is the one that gives what its body notes
    have hcall : Noted.call (bound + 1) (.function id f) args m = call (bound + 1) (.function id f) args m :=
      Noted.call_eq (bound + 1) honly hf hargs
    rw [← hcall]
    exact ⟨fun _ _ => Noted.gives_of_call, fun hdepth htrace _ _ => Noted.exists_call hdepth htrace⟩
  · obtain ⟨_, houtline, ⟨marks, rfl, hmirrors, -⟩, -⟩ := mirrors_compile hprogram cap
    refine ⟨marks, houtline, hmirrors, hmirrors.delivers (tidy_program hprogram) ?_ rfl⟩
    cases program with
    | program items =>
      exact plain_sketchAll fun n hn => reflects_sketch (hfree.part (.child hn))
    | _ => cases hprogram

/-- A function that yields, with another one inside it that yields too. -/
def generatorDef : FunctionDef Node :=
  ⟨some "f", [], .block
    [.yieldValue (.text "a"),
     .function ⟨some "g", [], .block [.yieldValue (.text "b")], false, .start⟩,
     .yieldValue (.call (.identifier "g" .start) [] .start)], false, .start⟩

/-- The function is declared and called. -/
def generating : Node :=
  .program [.function generatorDef, .print [.call (.identifier "f" .start) [] .start]]

/-- A machine that has run nothing yet. -/
def blankMachine : Machine :=
  .fresh {} (.start "sample" {}) (.dryRun "small" 64) fun n => ⟨n⟩

/-- A body that ends with null and has yielded a text and the array of another one, the only array
that was made. -/
def endsWithTwo : Ending (BrailleScript.Value × List BrailleScript.Value) → Bool
  | .ok (.null, [.text "a", .array 0]) ended =>
    ended.heap.arrays.size == 1 &&
      match (ended.heap.items 0).toList with
      | [.text "b"] => true
      | _ => false
  | _ => false

/-- What the body has yielded when it ends so. -/
theorem ending_of_endsWithTwo {e : Ending (BrailleScript.Value × List BrailleScript.Value)}
    (h : endsWithTwo e = true) :
    ∃ ended, e = .ok (.null, [.text "a", .array 0]) ended ∧ ended.heap.arrays.size = 1 ∧
      (ended.heap.items 0).toList = [.text "b"] := by
  unfold endsWithTwo at h
  split at h
  next ended =>
    simp only [Bool.and_eq_true, beq_iff_eq] at h
    obtain ⟨hsize, hitems⟩ := h
    -- the list has two items, and those are the ones
    split at hitems
    next heq => exact ⟨ended, rfl, hsize, heq⟩
    next => cases hitems
  next => cases h

/-- The outer function gives the array of its two values; the second one is the array that the inner
function gives. -/
theorem generators_agree_generating :
    parse generating.written = .ok generating ∧ generating.Unreflecting ∧
      (∀ bound, Noted.run bound generating blankMachine =
        Run.sequence (exec bound) .null generating.statements blankMachine) ∧
      (∃ ref inner last,
        call 9 (.function 0 ⟨generatorDef, blankMachine.scope, none⟩) [] blankMachine =
            .ok (.array ref) last ∧
          (last.heap.items ref).toList = [.text "a", .array inner] ∧
          (last.heap.items inner).toList = [.text "b"]) ∧
      ∃ marks, (scan (compile (bare 10) generating)).bind outline = some [.block (.function []) marks] ∧
        Mirrors ⟨none, false⟩ (sketchAll sketchText generating.statements) marks ∧
        Delivers none marks := by
  have hparse : parse generating.written = .ok generating := rfl
  have hname (s : String) : (Node.identifier s .start).Unreflecting := .of_children rfl trivial
  have htext (s : String) : (Node.text s).Unreflecting := .of_children rfl trivial
  have hcall (s : String) : (Node.call (.identifier s .start) [] .start).Unreflecting :=
    .of_children rfl (hname s)
  have hdef : (Node.function generatorDef).Unreflecting :=
    .of_children rfl
      ⟨.of_children rfl (htext "a"), .of_children rfl (.of_children rfl (htext "b")),
       .of_children rfl (hcall "g")⟩
  have hfree : generating.Unreflecting :=
    .of_children rfl ⟨hdef, .of_children rfl (hcall "f")⟩
  obtain ⟨-, hrun, -, hgives, hcode⟩ := generators_agree hparse hfree
  refine ⟨hparse, hfree, fun bound => hrun bound _ (.fresh _ _ _ _) rfl, ?_, hcode 10⟩
  -- the body yields two values, the second of them made while it ran
  obtain ⟨ended, hbody, hsize, hinner⟩ := ending_of_endsWithTwo
    (e := Noted.body 8 ⟨generatorDef, blankMachine.scope, none⟩ [] (Noted.counted blankMachine))
    (by decide +kernel)
  obtain ⟨hresult, hreturns⟩ := hgives 8 0 ⟨generatorDef, blankMachine.scope, none⟩ [] blankMachine
    (.fresh _ _ _ _) ⟨⟨rfl, fun n hn => hdef.part (.child hn)⟩, nofun⟩ nofun
  obtain ⟨v, last, hcall⟩ := hreturns (by decide) rfl _ _ hbody
  obtain ⟨value, own, ended', hbody', hgiven⟩ := hresult v last hcall
  rw [hbody] at hbody'
  cases hbody'
  obtain ⟨ref, rfl, -, hitems, hothers⟩ := hgiven.of_yielded (List.cons_ne_nil _ _)
  refine ⟨ref, 0, last, hcall, hitems, ?_⟩
  rw [hothers 0 (by omega)]
  exact hinner

end BrailleScript.JavaScript
