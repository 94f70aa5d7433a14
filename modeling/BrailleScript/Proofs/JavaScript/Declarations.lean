import BrailleScript.Proofs.JavaScript.Mirror
import BrailleScript.Proofs.Node.Writer

/-!
# Emitted blocks declare a name once

A name that a block of emitted code declares by `let`, `const` or `class` is declared there only
once, and is no parameter, as long as no function is declared under a name that its scope has declared
otherwise before.  The next declarations of a name are emitted as assignments; only a function is
declared each time.

## Key results

- `distinct_resolve`: the declarations of one scope
- `Mirrors.distinct`: every block of code that mirrors a program
- `blocks_never_redeclare`: programs
-/

namespace BrailleScript.JavaScript

open Sketch (declares)

/-- The names that are declared between some braces from the start. -/
def Kind.params : Kind → List (List Char)
  | .function params => params
  | .plain | .loop | .labelled _ => []

/-- A name that is declared by `let`, `const` or `class` is none of those declared from the start and
is declared only once. -/
structure Distinct (params : List (List Char)) (marks : List Landmark) : Prop where
  notParam : ∀ how name, .binds how name ∈ marks → how ≠ .function → name ∉ params
  once : marks.Pairwise fun a b => ∀ how how' name,
    a = .binds how name → b = .binds how' name → how = .function ∧ how' = .function

/-- A function of the scope has a parameter's name, or one under which the scope declares a function
first. -/
def FunctionsFirst (params : List String) (ds : List (Binder × String)) : Prop :=
  ∀ d ∈ ds, d.1 = .function → d.2 ∈ params ∨ ds.find? (·.2 == d.2) = some d

instance (params : List String) (ds : List (Binder × String)) :
    Decidable (FunctionsFirst params ds) :=
  inferInstanceAs (Decidable (∀ d ∈ ds, _))

namespace Sketch

mutual

/-- The scopes inside a part of a program, with the names declared there from the start. -/
def scopes : Sketch → List (List String × List Sketch)
  | .scope inside | .loop inside | .literal inside => ([], inside) :: scopesAll inside
  | .function params inside => (params, inside) :: scopesAll inside
  | .bind _ _ inside | .give inside | .value inside => scopesAll inside
  | .switch a b | .turned a b => scopesAll a ++ scopesAll b
  | .leave | .guard | .refused => []

/-- The scopes of sketches in a row. -/
def scopesAll : List Sketch → List (List String × List Sketch)
  | [] => []
  | s :: rest => s.scopes ++ scopesAll rest

end

end Sketch

/-- The scopes of a program, those of its literal sources included. -/
def scopesOf (program : Node) : List (List String × List Sketch) :=
  let statements := sketchAll sketchText program.statements
  ([], statements) :: Sketch.scopesAll statements

/-! ## One scope -/

/-- Names that are written alike are the same name. -/
theorem sanitize_toList_inj {a b : String} (h : (sanitize a).toList = (sanitize b).toList) :
    a = b := by
  rw [← unsanitize_sanitize a, String.toList_inj.1 h, unsanitize_sanitize]

/-- What is declared and not assigned to is new, if it is no function. -/
theorem mem_resolve {seen : List String} {ds : List (Binder × String)} {how : Binder}
    {name : List Char} (h : .binds how name ∈ resolve seen ds) :
    ∃ s, (how, s) ∈ ds ∧ name = (sanitize s).toList ∧ (how ≠ .function → s ∉ seen) := by
  induction ds generalizing seen with
  | nil => cases h
  | cons d rest ih =>
    obtain ⟨how', s⟩ := d
    rw [resolve, List.mem_cons] at h
    -- the mark is that of the first name or of one behind it, for which more names are seen
    rcases h with h | h
    · split at h
      next hnew =>
        cases h
        exact ⟨s, .head _, rfl, hnew.resolve_left⟩
      next => cases h
    · obtain ⟨s', hs', hname, hseen⟩ := ih h
      exact ⟨s', .tail _ hs', hname, fun hne hmem => hseen hne (.tail _ hmem)⟩

/-- Behind its first declaration, a name is one of those declared already. -/
theorem FunctionsFirst.tail {seen : List String} {how : Binder} {name : String}
    {rest : List (Binder × String)} (h : FunctionsFirst seen ((how, name) :: rest)) :
    FunctionsFirst (name :: seen) rest := by
  intro d hd hfunction
  rcases h d (.tail _ hd) hfunction with hseen | hfirst
  · exact .inl (.tail _ hseen)
  · -- the name that is passed over is declared from here on
    by_cases hname : name = d.2
    · exact .inl (hname ▸ .head _)
    · rw [List.find?_cons_of_neg (by simpa using hname)] at hfirst
      exact .inr hfirst

/-- The declarations of a scope. -/
theorem distinct_resolve {seen : List String} {ds : List (Binder × String)}
    (h : FunctionsFirst seen ds) :
    Distinct (seen.map fun p => (sanitize p).toList) (resolve seen ds) := by
  constructor
  case notParam =>
    intro how name hmem hhow hparam
    obtain ⟨s, -, rfl, hnew⟩ := mem_resolve hmem
    obtain ⟨p, hp, heq⟩ := List.mem_map.1 hparam
    exact hnew hhow (sanitize_toList_inj heq ▸ hp)
  case once =>
    induction ds generalizing seen with
    | nil => exact .nil
    | cons d rest ih =>
      obtain ⟨how, s⟩ := d
      refine .cons (fun b hb how₁ how₂ name ha hb' => ?_) (ih h.tail)
      subst hb'
      obtain ⟨s', hs', rfl, hnew'⟩ := mem_resolve hb
      split at ha
      next hnew =>
        obtain ⟨rfl, hname⟩ := Landmark.binds.inj ha
        obtain rfl := sanitize_toList_inj hname
        -- only a function is declared again, so the first one is a function too
        have hsecond : how₂ = .function := by
          by_contra hne
          exact hnew' hne (.head _)
        subst hsecond
        refine ⟨?_, rfl⟩
        rcases h _ (.tail _ hs') rfl with hseen | hfirst
        · exact hnew.resolve_right (not_not_intro hseen)
        · rw [List.find?_cons_of_pos (by simp)] at hfirst
          exact congrArg Prod.fst (Option.some.inj hfirst)
      next => cases ha

namespace Distinct

variable {params : List (List Char)} {marks : List Landmark}

/-- Only declarations matter. -/
theorem of_declarations (h : Distinct params (declarations marks)) : Distinct params marks := by
  constructor
  case notParam => exact fun how name hmem => h.notParam how name (List.mem_filter.2 ⟨hmem, rfl⟩)
  case once =>
    refine (List.pairwise_filter.1 h.once).imp fun hpair how how' name ha hb => ?_
    exact hpair (ha ▸ rfl) (hb ▸ rfl) how how' name ha hb

/-- Where nothing is declared, the declared names are distinct. -/
theorem of_eq_nil (h : declarations marks = []) : Distinct params marks :=
  of_declarations (h ▸ ⟨nofun, .nil⟩)

/-- Without the parameters they are distinct too. -/
theorem weaken (h : Distinct params marks) : Distinct [] marks :=
  ⟨fun _ _ _ _ => List.not_mem_nil, h.once⟩

end Distinct

/-! ## Every scope -/

/-- Every scope inside some parts declares its functions first. -/
abbrev AllFirst (ss : List Sketch) : Prop :=
  ∀ scope ∈ Sketch.scopesAll ss, FunctionsFirst scope.1 (scope.2.flatMap declares)

/-- No block declares a name again. -/
abbrev AllDistinct (marks : List Landmark) : Prop :=
  EveryBlock (fun kind inner => Distinct kind.params inner) marks

/-- What a function declares around its statements has names that no parameter has. -/
theorem distinct_functionMarks {params : List String} {m : List Landmark}
    (h : Distinct (params.map fun p => (sanitize p).toList) m) (hinner : AllDistinct m)
    (generator : Bool) :
    Distinct (params.map fun p => (sanitize p).toList) (functionMarks generator m) ∧
      AllDistinct (functionMarks generator m) := by
  cases generator with
  | false => exact ⟨h, hinner⟩
  | true =>
    -- the collector and its array have names that no sanitized name has
    have hinternal {cs : List Char} (hcs : ['_', '_'] <+: cs) :
        cs ∉ params.map fun p => (sanitize p).toList := fun hmem => by
      obtain ⟨p, -, rfl⟩ := List.mem_map.1 hmem
      exact (isUsable_sanitize p).notInternal hcs
    refine ⟨⟨fun how name hmem _ => ?_, ?_⟩,
      .other (by simp) (.other (by simp) (.block h.weaken hinner .nil))⟩
    · simp only [functionMarks, if_true, List.mem_cons, List.not_mem_nil, or_false,
        Landmark.binds.injEq, reduceCtorEq] at hmem
      rcases hmem with ⟨-, rfl⟩ | ⟨-, rfl⟩ <;> exact hinternal ⟨_, rfl⟩
    · -- the two marks that collect declare different names, and the block declares none around
      -- itself
      refine .cons (fun b hb how how' name hfirst hsecond => ?_)
        (.cons (fun b hb how how' name _ hsecond => ?_) (.cons (by simp) .nil))
      · subst hsecond
        cases hfirst
        simp at hb
      · subst hsecond
        simp at hb

/-- Code that mirrors its sketch declares distinct names in every block, when its functions come
first. -/
theorem Mirrors.distinct {around : Surroundings} {ss : List Sketch} {marks : List Landmark}
    (h : Mirrors around ss marks) (hfirst : AllFirst ss) : AllDistinct marks := by
  induction h with
  | nil => exact .nil
  | @bind _ how name value rest m m' mark hmark _ _ ihvalue ih =>
    rw [AllFirst, Sketch.scopesAll, List.forall_mem_append] at hfirst
    have hother : ∀ kind inner, mark ≠ .block kind inner := by
      rcases hmark with rfl | rfl <;> nofun
    exact .append (.other hother (ihvalue hfirst.1)) (ih hfirst.2)
  | leave _ ih => exact .other nofun (ih hfirst)
  | @give around _ _ _ _ _ _ ihvalue ih =>
    rw [AllFirst, Sketch.scopesAll, List.forall_mem_append] at hfirst
    refine .append ?_ (ih hfirst.2)
    split
    · exact .other nofun (ihvalue hfirst.1)
    · exact .other nofun .nil
  | scope _ hscope _ ihinside ih | loop _ hscope _ ihinside ih | literal _ hscope _ ihinside ih =>
    rw [AllFirst, Sketch.scopesAll, Sketch.scopes, List.cons_append, List.forall_mem_cons,
      List.forall_mem_append] at hfirst
    exact .block (.of_declarations (hscope ▸ distinct_resolve hfirst.1)) (ihinside hfirst.2.1)
      (ih hfirst.2.2)
  | guard _ ih => exact .block (.of_eq_nil rfl) (.other nofun .nil) (ih hfirst)
  | switch n _ _ hscope _ ihsubject ihbranches ih =>
    -- the branches have scopes of their own; the switch itself declares its subject only
    rw [AllFirst, Sketch.scopesAll, Sketch.scopes, List.forall_mem_append,
      List.forall_mem_append] at hfirst
    refine .block (.of_declarations ?_)
      (.other nofun (.append (ihsubject hfirst.1.1) (ihbranches hfirst.1.2))) (ih hfirst.2)
    rw [List.cons_append, declarations_cons rfl, hscope]
    exact ⟨fun _ _ _ _ => List.not_mem_nil, List.pairwise_singleton _ _⟩
  | function _ hscope _ ihinside ih =>
    rw [AllFirst, Sketch.scopesAll, Sketch.scopes, List.cons_append, List.forall_mem_cons,
      List.forall_mem_append] at hfirst
    obtain ⟨hdistinct, hinner⟩ := distinct_functionMarks
      (.of_declarations (hscope ▸ distinct_resolve hfirst.1)) (ihinside hfirst.2.1) _
    exact .block hdistinct hinner (ih hfirst.2.2)
  | value _ _ _ ihinside ih =>
    rw [AllFirst, Sketch.scopesAll, List.forall_mem_append] at hfirst
    exact .append (ihinside hfirst.1) (ih hfirst.2)
  | refused _ ih => exact .other nofun (ih hfirst)
  | turned _ _ _ ihfirst ihsecond ih =>
    rw [AllFirst, Sketch.scopesAll, Sketch.scopes, List.forall_mem_append,
      List.forall_mem_append] at hfirst
    exact .append (.append (ihfirst hfirst.1.1) (ihsecond hfirst.1.2)) (ih hfirst.2)

/-- A program whose scopes declare functions first is emitted with blocks that declare a name by
`let`, `const` or `class` only once, and no parameter.  The next declarations of a name in its scope
are assignments. -/
theorem blocks_never_redeclare {tokens : List Token} {program : Node}
    (hparse : parse tokens = .ok program)
    (hfirst : ∀ scope ∈ scopesOf program, FunctionsFirst scope.1 (scope.2.flatMap declares))
    (cap : Nat) : ∃ marks, (scan (compile (bare cap) program)).bind outline = some marks ∧
      MirrorsProgram program marks ∧ EveryBlock (fun kind inner => Distinct kind.params inner) marks := by
  obtain ⟨marks, houtline, ⟨m, rfl, hmirrors, hscope⟩, -⟩ := mirrors_compile (parse_isProgram hparse) cap
  rw [scopesOf, List.forall_mem_cons] at hfirst
  exact ⟨_, houtline, ⟨m, rfl, hmirrors, hscope⟩,
    .block (.of_declarations (hscope ▸ distinct_resolve hfirst.1)) (hmirrors.distinct hfirst.2) .nil⟩

/-- A variable, declared twice, and a function that yields, declares its parameter, and whose name is
then declared as a constant. -/
def redeclaring : Node :=
  .program
    [.declare "x" (some (.number 1)) false .start,
     .declare "x" (some (.number 2)) false .start,
     .function ⟨some "f", ["y"], .block [.declare "y" none false .start, .yieldValue .null], false,
       .start⟩,
     .declare "f" (some .null) true .start]

/-- A name that the program declares twice is declared once in the emitted block. -/
theorem blocks_never_redeclare_redeclaring :
    parse redeclaring.written = .ok redeclaring ∧
      (∀ scope ∈ scopesOf redeclaring, FunctionsFirst scope.1 (scope.2.flatMap declares)) ∧
      ∃ marks, (scan (compile (bare 10) redeclaring)).bind outline = some marks ∧
        MirrorsProgram redeclaring marks ∧
        EveryBlock (fun kind inner => Distinct kind.params inner) marks := by
  have hparse : parse redeclaring.written = .ok redeclaring := rfl
  have hfirst : ∀ scope ∈ scopesOf redeclaring,
      FunctionsFirst scope.1 (scope.2.flatMap declares) := by decide +kernel
  exact ⟨hparse, hfirst, blocks_never_redeclare hparse hfirst 10⟩

/-- Declares a function under the name of a variable. -/
def overriding : Node :=
  .program
    [.declare "f" (some (.number 1)) false .start,
     .function ⟨some "f", [], .block [], false, .start⟩]

/-- A function that comes second is left out above for a reason: it is declared again all the same. -/
theorem function_declared_again :
    parse overriding.written = .ok overriding ∧
      ∃ marks, (scan (compile (bare 10) overriding)).bind outline = some marks ∧
        ¬EveryBlock (fun kind inner => Distinct kind.params inner) marks := by
  have hmarks : plotProgram overriding = [.block (.function [])
      [.binds .let ['f'], .binds .function ['f'], .block (.function []) []]] := rfl
  refine ⟨rfl, _, outline_compile rfl 10, fun hdistinct => ?_⟩
  rw [hmarks] at hdistinct
  obtain ⟨-, honce⟩ := hdistinct _ _ (.here (.head _))
  -- two of the declarations are of one name, and one is no function
  have hpair := List.rel_of_pairwise_cons honce (.head _) .let .function ['f'] rfl rfl
  exact absurd hpair.1 (by decide)

end BrailleScript.JavaScript
