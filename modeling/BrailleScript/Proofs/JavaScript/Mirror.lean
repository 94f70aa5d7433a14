import BrailleScript.Proofs.JavaScript.Drawing
import BrailleScript.Proofs.JavaScript.Tidy

/-!
# Emitted code mirrors its program

How the landmarks of emitted code follow from the program, without the counters and the names that
the emitter keeps: each scope becomes a block, in which the first declaration of a name declares it
and the next ones assign to it, each `break` goes to the innermost construct that it can leave, and
each value yielded goes to the function that collects it.

## Key results

- `reflected_plot`: what `plot` draws mirrors the sketch
- `mirrors_compile`: so does the code of a program
-/

namespace BrailleScript.JavaScript

open Sketch (AreValues Tidy declares)

/-- How the declarations of a scope are emitted if the names `seen` are declared there already.  The
first declaration of a name declares it, and the next ones assign to it; a function is declared each
time. -/
def resolve (seen : List String) : List (Binder × String) → List Landmark
  | [] => []
  | (how, name) :: rest =>
    (if how = .function ∨ name ∉ seen then .binds how (sanitize name).toList
      else .assigns (sanitize name).toList) :: resolve (name :: seen) rest

/-- Whether a name is declared, or assigned to in the place of a declaration. -/
def Landmark.isDeclaration : Landmark → Bool
  | .binds .. | .assigns _ => true
  | .jump _ | .pushes | .fails | .block .. => false

/-- What is declared directly between some braces. -/
def declarations (marks : List Landmark) : List Landmark :=
  marks.filter Landmark.isDeclaration

/-- The declarations of a row are those of its parts. -/
theorem declarations_append (m m' : List Landmark) :
    declarations (m ++ m') = declarations m ++ declarations m' :=
  List.filter_append ..

/-- A declaration in front is the first of them. -/
theorem declarations_cons {mark : Landmark} (h : mark.isDeclaration = true) (m : List Landmark) :
    declarations (mark :: m) = mark :: declarations m :=
  List.filter_cons_of_pos h

/-- The landmarks of the code of a program, or of some parts of it. -/
inductive Mirrors : Surroundings → List Sketch → List Landmark → Prop
  | nil {around} : Mirrors around [] []
  /-- Which of the two it is depends on the scope. -/
  | bind {around how name value rest m m' mark}
    (hmark : mark = .binds how (sanitize name).toList ∨ mark = .assigns (sanitize name).toList)
    (hvalue : Mirrors around value m) (hrest : Mirrors around rest m') :
    Mirrors around (.bind how name value :: rest) (mark :: m ++ m')
  | leave {around rest m'} (hrest : Mirrors around rest m') :
    Mirrors around (.leave :: rest) (.jump (around.label.map labelName) :: m')
  | give {around value rest m m'} (hvalue : Mirrors around value m)
    (hrest : Mirrors around rest m') :
    Mirrors around (.give value :: rest) ((if around.generator then .pushes :: m else [.fails]) ++ m')
  | scope {around inside rest m m'} (hinside : Mirrors around inside m)
    (hscope : declarations m = resolve [] (inside.flatMap declares))
    (hrest : Mirrors around rest m') :
    Mirrors around (.scope inside :: rest) (.block .plain m :: m')
  | guard {around rest m'} (hrest : Mirrors around rest m') :
    Mirrors around (.guard :: rest) (.block .plain [.jump none] :: m')
  | loop {around inside rest m m'} (hinside : Mirrors { around with label := none } inside m)
    (hscope : declarations m = resolve [] (inside.flatMap declares))
    (hrest : Mirrors around rest m') :
    Mirrors around (.loop inside :: rest) (.block .loop m :: m')
  | switch {around subject branches rest s b m'} (n : Nat) (hsubject : Mirrors around subject s)
    (hbranches : Mirrors { around with label := some n } branches b)
    (hscope : declarations (s ++ b) = []) (hrest : Mirrors around rest m') :
    Mirrors around (.switch subject branches :: rest)
      (.block (.labelled (labelName n)) (.binds .constant (subjectName n) :: s ++ b) :: m')
  | function {around params inside rest m m'}
    (hinside : Mirrors ⟨none, Sketch.givesAny inside⟩ inside m)
    (hscope : declarations m = resolve params (inside.flatMap declares))
    (hrest : Mirrors around rest m') :
    Mirrors around (.function params inside :: rest)
      (.block (.function (params.map fun p => (sanitize p).toList))
        (functionMarks (Sketch.givesAny inside) m) :: m')
  | value {around inside rest m m'} (hinside : Mirrors ⟨none, false⟩ inside m)
    (hscope : declarations m = []) (hrest : Mirrors around rest m') :
    Mirrors around (.value inside :: rest) (m ++ m')
  | literal {around inside rest m m'} (hinside : Mirrors { around with label := none } inside m)
    (hscope : declarations m = resolve [] (inside.flatMap declares))
    (hrest : Mirrors around rest m') :
    Mirrors around (.literal inside :: rest) (.block (.function []) m :: m')
  | refused {around rest m'} (hrest : Mirrors around rest m') :
    Mirrors around (.refused :: rest) (.fails :: m')
  | turned {around first second rest m m' m''} (hfirst : Mirrors around first m)
    (hsecond : Mirrors around second m') (hrest : Mirrors around rest m'') :
    Mirrors around (.turned first second :: rest) (m ++ m' ++ m'')

/-- The landmarks of the code of a program. -/
def MirrorsProgram (program : Node) (marks : List Landmark) : Prop :=
  ∃ m, marks = [.block (.function []) m] ∧
    Mirrors ⟨none, false⟩ (sketchAll sketchText program.statements) m ∧
    declarations m = resolve [] ((sketchAll sketchText program.statements).flatMap declares)

/-! ## What is drawn -/

/-- A sequence runs its second part where the first one ended. -/
theorem run_bind {α β : Type} {x : Emit α} {f : α → Emit β} {s s' : EmitState} {a : α}
    (h : x.run s = (a, s')) : (x >>= f).run s = (f a).run s' := by
  rw [StateT.run_bind, h]
  rfl

/-- Labels with different numbers are different. -/
theorem labelName_inj {n n' : Nat} (h : labelName n = labelName n') : n = n' :=
  Nat.repr_inj.1 (String.toList_inj.1 (List.append_cancel_left h))

/-- The names declared so far are those of a scope of the program. -/
def Declared (s : EmitState) (seen : List String) : Prop :=
  ∀ name, sanitize name ∈ s.declared ↔ name ∈ seen

/-- The names seen behind some declarations. -/
def seenAfter (seen : List String) : List (Binder × String) → List String
  | [] => seen
  | d :: rest => seenAfter (d.2 :: seen) rest

/-- Whatever the label outside of a value is, no part of the value has it. -/
theorem plotAll_values {ss : List Sketch} (h : Tidy ss) (hvalues : AreValues ss)
    (label label' : Option Nat) (generator : Bool) :
    plotAll ⟨label, generator⟩ ss = plotAll ⟨label', generator⟩ ss := by
  -- values hold no loop, switch or break, and functions start without a label
  induction h generalizing generator with
  | nil => rfl
  | bind | leave | give | scope | loop | guarded | switch =>
    exact absurd (hvalues _ (.head _)) Bool.false_ne_true
  | function _ _ _ ih | refused _ ih | literal _ _ _ ih =>
    rw [plotAll, plotAll, ih (List.forall_mem_cons.1 hvalues).2 generator]
    rfl
  | value hvalue _ _ ihinside ih =>
    rw [plotAll, plotAll, plot, plot, ih (List.forall_mem_cons.1 hvalues).2 generator,
      ihinside hvalue false]
  | turned hfirst _ hsecond _ _ ihfirst ihsecond ih =>
    rw [plotAll, plotAll, plot, plot, ih (List.forall_mem_cons.1 hvalues).2 generator,
      ihfirst hfirst generator, ihsecond hsecond generator]

/-- The labels are different ones that were not used before. -/
structure NewLabels (used used' : Nat) (labels : List (List Char)) : Prop where
  le : used ≤ used'
  fresh : ∀ label ∈ labels, ∃ n, used < n ∧ n ≤ used' ∧ label = labelName n
  nodup : labels.Nodup

namespace NewLabels

variable {a b c : Nat} {labels labels' : List (List Char)}

/-- Without labels there is nothing new. -/
theorem nil (a : Nat) : NewLabels a a [] :=
  ⟨Nat.le_refl a, nofun, .nil⟩

/-- New labels in a row are new. -/
theorem append (h : NewLabels a b labels) (h' : NewLabels b c labels') :
    NewLabels a c (labels ++ labels') := by
  constructor
  case le => exact Nat.le_trans h.le h'.le
  case fresh =>
    refine List.forall_mem_append.2 ⟨fun label hmem => ?_, fun label hmem => ?_⟩
    · obtain ⟨n, hn, hn', rfl⟩ := h.fresh label hmem
      exact ⟨n, hn, Nat.le_trans hn' h'.le, rfl⟩
    · obtain ⟨n, hn, hn', rfl⟩ := h'.fresh label hmem
      exact ⟨n, Nat.lt_of_le_of_lt h.le hn, hn', rfl⟩
  -- the labels of the two rows come from ranges of numbers that do not meet
  case nodup =>
    refine h.nodup.append h'.nodup fun label hmem hmem' => ?_
    obtain ⟨n, -, hn, rfl⟩ := h.fresh label hmem
    obtain ⟨n', hn', -, heq⟩ := h'.fresh _ hmem'
    have := labelName_inj heq
    omega

/-- Labels may be left out. -/
theorem forget (h : NewLabels a b labels) : NewLabels a b [] :=
  ⟨h.le, nofun, .nil⟩

/-- They may stand in any order. -/
theorem perm (h : NewLabels a b labels) (hp : labels.Perm labels') : NewLabels a b labels' :=
  ⟨h.le, fun label hmem => h.fresh label (hp.mem_iff.2 hmem), hp.nodup_iff.1 h.nodup⟩

/-- A label, and then those inside its block. -/
theorem cons (h : NewLabels (a + 1) b labels) : NewLabels a b (labelName (a + 1) :: labels) := by
  constructor
  case le => exact Nat.le_of_succ_le h.le
  case fresh =>
    refine List.forall_mem_cons.2 ⟨⟨a + 1, Nat.lt_succ_self a, h.le, rfl⟩, fun label hmem => ?_⟩
    obtain ⟨n, hn, hn', rfl⟩ := h.fresh label hmem
    exact ⟨n, Nat.lt_of_succ_lt hn, hn', rfl⟩
  -- the labels inside have numbers behind the one in front
  case nodup =>
    refine List.nodup_cons.2 ⟨fun hmem => ?_, h.nodup⟩
    obtain ⟨n, hn, -, heq⟩ := h.fresh _ hmem
    have := labelName_inj heq
    omega

end NewLabels

/-- Collecting the yields of a function adds no label. -/
theorem labelsOf_functionMarks (generator : Bool) (m : List Landmark) :
    labelsOf (functionMarks generator m) = labelsOf m := by
  cases generator with
  | false => rfl
  | true => exact labelsOf_singleton _

/-- What was drawn mirrors the sketch, the names declared behind it are those of the sketch, and its
labels are new. -/
structure Reflected (around : Surroundings) (seen : List String) (ss : List Sketch) (s : EmitState)
    (drawn : List Landmark × EmitState) : Prop where
  mirrors : Mirrors around ss drawn.1
  declarations : declarations drawn.1 = resolve seen (ss.flatMap declares)
  declared : Declared drawn.2 (seenAfter seen (ss.flatMap declares))
  labels : NewLabels s.labels drawn.2.labels (labelsOf drawn.1)

namespace Reflected

variable {around : Surroundings} {seen : List String} {ss rest : List Sketch} {head : Sketch}
  {drawn : List Landmark × EmitState} {m : List Landmark} {s s' : EmitState}

/-- Parts that declare nothing. -/
theorem still (h : Reflected around seen ss s drawn) (hdeclares : ss.flatMap declares = []) :
    JavaScript.declarations drawn.1 = [] ∧ Declared drawn.2 seen := by
  obtain ⟨-, hdeclarations, hdeclared, -⟩ := h
  rw [hdeclares] at hdeclarations hdeclared
  exact ⟨hdeclarations, hdeclared⟩

/-- Sketches in a row are plotted one after the other. -/
theorem run_plotAll (hplot : (plot around head).run s = (m, s')) :
    (plotAll around (head :: rest)).run s =
      (m ++ ((plotAll around rest).run s').1, ((plotAll around rest).run s').2) := by
  rw [plotAll, run_bind hplot]
  rfl

/-- A part that declares nothing stands in front of others. -/
theorem cons (hplot : (plot around head).run s = (m, s')) (hdeclares : head.declares = [])
    (hmarks : JavaScript.declarations m = []) (hlabels : NewLabels s.labels s'.labels (labelsOf m))
    (hmirrors : ∀ m', Mirrors around rest m' → Mirrors around (head :: rest) (m ++ m'))
    (hrest : Reflected around seen rest s' ((plotAll around rest).run s')) :
    Reflected around seen (head :: rest) s ((plotAll around (head :: rest)).run s) := by
  rw [run_plotAll hplot]
  -- each field is that of the rest, with the part's own landmarks in front
  constructor
  case mirrors => exact hmirrors _ hrest.mirrors
  case declarations =>
    rw [declarations_append, hmarks, List.flatMap_cons, hdeclares]
    exact hrest.declarations
  case declared =>
    rw [List.flatMap_cons, hdeclares]
    exact hrest.declared
  case labels =>
    rw [labelsOf_append]
    exact hlabels.append hrest.labels

end Reflected

/-- The parameters of a function are declared in its body. -/
theorem declared_params (params : List String) (labels : Nat) :
    Declared ⟨params.map sanitize, labels⟩ params := by
  intro name
  constructor
  · intro h
    obtain ⟨param, hparam, heq⟩ := List.mem_map.1 h
    rwa [← unsanitize_sanitize name, ← heq, unsanitize_sanitize]
  · exact List.mem_map_of_mem

/-- A name is new when it was not seen before, and then it is seen. -/
theorem declared_declareName {s : EmitState} {seen : List String} (h : Declared s seen)
    (name : String) : ∃ isNew s', (declareName (sanitize name)).run s = (isNew, s') ∧
      (isNew = true ↔ name ∉ seen) ∧ Declared s' (name :: seen) ∧ s'.labels = s.labels := by
  -- sanitizing is injective, so the sanitized names tell the names apart
  have hname (other : String) : sanitize other = sanitize name ↔ other = name := by
    refine ⟨fun heq => ?_, congrArg sanitize⟩
    rw [← unsanitize_sanitize other, heq, unsanitize_sanitize]
  -- the name is there already and nothing changes, or it is put there
  cases hold : s.declared.contains (sanitize name) with
  | true =>
    have hseen : name ∈ seen := (h name).1 (List.contains_iff_mem.1 hold)
    refine ⟨false, s, ?_, by simp [hseen], fun other => ?_, rfl⟩
    · simp only [declareName, StateT.run_bind, StateT.run_get, pure_bind, hold, if_true]
      rfl
    · rw [h other, List.mem_cons]
      exact ⟨.inr, fun hmem => hmem.elim (· ▸ hseen) id⟩
  | false =>
    have hseen : name ∉ seen := fun hmem => by
      rw [List.contains_iff_mem.2 ((h name).2 hmem)] at hold
      cases hold
    refine ⟨true, { s with declared := sanitize name :: s.declared }, ?_, by simp [hseen],
      fun other => ?_, rfl⟩
    · simp only [declareName, StateT.run_bind, StateT.run_get, pure_bind, hold]
      rfl
    · rw [List.mem_cons, List.mem_cons, hname other, h other]

/-- A name is declared in front of other parts. -/
theorem Reflected.bind {around : Surroundings} {s s₁ : EmitState} {seen : List String} {how : Binder}
    {name : String} {value rest : List Sketch} {m : List Landmark}
    (hvalue : (plotAll around value).run s = (m, s₁)) (hmirrors : Mirrors around value m)
    (hstill : JavaScript.declarations m = []) (hdeclared : Declared s₁ seen)
    (hlabels : NewLabels s.labels s₁.labels (labelsOf m))
    (hrest : ∀ {s}, Declared s (name :: seen) →
      Reflected around (name :: seen) rest s ((plotAll around rest).run s)) :
    Reflected around seen (.bind how name value :: rest) s
      ((plotAll around (.bind how name value :: rest)).run s) := by
  obtain ⟨isNew, s₂, hrun, hnew, hdeclared', hcount⟩ := declared_declareName hdeclared name
  have hrest := hrest hdeclared'
  have hplot : (plot around (.bind how name value)).run s =
      ((if isNew || how = .function then .binds how (sanitize name).toList
        else .assigns (sanitize name).toList) :: m, s₂) := by
    rw [plot, run_bind hvalue, run_bind hrun]
    rfl
  -- the mark declares the name when it is new, and for a function always
  have hwhich : (isNew || decide (how = .function)) = true ↔ how = .function ∨ name ∉ seen := by
    rw [Bool.or_eq_true, hnew, decide_eq_true_iff, Or.comm]
  rw [Reflected.run_plotAll hplot]
  simp only [hwhich]
  constructor
  case mirrors =>
    refine .bind ?_ hmirrors hrest.mirrors
    split
    · exact .inl rfl
    · exact .inr rfl
  case declarations =>
    rw [declarations_append, declarations_cons (by split <;> rfl), hstill, hrest.declarations]
    rfl
  case declared => exact hrest.declared
  -- the mark itself has no label
  case labels =>
    have hmark {mark : Landmark} (hmark : mark.labels = []) : labelsOf (mark :: m) = labelsOf m := by
      rw [labelsOf, hmark]
      rfl
    rw [labelsOf_append, hmark (by split <;> rfl)]
    exact hlabels.append (hcount ▸ hrest.labels)

/-- What is drawn for a tidy sketch mirrors it. -/
theorem reflected_plot {ss : List Sketch} (h : Tidy ss) (around : Surroundings) {s : EmitState}
    {seen : List String} (hseen : Declared s seen) :
    Reflected around seen ss s ((plotAll around ss).run s) := by
  induction h generalizing around s seen with
  | nil => exact ⟨.nil, rfl, hseen, .nil _⟩
  | @bind how name value rest hvalue _ _ ihvalue ih =>
    have hinside := ihvalue around hseen
    obtain ⟨hstill, hdeclared⟩ := hinside.still hvalue.flatMap_declares
    exact .bind rfl hinside.mirrors hstill hdeclared hinside.labels (ih around)
  | leave _ ih => exact .cons (by rw [plot]; rfl) rfl rfl (.nil _) (fun _ => .leave) (ih around hseen)
  | @give value rest hvalue _ _ ihvalue ih =>
    have hinside := ihvalue around hseen
    obtain ⟨hstill, hdeclared⟩ := hinside.still hvalue.flatMap_declares
    refine .cons (by rw [plot]; rfl) rfl ?_ ?_ (fun _ => .give hinside.mirrors) (ih around hdeclared)
    · split
      · exact hstill
      · rfl
    · split
      · exact hinside.labels
      · exact hinside.labels.forget
  | scope _ _ ihinside ih =>
    have hinside := ihinside around (declared_params [] s.labels)
    refine .cons (by rw [plot]; rfl) rfl rfl ?_
      (fun _ => .scope hinside.mirrors hinside.declarations) ?_
    · exact labelsOf_singleton _ ▸ hinside.labels
    · exact ih around hseen
  | loop _ _ ihinside ih =>
    have hinside := ihinside { around with label := none } (declared_params [] s.labels)
    refine .cons (by rw [plot]; rfl) rfl rfl ?_
      (fun _ => .loop hinside.mirrors hinside.declarations) ?_
    · exact labelsOf_singleton _ ▸ hinside.labels
    · exact ih around hseen
  | guarded _ _ ihinside ih =>
    have hinside := ihinside { around with label := none } (declared_params [] s.labels)
    have hguard : (plot { around with label := none } .guard).run ⟨[], s.labels⟩ =
        ([.block .plain [.jump none]], ⟨[], s.labels⟩) := by
      rw [plot]
      rfl
    have hguarded := hinside.cons hguard rfl rfl (.nil _) (fun _ => .guard)
    refine .cons (by rw [plot]; rfl) rfl rfl ?_
      (fun _ => .loop hguarded.mirrors hguarded.declarations) ?_
    · exact labelsOf_singleton _ ▸ hguarded.labels
    · exact ih around hseen
  | switch hvalue _ hdeclares _ _ ihsubject ihbranches ih =>
    have hnext : Declared { s with labels := s.labels + 1 } seen := hseen
    have hsubject := ihsubject around hnext
    obtain ⟨hstill, hdeclared⟩ := hsubject.still hvalue.flatMap_declares
    have hbranches := ihbranches { around with label := some (s.labels + 1) } hdeclared
    obtain ⟨hstill', hdeclared'⟩ := hbranches.still hdeclares
    refine .cons (by rw [plot]; rfl) rfl rfl ?_
      (fun _ => .switch (s.labels + 1) hsubject.mirrors hbranches.mirrors ?_) (ih around hdeclared')
    · rw [labelsOf_singleton, Landmark.labels, labelsOf_append]
      exact (hsubject.labels.append hbranches.labels).cons
    · rw [declarations_append, hstill, hstill']
      rfl
  | @function params inside rest _ _ ihinside ih =>
    have hinside := ihinside ⟨none, Sketch.givesAny inside⟩
      (declared_params params s.labels)
    refine .cons (by rw [plot, List.map_map]; rfl) rfl rfl ?_
      (fun _ => .function hinside.mirrors hinside.declarations) ?_
    · rw [labelsOf_singleton, Landmark.labels, labelsOf_functionMarks]
      exact hinside.labels
    · exact ih around hseen
  | @value inside rest hvalue hinside _ ihinside ih =>
    have hvalues := ihinside ⟨none, false⟩ hseen
    obtain ⟨hstill, hdeclared⟩ := hvalues.still hvalue.flatMap_declares
    exact .cons (by rw [plot, plotAll_values hinside hvalue _ none]; rfl) rfl hstill hvalues.labels
      (fun _ => .value hvalues.mirrors hstill) (ih around hdeclared)
  | literal _ _ ihinside ih =>
    have hinside := ihinside { around with label := none } (declared_params [] s.labels)
    refine .cons (by rw [plot]; rfl) rfl rfl ?_
      (fun _ => .literal hinside.mirrors hinside.declarations) ?_
    · exact labelsOf_singleton _ ▸ hinside.labels
    · exact ih around hseen
  | refused _ ih => exact .cons (by rw [plot]; rfl) rfl rfl (.nil _) (fun _ => .refused) (ih around hseen)
  | turned hvalue _ hvalue' _ _ ihfirst ihsecond ih =>
    have hsecond := ihsecond around hseen
    obtain ⟨hstill', hdeclared'⟩ := hsecond.still hvalue'.flatMap_declares
    have hfirst := ihfirst around hdeclared'
    obtain ⟨hstill, hdeclared⟩ := hfirst.still hvalue.flatMap_declares
    refine .cons (by rw [plot]; rfl) rfl ?_ ?_ (fun _ => .turned hfirst.mirrors hsecond.mirrors)
      (ih around hdeclared)
    · rw [declarations_append, hstill, hstill']
      rfl
    · -- what comes second was drawn first
      rw [labelsOf_append]
      exact (hsecond.labels.append hfirst.labels).perm List.perm_append_comm

/-- The code of a program mirrors the program, and no two of its labels are the same. -/
theorem mirrors_compile {program : Node} (h : program.isProgram = true) (cap : Nat) :
    ∃ marks, (scan (compile (bare cap) program)).bind outline = some marks ∧
      MirrorsProgram program marks ∧ (labelsOf marks).Nodup := by
  have hdrawn := reflected_plot (tidy_program h) ⟨none, false⟩ (declared_params [] 0)
  exact ⟨_, outline_compile h cap, ⟨_, rfl, hdrawn.mirrors, hdrawn.declarations⟩,
    labelsOf_singleton _ ▸ hdrawn.labels.nodup⟩

end BrailleScript.JavaScript
