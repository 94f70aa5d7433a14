import Mathlib.Data.List.Forall2
import BrailleScript.Proofs.Machine.DisciplineRun

/-!
# Control state

The current scope, the open calls and the depth of reflection say where in a program a machine is.
Every step puts them back however it ends, apart from the values that open calls have yielded
meanwhile, so a machine that is at rest between two runs of a session is at rest after each run.

## Key results

- `Discipline.restoring`: putting the control state back is a discipline
- `Machine.Restored.steps`: every step at every bound keeps it
- `control_state_restored`: statements, expressions and whole sessions
-/

namespace BrailleScript

/-- The same call after it has yielded further values, if it is one that yields. -/
def Frame.Grown (f g : Frame) : Prop :=
  ∃ more : Array Value, g = { f with yields := f.yields.map (· ++ more) }

/-- A frame has grown into itself. -/
theorem Frame.Grown.refl (f : Frame) : f.Grown f := by
  refine ⟨#[], ?_⟩
  simp only [Array.append_empty, Option.map_id']

/-- It goes on growing. -/
theorem Frame.Grown.trans {f g h : Frame} (hfg : f.Grown g) (hgh : g.Grown h) : f.Grown h := by
  obtain ⟨more, rfl⟩ := hfg
  obtain ⟨further, rfl⟩ := hgh
  refine ⟨more ++ further, ?_⟩
  simp only [Option.map_map, Function.comp_def, Array.append_assoc]

/-- The control state of the second machine is that of the first; open calls may have yielded. -/
structure Machine.Restored (m m' : Machine) : Prop where
  scope : m'.scope = m.scope
  frames : List.Forall₂ Frame.Grown m.frames m'.frames
  reflectDepth : m'.reflectDepth = m.reflectDepth
  options : m'.options = m.options

namespace Machine.Restored

/-- Frames have grown into themselves. -/
theorem grown_refl (frames : List Frame) : List.Forall₂ Frame.Grown frames frames :=
  List.forall₂_same.2 fun f _ => .refl f

/-- They go on growing. -/
theorem grown_trans {fs gs hs : List Frame} (hfg : List.Forall₂ Frame.Grown fs gs)
    (hgh : List.Forall₂ Frame.Grown gs hs) : List.Forall₂ Frame.Grown fs hs := by
  induction hfg generalizing hs with
  | nil => exact hgh
  | cons h _ ih =>
    cases hgh with
    | cons h' hgh => exact .cons (h.trans h') (ih hgh)

/-- A machine is restored as itself. -/
theorem refl (m : Machine) : m.Restored m := ⟨rfl, grown_refl _, rfl, rfl⟩

/-- It is restored step by step. -/
theorem trans {a b c : Machine} (hab : a.Restored b) (hbc : b.Restored c) : a.Restored c where
  scope := hbc.scope.trans hab.scope
  frames := grown_trans hab.frames hbc.frames
  reflectDepth := hbc.reflectDepth.trans hab.reflectDepth
  options := hbc.options.trans hab.options

/-- A call that yields still does. -/
theorem collecting_eq {a b : Machine} (h : a.Restored b) : b.collecting = a.collecting := by
  obtain ⟨-, hframes, -, -⟩ := h
  unfold collecting
  generalize a.frames = fs at hframes
  generalize b.frames = gs at hframes
  -- frame by frame, as yields are only added to those that collect
  induction hframes with
  | nil => rfl
  | cons hgrown _ ih =>
    obtain ⟨more, rfl⟩ := hgrown
    rw [List.map_cons, List.map_cons, ih, Option.isSome_map]

/-- Yielding a value lets the innermost call grow by it. -/
theorem yielded (m : Machine) (v : Value) :
    m.Restored { m with
      frames := m.frames.modifyHead fun f => { f with yields := f.yields.map (·.push v) } } := by
  refine ⟨rfl, ?_, rfl, rfl⟩
  show List.Forall₂ Frame.Grown m.frames (m.frames.modifyHead _)
  -- without an open call there is nothing to grow
  cases m.frames with
  | nil => exact .nil
  | cons f rest =>
    refine .cons ⟨#[v], ?_⟩ (grown_refl rest)
    simp only [Array.append_singleton]

/-- When the innermost call ends, those below it are left. -/
theorem inFrame {m m' : Machine} (frame : Frame) (stats : RunStats)
    (h : Restored { m with frames := frame :: m.frames, stats } m') :
    m.Restored { m' with frames := m'.frames.tail } := by
  obtain ⟨hscope, hframes, hdepth, hoptions⟩ := h
  refine ⟨hscope, ?_, hdepth, hoptions⟩
  show List.Forall₂ Frame.Grown m.frames m'.frames.tail
  generalize m'.frames = frames at hframes
  cases hframes with
  | cons _ hrest => exact hrest

end Machine.Restored

/-- Putting the control state back, whatever else is asked. -/
def Discipline.restoring (admits : FunctionDef Node → Prop) (stops : Stop → Prop)
    (failed : ∀ f, stops (.failed f)) : Discipline where
  admits
  stops
  failed
  keeps := Machine.Restored
  refl := .refl
  trans := .trans
  options h := h.options
  calls h := Machine.Restored.collecting_eq h
  beside := by
    rintro a b ⟨heap, ledger, requests, readings, output, stats, rfl⟩
    exact ⟨rfl, Machine.Restored.grown_refl _, rfl, rfl⟩
  child m _ := ⟨rfl, Machine.Restored.grown_refl m.frames, rfl, rfl⟩
  define m _ _ _ _ _ := ⟨rfl, Machine.Restored.grown_refl m.frames, rfl, rfl⟩
  assign m _ _ _ _ := ⟨rfl, Machine.Restored.grown_refl m.frames, rfl, rfl⟩
  yields _ := True
  yielded m v _ := .yielded m v
  inScope _ h := ⟨rfl, h.frames, h.reflectDepth, h.options⟩
  inFrame := .inFrame
  inReflection h := ⟨h.scope, h.frames, by simp [h.reflectDepth], h.options⟩

namespace Machine.Restored

/-- Nothing is asked but that the control state is put back. -/
def discipline : Discipline :=
  .restoring (fun _ => True) (fun _ => True) fun _ => trivial

/-- The rules that restore it admit every definition, every stop and every yield. -/
theorem universal : discipline.Universal := ⟨fun _ => trivial, fun _ => trivial, fun _ => trivial⟩

/-- Every step at every bound puts the control state back. -/
theorem steps (bound : Nat) (o : RunOptions) :
    (∀ depth n, discipline.Safe o depth discipline.AdmittedFlow (exec bound n) (exec bound n)) ∧
    (∀ depth n, discipline.Safe o depth discipline.Admitted (eval bound n) (eval bound n)) ∧
    ∀ depth v args,
      discipline.Safe o depth discipline.Admitted (call bound v args) (call bound v args) :=
  universal.steps bound o

/-- What is safe under these rules restores the machine. -/
theorem of_safe {α : Type} {post : α → Prop} {x : Run α}
    (h : ∀ o depth, discipline.Safe o depth post x x) (m : Machine) :
    m.Restored (Ending.machine (x m)) :=
  universal.of_safe h m

/-- Every program restores it. -/
theorem execute (bound : Nat) (program : Node) (m : Machine) :
    m.Restored (m.execute bound program).2 :=
  universal.execute bound program m

end Machine.Restored

/-! ## Sessions -/

/-- Between two runs: in the outermost scope, with no open call and no reflection. -/
structure Machine.AtRest (m : Machine) : Prop where
  scope : m.scope = 0
  frames : m.frames = []
  reflectDepth : m.reflectDepth = 0

/-- A restored machine is at rest when it was before. -/
theorem Machine.AtRest.of_restored {m m' : Machine} (h : m.AtRest) (hr : m.Restored m') :
    m'.AtRest where
  scope := hr.scope.trans h.scope
  frames := by
    have hf := hr.frames
    rw [h.frames] at hf
    exact List.forall₂_nil_left_iff.1 hf
  reflectDepth := hr.reflectDepth.trans h.reflectDepth

/-- Runs programs one after another in one machine, each within its bound. -/
def Machine.session (m : Machine) (runs : List (Nat × Node)) : Machine :=
  runs.foldl (fun m run => (m.execute run.1 run.2).2) m

/-- It is at rest after every session. -/
theorem Machine.AtRest.session {m : Machine} (h : m.AtRest) (runs : List (Nat × Node)) :
    (m.session runs).AtRest := by
  induction runs generalizing m with
  | nil => exact h
  | cons run rest ih => exact ih (h.of_restored (.execute run.1 run.2 m))

/-- Executing a statement or evaluating an expression puts the control state back, however it ends:
the scope, the calls with their bindings, and the depth of reflection are those of before, and only
the values yielded by open calls have grown.  So a session is at rest after each of its runs. -/
theorem control_state_restored :
    (∀ bound node (m : Machine), m.Restored (Ending.machine (exec bound node m))) ∧
    (∀ bound node (m : Machine), m.Restored (Ending.machine (eval bound node m))) ∧
    ∀ options ledger backend clock runs,
      ((Machine.fresh options ledger backend clock).session runs).AtRest := by
  refine ⟨fun bound node m => ?_, fun bound node m => ?_, fun options ledger backend clock runs => ?_⟩
  · exact .of_safe (fun o depth => (Machine.Restored.steps bound o).1 depth node) m
  · exact .of_safe (fun o depth => (Machine.Restored.steps bound o).2.1 depth node) m
  · exact Machine.AtRest.session ⟨rfl, rfl, rfl⟩ runs

end BrailleScript
