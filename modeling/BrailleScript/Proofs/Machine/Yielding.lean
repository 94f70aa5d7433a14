import BrailleScript.Proofs.Machine.Restored
import BrailleScript.Proofs.Node.Soundness
import BrailleScript.Proofs.Node.Yields

/-!
# Where values are yielded

Whether a call collects what it yields is decided when it is opened, by a search for a `yield` in the
body of the function.  In a program without reflection the search is right: wherever a value is
yielded inside a call, the innermost call collects it.

To say where values are yielded, the run is repeated with another step in the place of that
(`Yielding.run`).  The other step may do what it likes where the innermost call collects nothing; the
run is the same.

## Key results

- `Yielding.Agree`: other steps that do what the program does, in a program without reflection
- `Yielding.steps`: a run with another step for the values that are yielded is the run itself
- `Yielding.run_eq`: programs
-/

namespace BrailleScript

/-! ## Programs without reflection -/

namespace Node

/-- Whether the node runs source text. -/
def isReflection : Node → Bool
  | .primitive .reflectExec _ _ => true
  | _ => false

/-- No node of the tree runs source text. -/
abbrev Unreflecting (n : Node) : Prop :=
  n.All (·.isReflection = false)

/-- The parts of a node that does not reflect do not either. -/
theorem Unreflecting.part {c n : Node} (h : n.Unreflecting) (hc : c.OccursIn n) : c.Unreflecting :=
  fun m hm => h m (hm.trans hc)

end Node

/-- The body of the function could stand in a program without reflection. -/
def FunctionDef.Unreflecting (d : FunctionDef Node) : Prop :=
  d.body.wellFormed = true ∧ ∀ n ∈ d.body.nodes, n.Unreflecting

namespace Machine

/-- The innermost open call, if there is one, collects what it yields. -/
def Collects (m : Machine) : Prop :=
  ∀ f ∈ m.frames.head?, f.yields.isSome = true

/-- Yields are collected where the innermost frame is that of a generator, or there is none. -/
theorem collects_iff {m : Machine} : m.Collects ↔ m.collecting.head? ≠ some false := by
  unfold Collects collecting
  cases m.frames with
  | nil => simp
  | cons f fs => simp [Option.isSome_iff_ne_none]

/-- The second machine has put back the control state of the first one, and the outermost calls have
yielded nothing meanwhile. -/
structure Sealed (depth : Nat) (m m' : Machine) : Prop extends m.Restored m' where
  outer : m'.frames.reverse.take depth = m.frames.reverse.take depth

namespace Sealed

variable {depth : Nat} {m m' : Machine}

/-- A restored machine with the same frames is sealed. -/
theorem of_frames (h : m.Restored m') (hframes : m'.frames = m.frames) : m.Sealed depth m' :=
  ⟨h, by rw [hframes]⟩

/-- What is sealed at a depth is sealed at every smaller one. -/
theorem mono {outer : Nat} (h : m.Sealed depth m') (hle : outer ≤ depth) : m.Sealed outer m' := by
  refine ⟨h.toRestored, ?_⟩
  have houter := congrArg (List.take outer) h.outer
  rwa [List.take_take, List.take_take, Nat.min_eq_left hle] at houter

/-- If all open calls are among the outermost ones, they are as they were. -/
theorem frames_eq (h : m.Sealed depth m') (hdepth : m.frames.length ≤ depth) :
    m'.frames = m.frames := by
  have houter := h.outer
  have hlength := h.frames.length_eq
  rw [List.take_of_length_le (by simpa [← hlength]), List.take_of_length_le (by simpa)] at houter
  exact List.reverse_inj.1 houter

/-- A value that an inner call yields does not matter. -/
theorem yielded (m : Machine) (v : Value) (h : m.collecting = [] ∨ depth < m.collecting.length) :
    m.Sealed depth { m with
      frames := m.frames.modifyHead fun f => { f with yields := f.yields.map (·.push v) } } := by
  refine ⟨.yielded m v, ?_⟩
  unfold collecting at h
  show (m.frames.modifyHead _).reverse.take depth = _
  cases hframes : m.frames with
  | nil => rfl
  | cons f fs =>
    -- the innermost frame is above the first `depth` ones
    have hle : depth ≤ fs.reverse.length := by
      rw [hframes] at h
      simpa [Nat.lt_succ_iff] using h
    rw [List.modifyHead_cons, List.reverse_cons, List.reverse_cons, List.take_append_of_le_length hle,
      List.take_append_of_le_length hle]

/-- Taking a frame off leaves the frames below it sealed. -/
theorem inFrame (frame : Frame) (stats : RunStats)
    (h : Sealed depth { m with frames := frame :: m.frames, stats } m') :
    m.Sealed depth { m' with frames := m'.frames.tail } := by
  refine ⟨.inFrame frame stats h.toRestored, ?_⟩
  -- frames are counted from the outermost one, so the last of the list is taken off
  have houter := h.outer
  have hlength := h.frames.length_eq
  show m'.frames.tail.reverse.take depth = _
  cases hframes : m'.frames with
  | nil =>
    rw [hframes] at hlength
    cases hlength
  | cons g gs =>
    rw [hframes] at houter hlength
    rw [List.reverse_cons, List.reverse_cons, List.take_append, List.take_append] at houter
    refine (List.append_inj houter ?_).1
    rw [List.length_take, List.length_take, List.length_reverse, List.length_reverse,
      Nat.succ_inj.1 hlength]

end Sealed

end Machine

/-- Putting the control state back and leaving the outermost calls as they are, in a program without
reflection. -/
def Discipline.sealing (depth : Nat) : Discipline where
  admits := FunctionDef.Unreflecting
  stops _ := True
  failed _ := trivial
  keeps := Machine.Sealed depth
  refl m := .of_frames (.refl m) rfl
  trans hab hbc := ⟨hab.toRestored.trans hbc.toRestored, hbc.outer.trans hab.outer⟩
  options h := h.options
  calls h := h.toRestored.collecting_eq
  beside hb := by
    refine .of_frames (Machine.Restored.discipline.beside hb) ?_
    obtain ⟨_, _, _, _, _, _, rfl⟩ := hb
    rfl
  child m id := .of_frames (Machine.Restored.discipline.child m id) rfl
  define m id name v constant h :=
    .of_frames (Machine.Restored.discipline.define m id name v constant h) rfl
  assign m owner name v h := .of_frames (Machine.Restored.discipline.assign m owner name v h) rfl
  yields calls := calls = [] ∨ depth < calls.length
  yielded := .yielded
  inScope id h := ⟨Machine.Restored.discipline.inScope id h.toRestored, h.outer⟩
  inFrame := .inFrame
  inReflection h := ⟨Machine.Restored.discipline.inReflection h.toRestored, h.outer⟩

namespace Yielding

open Run

section Runs

variable (yielding : Value → Run Unit)

/-- One step of an execution in which another step yields values. -/
def execStep (r : Steps) (node : Node) : Run Flow :=
  match node with
  | .yieldValue value => do
    count fun s => { s with statements := s.statements + 1 }
    yielding (← r.eval value)
    return .normal .null
  | node => Run.execStep r node

mutual

/-- Executes a statement. -/
def exec : (bound : Nat) → Node → Run Flow
  | 0, _ => throw Stop.exhausted
  | n + 1, node => execStep yielding ⟨n, exec n, eval n, call n⟩ node

/-- Evaluates an expression. -/
def eval : (bound : Nat) → Node → Run Value
  | 0, _ => throw Stop.exhausted
  | n + 1, node => Run.evalStep ⟨n, exec n, eval n, call n⟩ node

/-- Calls a value. -/
def call : (bound : Nat) → Value → List Value → Run Value
  | 0, _, _ => throw Stop.exhausted
  | n + 1, callee, args => Run.callValue ⟨n, exec n, eval n, call n⟩ callee args

end

/-- Runs the statements of a program. -/
def run (bound : Nat) (program : Node) : Run Flow :=
  sequence (exec yielding bound) .null program.statements

end Runs

open Discipline (sealing)

variable {yielding : Value → Run Unit} {o : RunOptions} {depth bound : Nat} {calls : List Bool}

/-- If the statement yields with these calls open, the innermost one collects it and is not one of
the outermost calls. -/
def Fits (depth : Nat) (calls : List Bool) (n : Node) : Prop :=
  n.containsYield = true → (calls = [] ∨ depth < calls.length) ∧ calls.head? ≠ some false

/-- A node without a yield fits everywhere. -/
theorem Fits.of_not_containsYield {n : Node} (h : n.containsYield = false) : Fits depth calls n := by
  intro hyield
  rw [h] at hyield
  cases hyield

/-- So does a well-formed expression. -/
theorem Fits.of_isExpression {n : Node} (hwf : n.wellFormed = true) (hexpr : n.isExpression = true) :
    Fits depth calls n :=
  .of_not_containsYield (Node.containsYield_of_isExpression hwf hexpr)

/-- The steps of a run at a bound. -/
abbrev stepsWithin (bound : Nat) : Steps :=
  ⟨bound, BrailleScript.exec bound, BrailleScript.eval bound, BrailleScript.call bound⟩

/-- Other steps do what the steps at a bound do, in a program without reflection. -/
structure Agree (o : RunOptions) (depth bound : Nat) (r : Steps) : Prop where
  rounds : r.rounds = bound
  exec : ∀ calls n, depth ≤ calls.length → n.wellFormed = true → n.Unreflecting →
    Fits depth calls n → (sealing depth).Safe o calls (sealing depth).AdmittedFlow
      (BrailleScript.exec bound n) (r.exec n)
  eval : ∀ calls n, depth ≤ calls.length → n.isExpression = true → n.wellFormed = true →
    n.Unreflecting → (sealing depth).Safe o calls (sealing depth).Admitted
      (BrailleScript.eval bound n) (r.eval n)
  call : ∀ calls v args, depth ≤ calls.length → (sealing depth).Admitted v →
    (∀ a ∈ args, (sealing depth).Admitted a) →
    (sealing depth).Safe o calls (sealing depth).Admitted
      (BrailleScript.call bound v args) (r.call v args)

namespace Agree

variable {r : Steps}

/-- The bodies of functions are safe. -/
theorem bodies (h : Agree o depth bound r) (hdepth : depth ≤ calls.length) :
    Discipline.Safe.Bodies (sealing depth) o calls (stepsWithin bound) r := by
  intro d hd _
  obtain ⟨hwf, hfree⟩ := hd
  have hlt : depth < (d.isGenerator :: calls).length := Nat.lt_succ_of_le hdepth
  cases hbody : d.body with
  | expr e =>
    rw [hbody] at hwf hfree
    simp only [FunctionBody.wellFormed, Bool.and_eq_true] at hwf
    exact h.eval _ e (Nat.le_of_lt hlt) hwf.1 hwf.2 (hfree e (.head _))
  | block stmts =>
    rw [hbody] at hwf hfree
    refine .bind (.sequence trivial fun n hn => ?_) fun _ hflow => .pure hflow
    refine h.exec _ n (Nat.le_of_lt hlt) (statementsWellFormed_mem hwf hn) (hfree n hn) fun hyield => ?_
    -- the search that decides whether the call collects its yields finds this one
    have hgenerator : d.isGenerator = true := by
      rw [FunctionDef.isGenerator, hbody]
      simp only [anyYield_eq]
      exact List.any_eq_true.2 ⟨n, hn, hyield⟩
    exact ⟨.inr hlt, by rw [hgenerator]; simp⟩

/-- So is everything that a well-formed node runs. -/
theorem supplied (h : Agree o depth bound r) (hdepth : depth ≤ calls.length) {n : Node}
    (hwf : n.wellFormed = true) (hfree : n.Unreflecting) (hfits : Fits depth calls n) :
    (sealing depth).Supplied o calls (stepsWithin bound) r n where
  evaluated c hc := by
    obtain ⟨hexpr, hcwf⟩ := Node.wellFormed_evaluated hwf hc
    exact h.eval calls c hdepth hexpr hcwf (hfree.part (.of_evaluated hc))
  executed c hc := by
    refine h.exec calls c hdepth (Node.wellFormed_executed hwf hc) (hfree.part (.of_executed hc)) ?_
    intro hyield
    refine hfits ?_
    -- a yield in a part is one of the whole
    rw [Node.containsYield_executed hwf, Bool.or_eq_true]
    exact .inr (List.any_eq_true.2 ⟨c, hc, hyield⟩)
  definitions d hd := ⟨Node.wellFormed_definition hwf hd, fun _ hc => hfree.part (.of_definition hd hc)⟩
  bodies := h.bodies hdepth
  call v args := h.call calls v args hdepth
  rounds _ _ _ := ⟨h.rounds, trivial⟩
  reflected args pos hn := by
    have := hfree n .self
    rw [hn] at this
    cases this
  yields value hn := (hfits (by rw [hn]; rfl)).1
  conflict _ _ _ _ _ _ := trivial

/-- One more step, if it executes and calls as the program does. -/
theorem execStep (h : Agree o depth bound r) (hdepth : depth ≤ calls.length) {n : Node}
    (hwf : n.wellFormed = true) (hfree : n.Unreflecting) (hfits : Fits depth calls n) :
    (sealing depth).Safe o calls (sealing depth).AdmittedFlow
      (BrailleScript.exec (bound + 1) n) (Run.execStep r n) := by
  refine (h.supplied hdepth hwf hfree hfits).execStep ?_
  cases hexpr : n.isExpression with
  | true => exact .inl (h.eval calls n hdepth hexpr hwf hfree)
  | false => exact .inr ⟨rfl, hwf⟩

/-- So is the evaluation of an expression. -/
theorem evalStep (h : Agree o depth bound r) (hdepth : depth ≤ calls.length) {n : Node}
    (hexpr : n.isExpression = true) (hwf : n.wellFormed = true) (hfree : n.Unreflecting) :
    (sealing depth).Safe o calls (sealing depth).Admitted
      (BrailleScript.eval (bound + 1) n) (Run.evalStep r n) :=
  (h.supplied hdepth hwf hfree (.of_isExpression hwf hexpr)).evalStep fun hno =>
    absurd hexpr (by simp [hno])

/-- Steps that do nothing are those within no bound. -/
theorem zero : Agree o depth 0
    ⟨0, fun _ => throw Stop.exhausted, fun _ => throw Stop.exhausted,
      fun _ _ => throw Stop.exhausted⟩ where
  rounds := rfl
  exec _ _ _ _ _ _ := .throw trivial
  eval _ _ _ _ _ _ := .throw trivial
  call _ _ _ _ _ _ := .throw trivial

/-- So a program does what it does, started outside of all calls. -/
theorem program {r : Steps} {m : Machine} (h : Agree m.options 0 bound r) {program : Node}
    (hprogram : program.isProgram = true) (hfree : program.Unreflecting)
    (honly : m.Only FunctionDef.Unreflecting) (hframes : m.frames = []) :
    sequence r.exec .null program.statements m =
      sequence (BrailleScript.exec bound) .null program.statements m := by
  cases program with
  | program items =>
    -- outside of all calls nothing may be yielded
    have hsafe : (sealing 0).Safe m.options [] (sealing 0).AdmittedFlow
        (sequence (BrailleScript.exec bound) .null items) (sequence r.exec .null items) :=
      .sequence trivial fun n hn => h.exec [] n (Nat.zero_le _) (statementsWellFormed_mem hprogram hn)
        (hfree.part (.child hn)) fun _ => ⟨.inl rfl, nofun⟩
    exact (hsafe m ⟨honly, rfl, congrArg (List.map _) hframes⟩).1
  | _ => cases hprogram

end Agree

/-- Where values may be yielded, the other step does the same. -/
theorem safe_yieldValue (hyielding : ∀ v m, m.Collects → yielding v m = yieldValue v m) {v : Value}
    (hv : (sealing depth).Admitted v) (hyields : (sealing depth).yields calls)
    (hhead : calls.head? ≠ some false) :
    (sealing depth).Safe o calls (fun _ => True) (yieldValue v) (yielding v) := by
  intro m hm
  refine ⟨hyielding v m ?_, (Discipline.Safe.yieldValue hyields hv m hm).2⟩
  rw [Machine.collects_iff, hm.calls]
  exact hhead

/-- A run with another step for the values that are yielded is the run itself. -/
theorem steps (hyielding : ∀ v m, m.Collects → yielding v m = yieldValue v m) (o : RunOptions)
    (depth bound : Nat) : Agree o depth bound
      ⟨bound, exec yielding bound, eval yielding bound, call yielding bound⟩ := by
  induction bound with
  | zero => exact .zero
  | succ bound ih =>
    constructor
    case rounds => rfl
    case exec =>
      intro calls n hdepth hwf hfree hfits
      -- only the yield is replaced
      by_cases hn : ∃ value, n = .yieldValue value
      · obtain ⟨value, rfl⟩ := hn
        have hyield := hfits rfl
        have hvalue := (ih.supplied hdepth hwf hfree hfits).evaluated value (.head _)
        exact .bind (.count _) fun _ _ => .bind hvalue fun v hv =>
          .bind (safe_yieldValue hyielding hv hyield.1 hyield.2) fun _ _ => .pure trivial
      · have hstep : exec yielding (bound + 1) n = Run.execStep
            ⟨bound, exec yielding bound, eval yielding bound, call yielding bound⟩ n := by
          cases n with
          | yieldValue value => exact absurd ⟨value, rfl⟩ hn
          | _ => rfl
        show (sealing depth).Safe o calls _ _ (exec yielding (bound + 1) n)
        rw [hstep]
        exact ih.execStep hdepth hwf hfree hfits
    case eval => exact fun _ _ hdepth hexpr hwf hfree => ih.evalStep hdepth hexpr hwf hfree
    case call => exact fun _ _ _ hdepth hv ha => .callValue (ih.bodies hdepth) hv ha

/-- In a program without reflection it does not matter what yielding a value would do inside a call
that does not collect it. -/
theorem run_eq (hyielding : ∀ v m, m.Collects → yielding v m = yieldValue v m) {program : Node}
    (hprogram : program.isProgram = true) (hfree : program.Unreflecting) (bound : Nat) {m : Machine}
    (honly : m.Only FunctionDef.Unreflecting) (hframes : m.frames = []) :
    run yielding bound program m = sequence (BrailleScript.exec bound) .null program.statements m :=
  (steps hyielding m.options 0 bound).program hprogram hfree honly hframes

end Yielding

end BrailleScript
