import BrailleScript.Proofs.Machine.Restored
import BrailleScript.Proofs.Node.Soundness

/-!
# Runs that check what they evaluate

An evaluation takes any node: of a statement it is the value of executing it, and a malformed node,
an assignment to something that is no target and an operator that is not binary fail.  A checked run
stops before each of these.  In a machine that holds only functions of parsed programs, the checked
run of a parsed program is its run, so none of them is ever met; this goes for the programs that are
parsed and run by reflection as well.

## Key results

- `Node.not_misplaced`: a well-formed expression is nothing to stop at
- `Checked.steps`: checked steps are the steps of the machine
- `Checked.session`: a session of parsed programs only holds their functions
- `Checked.run_eq`: checked runs of programs
-/

namespace BrailleScript

/-- Evaluating the node would fail because of its form, or execute a statement. -/
def Node.misplaced : Node → Bool
  | .assign target _ _ => !Parser.isTarget target
  | .binary op _ _ _ => !op.isBinary
  | n => !n.isExpression

/-- No well-formed expression is misplaced. -/
theorem Node.not_misplaced {n : Node} (he : n.isExpression = true) (hw : n.wellFormed = true) :
    n.misplaced = false := by
  -- only assignments and operators can be misplaced
  cases n with
  | assign target value pos =>
    simp only [wellFormed, Bool.and_eq_true] at hw
    rw [misplaced, hw.1.1, Bool.not_true]
  | binary op left right pos =>
    simp only [wellFormed, Bool.and_eq_true] at hw
    rw [misplaced, hw.1.1, Bool.not_true]
  | _ => exact congrArg not he

/-! ## Checked steps -/

mutual

/-- Executes a statement. -/
def execChecked (stop : Stop) : (bound : Nat) → Node → Run Flow
  | 0, _ => throw Stop.exhausted
  | n + 1, node =>
    Run.execStep ⟨n, execChecked stop n, evalChecked stop n, callChecked stop n⟩ node

/-- Evaluates an expression, unless it is misplaced. -/
def evalChecked (stop : Stop) : (bound : Nat) → Node → Run Value
  | 0, _ => throw Stop.exhausted
  | n + 1, node =>
    if node.misplaced then throw stop
    else Run.evalStep ⟨n, execChecked stop n, evalChecked stop n, callChecked stop n⟩ node

/-- Calls a value. -/
def callChecked (stop : Stop) : (bound : Nat) → Value → List Value → Run Value
  | 0, _, _ => throw Stop.exhausted
  | n + 1, callee, args =>
    Run.callValue ⟨n, execChecked stop n, evalChecked stop n, callChecked stop n⟩ callee args

end

namespace Checked

/-- Machines hold well-formed functions only. -/
def discipline : Discipline :=
  .restoring (fun d => d.body.wellFormed = true) (fun _ => True) fun _ => trivial

/-- The steps at a bound are the checked steps. -/
structure Agree (stop : Stop) (o : RunOptions) (bound : Nat) : Prop where
  exec : ∀ calls n, n.wellFormed = true →
    discipline.Safe o calls discipline.AdmittedFlow (BrailleScript.exec bound n)
      (execChecked stop bound n)
  eval : ∀ calls n, n.isExpression = true → n.wellFormed = true →
    discipline.Safe o calls discipline.Admitted (BrailleScript.eval bound n)
      (evalChecked stop bound n)
  call : ∀ calls v args, discipline.Admitted v → (∀ a ∈ args, discipline.Admitted a) →
    discipline.Safe o calls discipline.Admitted (BrailleScript.call bound v args)
      (callChecked stop bound v args)

namespace Agree

variable {stop : Stop} {o : RunOptions} {bound : Nat}

/-- Bodies of functions run alike with and without the check. -/
theorem bodies (h : Agree stop o bound) (calls : List Bool) :
    Discipline.Safe.Bodies discipline o calls
      ⟨bound, BrailleScript.exec bound, BrailleScript.eval bound, BrailleScript.call bound⟩
      ⟨bound, execChecked stop bound, evalChecked stop bound, callChecked stop bound⟩ := by
  intro d hd _
  have hwf : d.body.wellFormed = true := hd
  -- a body is an expression or a row of statements
  cases hbody : d.body with
  | expr e =>
    rw [hbody] at hwf
    simp only [FunctionBody.wellFormed, Bool.and_eq_true] at hwf
    exact h.eval (_ :: calls) e hwf.1 hwf.2
  | block stmts =>
    rw [hbody] at hwf
    refine .bind (.sequence trivial fun n hn => ?_) fun _ hflow => .pure hflow
    exact h.exec (_ :: calls) n (statementsWellFormed_mem hwf hn)

/-- So does everything that a well-formed node runs. -/
theorem supplied (h : Agree stop o bound) (calls : List Bool) {n : Node} (hwf : n.wellFormed = true) :
    discipline.Supplied o calls
      ⟨bound, BrailleScript.exec bound, BrailleScript.eval bound, BrailleScript.call bound⟩
      ⟨bound, execChecked stop bound, evalChecked stop bound, callChecked stop bound⟩ n where
  evaluated c hc := by
    obtain ⟨hexpr, hcwf⟩ := Node.wellFormed_evaluated hwf hc
    exact h.eval calls c hexpr hcwf
  executed c hc := h.exec calls c (Node.wellFormed_executed hwf hc)
  definitions d hd := Node.wellFormed_definition hwf hd
  bodies := h.bodies calls
  call := h.call calls
  rounds _ _ _ := ⟨rfl, trivial⟩
  reflected _ _ _ lenient source program hsource c hc := by
    -- what reflection runs has been parsed too
    have hprogram := parseSource_isProgram hsource
    cases program with
    | program items => exact h.exec calls c (statementsWellFormed_mem hprogram hc)
    | _ => cases hprogram
  yields _ _ := trivial
  conflict _ _ _ _ _ _ := trivial

end Agree

/-- Checked steps are the steps of the machine. -/
theorem steps (stop : Stop) (o : RunOptions) (bound : Nat) : Agree stop o bound := by
  -- with no bound left both give up, and below it the three functions take the same step
  induction bound with
  | zero =>
    exact ⟨fun _ _ _ => .throw trivial, fun _ _ _ _ => .throw trivial,
      fun _ _ _ _ _ => .throw trivial⟩
  | succ bound ih =>
    constructor
    case exec =>
      intro calls n hwf
      refine (ih.supplied calls hwf).execStep ?_
      cases hexpr : n.isExpression with
      | true => exact .inl (ih.eval calls n hexpr hwf)
      | false => exact .inr ⟨rfl, hwf⟩
    case eval =>
      intro calls n hexpr hwf
      -- an expression is never misplaced, so the check lets it pass
      have hcheck : evalChecked stop (bound + 1) n = Run.evalStep
          ⟨bound, execChecked stop bound, evalChecked stop bound, callChecked stop bound⟩ n := by
        rw [evalChecked, Node.not_misplaced hexpr hwf]
        rfl
      rw [hcheck]
      refine (ih.supplied calls hwf).evalStep fun hno => ?_
      exact absurd hexpr (by simp [hno])
    case call =>
      intro calls v args hv ha
      exact .callValue (ih.bodies calls) hv ha

/-! ## Programs and sessions -/

/-- The statements of a program, checked and not. -/
theorem sequence_safe (stop : Stop) (o : RunOptions) (bound : Nat) (calls : List Bool) {program : Node}
    (h : program.isProgram = true) :
    discipline.Safe o calls discipline.AdmittedFlow
      (Run.sequence (exec bound) .null program.statements)
      (Run.sequence (execChecked stop bound) .null program.statements) := by
  cases program with
  | program items =>
    exact .sequence trivial fun n hn =>
      (steps stop o bound).exec calls n (statementsWellFormed_mem h hn)
  | _ => cases h

/-- A machine with well-formed definitions only keeps them so in every program. -/
theorem execute {m : Machine} (hm : m.Only discipline.admits) {program : Node}
    (h : program.isProgram = true) (bound : Nat) :
    (m.execute bound program).2.Only discipline.admits := by
  have hend := (sequence_safe .exhausted m.options bound m.collecting h m ⟨hm, rfl, rfl⟩).2
  unfold Machine.execute
  generalize Run.sequence (exec bound) .null program.statements m = e at hend
  -- however the program ends, the machine at its end is kept
  match e with
  | .ok flow m' => exact hend.1
  | .error .conflict m' | .error .exhausted m' => exact hend.1
  | .error (.failed f) m' =>
    dsimp only
    split <;> exact hend.1

/-- A session of programs only ever holds well-formed functions. -/
theorem session {m : Machine} (hm : m.Only discipline.admits) {runs : List (Nat × Node)}
    (h : ∀ run ∈ runs, run.2.isProgram = true) : (m.session runs).Only discipline.admits := by
  induction runs generalizing m with
  | nil => exact hm
  | cons run rest ih =>
    rw [List.forall_mem_cons] at h
    exact ih (execute hm h.1 run.1) h.2

/-- At every point of a session of programs, the checked run of a program is its run. -/
theorem run_eq (stop : Stop) (bound : Nat) {program : Node} (h : program.isProgram = true)
    (options : RunOptions) (ledger : Ledger) (backend : Backend) (clock : Nat → Instant)
    {runs : List (Nat × Node)} (hruns : ∀ run ∈ runs, run.2.isProgram = true) {m : Machine}
    (hm : m = (Machine.fresh options ledger backend clock).session runs) :
    Run.sequence (execChecked stop bound) .null program.statements m =
      Run.sequence (exec bound) .null program.statements m := by
  have honly : m.Only discipline.admits := hm ▸ session (.fresh options ledger backend clock) hruns
  exact (sequence_safe stop m.options bound m.collecting h m ⟨honly, rfl, rfl⟩).1

end Checked

end BrailleScript
