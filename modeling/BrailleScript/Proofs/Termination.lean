import BrailleScript.Backend.DryRun
import BrailleScript.Proofs.Heap.Comparison
import BrailleScript.Proofs.Machine.Restored
import BrailleScript.Proofs.Node.Soundness
import BrailleScript.Proofs.Node.Writer

/-!
# Programs that end

Only a `while` loop and reflected source can run for ever.  In a program without either, every
function that a machine ever holds is one of the program's own, so all of them are free of both too,
and nesting is limited: inside a function by the size of the program, and from function to function
by the number of calls that may still be opened.  The product of the two is a bound on the steps
(`allowance`), and with any bound from there on the run is the same.

What remains is the one way to stop that is neither a result nor a failure: an item assignment to a
map whose key shows that map ends in a conflict.

## Key results

- `Node.Calm`: a program without `while` and reflection
- `Calm.steps`: within its allowance a part of a calm program runs the same at every bound
- `execution_ends`: a calm program ends
- `execution_ends_in_conflict`: it may end in a conflict
-/

namespace BrailleScript

/-- No `while` loop and no reflection stands in the tree. -/
structure Node.Calm (program : Node) : Prop where
  noWhile : ∀ condition body, ¬(Node.whileLoop condition body).OccursIn program
  noReflect : ∀ args pos, ¬(Node.primitive .reflectExec args pos).OccursIn program

/-- A node is calm when its children are, and it is no unbounded loop and reflects nothing. -/
theorem Node.Calm.of_children {n : Node} (hwhile : ∀ c b, n ≠ .whileLoop c b)
    (hreflect : ∀ args pos, n ≠ .primitive .reflectExec args pos)
    (h : n.children.Forall Node.Calm) : n.Calm := by
  have hc := List.forall_iff_forall_mem.1 h
  constructor
  case noWhile =>
    intro c b hocc
    -- what occurs is the node itself or lies in a child
    cases hocc with
    | self => exact hwhile c b rfl
    | inside hmem hin => exact (hc _ hmem).noWhile c b hin
  case noReflect =>
    intro args pos hocc
    cases hocc with
    | self => exact hreflect args pos rfl
    | inside hmem hin => exact (hc _ hmem).noReflect args pos hin

/-- An item is assigned somewhere in the tree. -/
def Node.AssignsItem (program : Node) : Prop :=
  ∃ object index pos value pos',
    (Node.assign (.index object index pos) value pos').OccursIn program

namespace Calm

/-- Machines hold functions of the program only, and no step ends because the bound is reached. -/
def discipline (program : Node) : Discipline :=
  .restoring
    (fun d => d.body.wellFormed = true ∧ ∀ n ∈ d.body.nodes, n.OccursIn program)
    (fun stop => stop ≠ .exhausted ∧ (stop = .conflict → program.AssignsItem))
    fun _ => ⟨nofun, nofun⟩

/-- What the calls that may still be opened can take. -/
noncomputable def allowance (o : RunOptions) (program : Node) (depth : Nat) : Nat :=
  (o.maxCallDepth - depth) * (2 * sizeOf program + 4)

/-- Opening a call leaves room for the body of a function. -/
theorem allowance_succ {o : RunOptions} {program : Node} {depth : Nat}
    (h : depth < o.maxCallDepth) :
    allowance o program (depth + 1) + (2 * sizeOf program + 4) = allowance o program depth := by
  unfold allowance
  rw [← Nat.succ_mul]
  congr 1
  omega

variable {program : Node} {o : RunOptions}

/-- Two bounds give the same runs of everything that they leave room for. -/
structure Room (program : Node) (o : RunOptions) (bound bound' : Nat) : Prop where
  exec : ∀ calls n, n.wellFormed = true → n.OccursIn program →
    allowance o program calls.length + 2 * sizeOf n + 1 ≤ bound →
    allowance o program calls.length + 2 * sizeOf n + 1 ≤ bound' →
    (discipline program).Safe o calls (discipline program).AdmittedFlow
      (BrailleScript.exec bound n) (BrailleScript.exec bound' n)
  eval : ∀ calls n, n.isExpression = true → n.wellFormed = true → n.OccursIn program →
    allowance o program calls.length + 2 * sizeOf n ≤ bound →
    allowance o program calls.length + 2 * sizeOf n ≤ bound' →
    (discipline program).Safe o calls (discipline program).Admitted
      (BrailleScript.eval bound n) (BrailleScript.eval bound' n)
  call : ∀ calls v args, (discipline program).Admitted v →
    (∀ a ∈ args, (discipline program).Admitted a) →
    allowance o program calls.length < bound → allowance o program calls.length < bound' →
    (discipline program).Safe o calls (discipline program).Admitted
      (BrailleScript.call bound v args) (BrailleScript.call bound' v args)

/-- The steps at a bound. -/
abbrev stepsAt (bound : Nat) : Steps :=
  ⟨bound, BrailleScript.exec bound, BrailleScript.eval bound, BrailleScript.call bound⟩

namespace Room

variable {bound bound' : Nat} {calls : List Bool}

/-- There is room for the bodies of the functions that may be called. -/
theorem bodies (h : Room program o bound bound') (hb : allowance o program calls.length ≤ bound + 1)
    (hb' : allowance o program calls.length ≤ bound' + 1) :
    Discipline.Safe.Bodies (discipline program) o calls (stepsAt bound) (stepsAt bound') := by
  intro d hd hlength
  obtain ⟨hwf, hocc⟩ := hd
  -- one more open call takes the room that is set aside for a body
  have hroom : allowance o program (d.isGenerator :: calls).length + (2 * sizeOf program + 4) =
      allowance o program calls.length := allowance_succ hlength
  have hsize (n : Node) (hn : n ∈ d.body.nodes) : sizeOf n ≤ sizeOf program :=
    (hocc n hn).sizeOf_le
  cases hbody : d.body with
  | expr e =>
    rw [hbody] at hwf hocc hsize
    have he := hsize e (.head _)
    simp only [FunctionBody.wellFormed, Bool.and_eq_true] at hwf
    exact h.eval (_ :: calls) e hwf.1 hwf.2 (hocc e (.head _)) (by omega) (by omega)
  | block stmts =>
    rw [hbody] at hwf hocc hsize
    refine .bind (.sequence trivial fun n hn => ?_) fun _ hflow => .pure hflow
    have hn' := hsize n hn
    exact h.exec (_ :: calls) n (statementsWellFormed_mem hwf hn) (hocc n hn) (by omega) (by omega)

/-- There is room for the parts of a node for which there is room one bound further up. -/
theorem supplied (h : Room program o bound bound') (hcalm : program.Calm) {n : Node}
    (hwf : n.wellFormed = true) (hocc : n.OccursIn program)
    (hb : allowance o program calls.length + 2 * sizeOf n ≤ bound + 1)
    (hb' : allowance o program calls.length + 2 * sizeOf n ≤ bound' + 1) :
    (discipline program).Supplied o calls (stepsAt bound) (stepsAt bound') n where
  evaluated c hc := by
    obtain ⟨hexpr, hcwf⟩ := Node.wellFormed_evaluated hwf hc
    have hsize := Node.sizeOf_evaluated hc
    exact h.eval calls c hexpr hcwf ((Node.OccursIn.of_evaluated hc).trans hocc) (by omega) (by omega)
  executed c hc := by
    have hsize := Node.sizeOf_executed hc
    exact h.exec calls c (Node.wellFormed_executed hwf hc) ((Node.OccursIn.of_executed hc).trans hocc)
      (by omega) (by omega)
  definitions d hd :=
    ⟨Node.wellFormed_definition hwf hd, fun _ hc => (Node.OccursIn.of_definition hd hc).trans hocc⟩
  bodies := h.bodies (by omega) (by omega)
  call v args hv ha := by
    have hpos := n.sizeOf_pos
    exact h.call calls v args hv ha (by omega) (by omega)
  -- a calm program has no unbounded loop
  rounds c b hn := absurd hocc (hn ▸ hcalm.noWhile c b)
  reflected args pos hn := absurd hocc (hn ▸ hcalm.noReflect args pos)
  yields _ _ := trivial
  conflict object index pos value pos' hn :=
    ⟨nofun, fun _ => ⟨object, index, pos, value, pos', hn ▸ hocc⟩⟩

end Room

/-- Within its allowance a part of a calm program runs the same at every bound. -/
theorem steps (hcalm : program.Calm) (bound bound' : Nat) : Room program o bound bound' := by
  -- a smaller bound on both sides leaves room for whatever is smaller
  induction bound generalizing bound' with
  | zero =>
    refine ⟨by omega, fun calls n _ _ _ hb => ?_, by omega⟩
    have hpos := n.sizeOf_pos
    omega
  | succ bound ih =>
    constructor
    case exec =>
      intro calls n hwf hocc hb hb'
      obtain ⟨bound', rfl⟩ : ∃ k, bound' = k + 1 := ⟨bound' - 1, by omega⟩
      refine ((ih bound').supplied hcalm hwf hocc (by omega) (by omega)).execStep ?_
      cases hexpr : n.isExpression with
      | true => exact .inl ((ih bound').eval calls n hexpr hwf hocc (by omega) (by omega))
      | false => exact .inr ⟨rfl, hwf⟩
    case eval =>
      intro calls n hexpr hwf hocc hb hb'
      have hpos := n.sizeOf_pos
      obtain ⟨bound', rfl⟩ : ∃ k, bound' = k + 1 := ⟨bound' - 1, by omega⟩
      refine ((ih bound').supplied hcalm hwf hocc hb hb').evalStep fun hno => ?_
      exact absurd hexpr (by simp [hno])
    case call =>
      intro calls v args hv ha hb hb'
      obtain ⟨bound', rfl⟩ : ∃ k, bound' = k + 1 := ⟨bound' - 1, by omega⟩
      exact .callValue ((ih bound').bodies (by omega) (by omega)) hv ha

/-- What every bound from here on gives. -/
noncomputable def sufficient (o : RunOptions) (program : Node) : Nat :=
  allowance o program 0 + 2 * sizeOf program + 1

/-- A calm program at its start, with two bounds that leave room for it. -/
theorem run_safe (hprogram : program.isProgram = true) (hcalm : program.Calm) {bound bound' : Nat}
    (hb : sufficient o program ≤ bound) (hb' : sufficient o program ≤ bound') :
    (discipline program).Safe o [] (discipline program).AdmittedFlow
      (Run.sequence (exec bound) .null program.statements)
      (Run.sequence (exec bound') .null program.statements) := by
  unfold sufficient at hb hb'
  cases program with
  | program items =>
    refine .sequence trivial fun n hn => ?_
    -- a statement is smaller than the program, and no call is open
    have hsize : sizeOf n < sizeOf (Node.program items) := Node.sizeOf_child hn
    exact (steps hcalm bound bound').exec [] n (statementsWellFormed_mem hprogram hn)
      (.child hn) (by rw [List.length_nil]; omega) (by rw [List.length_nil]; omega)
  | _ => cases hprogram

end Calm

/-- How a run of a program has ended: with a result, a halt or an error, or else in a conflict. -/
inductive Outcome.Ended (program : Node) : Outcome → Prop
  | finished (e : Execution) : Ended program (.finished e)
  | failed (e : Error) : Ended program (.failed e)
  | conflict (h : program.AssignsItem) : Ended program .conflict

/-- A run that keeps the discipline of a calm program has ended. -/
theorem Calm.ended {program : Node} {bound : Nat} {m : Machine}
    (h : (discipline program).Ends (discipline program).AdmittedFlow m
      (Run.sequence (exec bound) .null program.statements m)) :
    (m.execute bound program).1.Ended program := by
  unfold Machine.execute
  generalize Run.sequence (exec bound) .null program.statements m = e at h
  -- the discipline leaves out that the bound is exhausted
  match e with
  | .ok flow m' => exact .finished _
  | .error .conflict m' => exact .conflict (h.2.2.2 rfl)
  | .error .exhausted m' => exact absurd rfl h.2.2.1
  | .error (.failed f) m' =>
    dsimp only
    split
    · exact .finished _
    · exact .failed _

/-- A program without `while` and reflection ends, whatever the options, the ledger, the backend and
the clock: every bound from some bound on gives one and the same outcome, which is a result, a halt
or an error, unless an item assignment meets a conflict.  Nor does it end only because a walk over
values or scopes is cut short: such walks are the same with every larger bound. -/
theorem execution_ends {tokens : List Token} {program : Node}
    (hparse : parse tokens = .ok program) (hcalm : program.Calm) (options : RunOptions)
    (ledger : Ledger) (backend : Backend) (clock : Nat → Instant) :
    (∃ bound,
      ((Machine.fresh options ledger backend clock).execute bound program).1.Ended program ∧
      ∀ more, bound ≤ more → (Machine.fresh options ledger backend clock).execute more program =
        (Machine.fresh options ledger backend clock).execute bound program) ∧
    (∀ (h : Heap) v depth, h.size < depth →
      h.textWithin depth [] v = h.text v ∧ h.jsonWithin depth [] v = h.toJson v ∧
        ∀ target, h.readsWithin target depth [] v = h.textReads target v) ∧
    (∀ (h : Heap) v w depth, h.size * h.size < depth →
      h.equalWithin depth [] v w = h.equal v w) ∧
    ∀ (s : Scopes) name id steps, id < steps → s.findFrom name steps id = s.find? id name := by
  refine ⟨⟨Calm.sufficient options program, ?_⟩, fun h v depth hd => ?_,
    fun h v w depth hd => Heap.equalWithin_eq hd v w, fun s name id steps h => s.findFrom_eq name h⟩
  · have hready : (Calm.discipline program).Ready options []
        (Machine.fresh options ledger backend clock) :=
      ⟨.fresh options ledger backend clock, rfl, rfl⟩
    -- every bound that is sufficient gives the same run
    have hsafe {more : Nat} (hmore : Calm.sufficient options program ≤ more) :=
      Calm.run_safe (parse_isProgram hparse) hcalm (Nat.le_refl _) hmore _ hready
    refine ⟨Calm.ended (hsafe (Nat.le_refl _)).2, fun more hmore => ?_⟩
    unfold Machine.execute
    rw [(hsafe hmore).1]
  · exact ⟨Heap.textWithin_eq hd v, Heap.jsonWithin_eq hd v, fun target =>
      Heap.readsWithin_eq hd target v⟩

/-- A function called in a loop. -/
def repeatedCall : Node :=
  .program
    [.function ⟨some "f", ["x"], .block [.identifier "x" .start], false, .start⟩,
     .loop (.block [.call (.identifier "f" .start) [.number 1] .start, .breakLoop])]

/-- A program that calls itself ends at the limit for calls. -/
theorem execution_ends_repeatedCall :
    ∃ bound, ((Machine.fresh {} (Ledger.start "sample" {}) (.dryRun "small" 64)
      fun n => ⟨n⟩).execute bound repeatedCall).1.Ended repeatedCall := by
  have hparse : parse repeatedCall.written = .ok repeatedCall := rfl
  -- neither a loop nor a reflection occurs in it
  have hcalm : repeatedCall.Calm :=
    .of_children nofun nofun
      ⟨.of_children nofun nofun (.of_children nofun nofun trivial),
       .of_children nofun nofun <| .of_children nofun nofun
        ⟨.of_children nofun nofun
          ⟨.of_children nofun nofun trivial, .of_children nofun nofun trivial⟩,
         .of_children nofun nofun trivial⟩⟩
  obtain ⟨bound, hended, -⟩ :=
    (execution_ends hparse hcalm {} (.start "sample" {}) (.dryRun "small" 64) fun n => ⟨n⟩).1
  exact ⟨bound, hended⟩

/-- A map with an item under itself as the key. -/
def selfKey : Node :=
  let m := Node.identifier "m" .start
  .program
    [.declare "m" (some (.map [])) false .start,
     .assign (.index m m .start) (.number 1) .start]

/-- Without `while` and reflection a program may still end without a result, a halt or an error:
there is no bound with which this one does. -/
theorem execution_ends_in_conflict :
    parse selfKey.written = .ok selfKey ∧ selfKey.Calm ∧
      ∀ bound, ((Machine.fresh {} (Ledger.start "sample" {}) (.dryRun "small" 64)
        fun n => ⟨n⟩).execute bound selfKey).1 = if bound < 3 then .exhausted else .conflict := by
  have hm : (Node.identifier "m" .start).Calm := .of_children nofun nofun trivial
  refine ⟨rfl, .of_children nofun nofun ⟨.of_children nofun nofun ?_, ?_⟩, fun bound => ?_⟩
  · exact .of_children nofun nofun trivial
  · exact .of_children nofun nofun
      ⟨.of_children nofun nofun ⟨hm, hm⟩, .of_children nofun nofun trivial⟩
  · -- from the third bound on the conflict is met
    match bound with
    | 0 | 1 | 2 => rfl
    | _ + 3 => rfl

end BrailleScript
