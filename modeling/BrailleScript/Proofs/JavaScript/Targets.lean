import BrailleScript.Proofs.JavaScript.Mirror
import BrailleScript.Proofs.Machine.Breaks
import BrailleScript.Proofs.Node.Writer

/-!
# What an emitted `break` leaves

Where a statement is broken off when it runs, its code jumps out of the construct around it: to the
label of the innermost switch, or without a label out of the innermost loop.  No jump with a label
leaves another block on its way than plain ones and that of the label, so none leaves a function.

## Key results

- `leavesAny_sketch`, `Mirrors.jumps`: what is broken off is emitted with a jump
- `Mirrors.aimed`: where jumps go
- `breaks_leave_alike`: programs
-/

namespace BrailleScript.JavaScript

open Run
open Sketch (AreValues Tidy)

mutual

/-- Where the jumps go that leave no more than plain blocks on their way out of a landmark. -/
def Landmark.jumps : Landmark → List (Option (List Char))
  | .jump label => [label]
  | .block .plain inside => jumpsOf inside
  | .block .loop _ | .block (.labelled _) _ | .block (.function _) _ | .binds .. | .assigns _
  | .pushes | .fails => []

/-- The targets of the jumps of landmarks in a row. -/
def jumpsOf : List Landmark → List (Option (List Char))
  | [] => []
  | mark :: rest => mark.jumps ++ jumpsOf rest

end

/-- A row jumps where its parts do. -/
theorem jumpsOf_append (m m' : List Landmark) : jumpsOf (m ++ m') = jumpsOf m ++ jumpsOf m' := by
  induction m with
  | nil => rfl
  | cons mark rest ih => rw [List.cons_append, jumpsOf, jumpsOf, ih, List.append_assoc]

/-- Where a `break` goes that leaves the block and no more. -/
def Kind.exit? : Kind → Option (Option (List Char))
  | .loop => some none
  | .labelled label => some (some label)
  | .plain | .function _ => none

/-- The jumps out of a block other than a plain one have its label, if it has one, and otherwise no
label. -/
def OwnJumps (kind : Kind) (inner : List Landmark) : Prop :=
  kind ≠ .plain → ∀ target ∈ jumpsOf inner, target = kind.exit?.join

/-! ## What is broken off -/

namespace Sketch

mutual

/-- Whether a `break` leaves more than a part of a program. -/
def leaves : Sketch → Bool
  | .leave => true
  | .scope inside => leavesAny inside
  | .bind .. | .give _ | .guard | .loop _ | .switch .. | .function .. | .value _ | .literal _
  | .refused | .turned .. => false

/-- Does a break in any of the sketches leave the construct around them? -/
def leavesAny : List Sketch → Bool
  | [] => false
  | s :: rest => s.leaves || leavesAny rest

end

/-- It does in a row when it does in either part. -/
theorem leavesAny_append (ss ts : List Sketch) :
    leavesAny (ss ++ ts) = (leavesAny ss || leavesAny ts) := by
  induction ss with
  | nil => rfl
  | cons s ss ih => rw [List.cons_append, leavesAny, leavesAny, ih, Bool.or_assoc]

end Sketch

/-- A statement that leaves makes the list that it is in leave. -/
theorem leavesAny_sketchAll {literal : String → List Sketch} (before : List Node) {s : Node}
    (after : List Node) (h : Sketch.leavesAny (sketch literal s) = true) :
    Sketch.leavesAny (sketchAll literal (before ++ s :: after)) = true := by
  induction before with
  | nil => rw [List.nil_append, sketchAll, Sketch.leavesAny_append, h, Bool.true_or]
  | cons n rest ih => rw [List.cons_append, sketchAll, Sketch.leavesAny_append, ih, Bool.or_true]

/-- Opening the blocks of a row changes nothing about it. -/
theorem leavesAny_opened {ss : List Sketch} (h : Sketch.leavesAny ss = true) :
    Sketch.leavesAny (opened ss) = true := by
  unfold opened
  split
  next inside => rwa [Sketch.leavesAny, Sketch.leavesAny, Bool.or_false, Sketch.leaves] at h
  next => exact h

/-- A case that leaves makes its switch leave. -/
theorem leavesAny_sketchCases {literal : String → List Sketch} {cases : List (SwitchCase Node)}
    {c : SwitchCase Node} (hc : c ∈ cases)
    (h : Sketch.leavesAny (sketchAll literal c.body) = true) :
    Sketch.leavesAny (sketchCases literal cases) = true := by
  induction hc with
  | head rest => simp [sketchCases, Sketch.leavesAny_append, Sketch.leavesAny, Sketch.leaves, h]
  | tail _ _ ih => simp [sketchCases, Sketch.leavesAny_append, Sketch.leavesAny, ih]

/-- What is broken off has a `break` that leaves it. -/
theorem leavesAny_sketch {bound : Nat} {n : Node} {m m' : Machine} (h : Breaks bound n m m')
    (literal : String → List Sketch) : Sketch.leavesAny (sketch literal n) = true := by
  -- from the `break` outward, through all that passes it on
  induction h with
  | here => rfl
  | block _ _ ih => simp [sketch, Sketch.leavesAny, Sketch.leaves, leavesAny_sketchAll _ _ ih]
  | thenBranch _ _ ih => simp [sketch, Sketch.leavesAny_append, ih]
  | elseBranch _ _ ih => simp [sketch, sketchOption, Sketch.leavesAny_append, ih]
  | body _ ih => simp [sketch, Sketch.leavesAny_append, ih]
  | handler _ _ _ _ ih =>
    simp [sketch, Sketch.leavesAny_append, Sketch.leavesAny, Sketch.leaves, ih]

/-! ## Where jumps go -/

/-- What leaves a part of a program is emitted as a jump out of the construct around it. -/
theorem Mirrors.jumps {around : Surroundings} {ss : List Sketch} {marks : List Landmark}
    (h : Mirrors around ss marks) (hleaves : Sketch.leavesAny ss = true) :
    around.label.map labelName ∈ jumpsOf marks := by
  -- loops, switches and functions take the jumps inside of them, and all other parts pass them on
  induction h with
  | nil => cases hleaves
  | bind hmark _ _ _ ih =>
    rw [jumpsOf_append]
    exact List.mem_append_right _ (ih hleaves)
  | leave => exact .head _
  | scope _ _ _ ihinside ih =>
    rw [Sketch.leavesAny, Bool.or_eq_true] at hleaves
    exact List.mem_append.2 (hleaves.imp ihinside ih)
  | guard _ ih => exact .tail _ (ih hleaves)
  | give _ _ _ ih | value _ _ _ _ ih | turned _ _ _ _ _ ih =>
    rw [jumpsOf_append]
    exact List.mem_append_right _ (ih hleaves)
  | loop _ _ _ _ ih | switch _ _ _ _ _ _ _ ih | function _ _ _ _ ih | literal _ _ _ _ ih
  | refused _ ih => exact ih hleaves

/-- What mirrors a row mirrors it without its first sketch. -/
theorem Mirrors.tail {around : Surroundings} {s : Sketch} {rest : List Sketch}
    {marks : List Landmark} (h : Mirrors around (s :: rest) marks) :
    ∃ m m', marks = m ++ m' ∧ Mirrors around rest m' := by
  cases h with
  | bind _ _ hrest | give _ hrest | value _ _ hrest | turned _ _ hrest => exact ⟨_, _, rfl, hrest⟩
  | leave hrest | scope _ _ hrest | guard hrest | loop _ _ hrest | switch _ _ _ _ hrest
  | function _ _ hrest | literal _ _ hrest | refused hrest => exact ⟨[_], _, rfl, hrest⟩

/-- A loop of a program is emitted as one. -/
theorem Mirrors.mem_loop {around : Surroundings} {inside ss : List Sketch} {marks : List Landmark}
    (h : Mirrors around ss marks) (hloop : .loop inside ∈ ss) :
    ∃ m, .block .loop m ∈ marks ∧ Mirrors { around with label := none } inside m := by
  induction hloop generalizing marks with
  | head =>
    cases h with
    | loop hinside => exact ⟨_, .head _, hinside⟩
  | tail _ _ ih =>
    obtain ⟨m, m', rfl, hrest⟩ := h.tail
    obtain ⟨inner, hmem, hinside⟩ := ih hrest
    exact ⟨inner, List.mem_append_right _ hmem, hinside⟩

/-- The loop or switch has a block of its own in the code, and a jump inside leaves that block. -/
def LeavesBlock (marks : List Landmark) : Prop :=
  ∃ kind inner target, .block kind inner ∈ marks ∧ kind.exit? = some target ∧
    target ∈ jumpsOf inner

/-- Code that mirrors a loop with a break inside leaves the loop's block. -/
theorem leavesBlock_loop {around : Surroundings} {inside ss : List Sketch} {marks : List Landmark}
    (h : Mirrors around ss marks) (hloop : .loop inside ∈ ss)
    (hleaves : Sketch.leavesAny inside = true) : LeavesBlock marks := by
  obtain ⟨m, hmem, hinside⟩ := h.mem_loop hloop
  exact ⟨.loop, m, none, hmem, rfl, hinside.jumps hleaves⟩

/-- A loop or a switch that a `break` leaves is emitted with a jump that leaves it. -/
theorem leavesBlock_left {bound : Nat} {n : Node} {m m' : Machine} (h : Left bound n m m')
    {literal : String → List Sketch} {around : Surroundings} {marks : List Landmark}
    (hmirrors : Mirrors around (sketch literal n) marks) : LeavesBlock marks := by
  cases h with
  | whileLoop h =>
    obtain ⟨m₁, m₂, hbody⟩ := h.breaks
    exact leavesBlock_loop hmirrors (List.mem_append_right _ (.head _))
      (leavesAny_opened (leavesAny_sketch hbody literal))
  | loop _ h =>
    obtain ⟨m₁, m₂, hbody⟩ := h.breaks
    exact leavesBlock_loop hmirrors (.head _) (leavesAny_sketch hbody literal)
  | forEach _ h =>
    obtain ⟨m₁, m₂, hbody⟩ := h.breaks
    exact leavesBlock_loop hmirrors (List.mem_append_right _ (.head _))
      (leavesAny_sketch hbody literal)
  | switch _ hchosen h =>
    rw [block_eq, inScope_eq_ok] at h
    obtain ⟨m₁, h, -⟩ := h
    -- the break is inside one statement of the branch that is taken
    obtain ⟨before, s, after, v, m₂, rfl, -, hs⟩ := sequence_broken_iff.1 h
    have hstmts := leavesAny_sketchAll before after
      (leavesAny_sketch (exec_broken_iff.1 hs) literal)
    cases hmirrors with
    | switch number hsubject hbranches =>
      refine ⟨_, _, some (labelName number), .head _, rfl, ?_⟩
      rw [List.cons_append, jumpsOf, jumpsOf_append]
      refine List.mem_append_right _ (List.mem_append_right _ (hbranches.jumps ?_))
      rw [Sketch.leavesAny_append, Bool.or_eq_true]
      obtain ⟨c, hc, heq⟩ | rfl := hchosen.mem
      · exact .inl (leavesAny_sketchCases hc (heq ▸ hstmts))
      · exact .inr (by rwa [sketchDefault, Sketch.leavesAny, Sketch.leavesAny, Bool.or_false])

/-- The jumps in the code for some parts of a program. -/
structure Aimed (around : Surroundings) (ss : List Sketch) (marks : List Landmark) : Prop where
  /-- Those that leave the parts leave the construct around them. -/
  out : ∀ target ∈ jumpsOf marks, target = around.label.map labelName
  /-- None leaves a value. -/
  values : AreValues ss → jumpsOf marks = []
  blocks : EveryBlock OwnJumps marks

namespace Aimed

variable {around : Surroundings} {ss rest : List Sketch} {head : Sketch} {m' : List Landmark}

/-- A part that no jump leaves stands in front of others. -/
theorem cons (m : List Landmark) (hm : jumpsOf m = []) (hblocks : EveryBlock OwnJumps m)
    (h : Aimed around rest m') : Aimed around (head :: rest) (m ++ m') := by
  constructor
  case out =>
    rw [jumpsOf_append, hm]
    exact h.out
  case values =>
    intro hvalues
    rw [jumpsOf_append, hm, h.values (List.forall_mem_cons.1 hvalues).2]
    rfl
  case blocks => exact hblocks.append h.blocks

/-- A statement stands in front of others. -/
theorem statement (m : List Landmark) (hhead : head.isValue = false)
    (hout : ∀ target ∈ jumpsOf m, target = around.label.map labelName)
    (hblocks : EveryBlock OwnJumps m) (h : Aimed around rest m') :
    Aimed around (head :: rest) (m ++ m') := by
  constructor
  case out =>
    rw [jumpsOf_append]
    exact List.forall_mem_append.2 ⟨hout, h.out⟩
  case values =>
    intro hvalues
    rw [hvalues head (.head _)] at hhead
    cases hhead
  case blocks => exact hblocks.append h.blocks

/-- The jumps out of what a loop or a function has between its braces. -/
theorem ownJumps {m : List Landmark} {kind : Kind} (h : Aimed around ss m)
    (hlabel : around.label = none) (hkind : kind.exit?.join = none) : OwnJumps kind m := by
  intro _ target hmem
  rw [h.out target hmem, hlabel, hkind]
  rfl

end Aimed

/-- Jumps aim at what their sketches leave. -/
theorem Mirrors.aimed {around : Surroundings} {ss : List Sketch} {marks : List Landmark}
    (h : Mirrors around ss marks) (htidy : Tidy ss) : Aimed around ss marks := by
  -- on the sketch, not on the marks: only the sketch says which parts are values, without jumps
  induction htidy generalizing around marks with
  | nil =>
    cases h
    exact ⟨nofun, fun _ => rfl, .nil⟩
  | bind hvalue _ _ ihvalue ih =>
    cases h with
    | @bind _ _ _ _ _ m _ mark hmark hinside hrest =>
      have hinside := ihvalue hinside
      have hother : ∀ kind inner, mark ≠ .block kind inner := by
        rcases hmark with rfl | rfl <;> nofun
      refine .cons (mark :: m) ?_ (.other hother hinside.blocks) (ih hrest)
      rw [jumpsOf, hinside.values hvalue]
      rcases hmark with rfl | rfl <;> rfl
  | leave _ ih =>
    cases h with
    | leave hrest =>
      exact .statement [.jump (around.label.map labelName)] rfl (fun _ => List.mem_singleton.1)
        (.other nofun .nil) (ih hrest)
  | give hvalue _ _ ihvalue ih =>
    cases h with
    | give hinside hrest =>
      have hinside := ihvalue hinside
      refine .cons _ ?_ ?_ (ih hrest)
      · split
        · exact hinside.values hvalue
        · rfl
      · split
        · exact .other nofun hinside.blocks
        · exact .other nofun .nil
  | scope _ _ ihinside ih =>
    cases h with
    | @scope _ _ _ m _ hinside _ hrest =>
      have hinside := ihinside hinside
      refine .statement [.block .plain m] rfl ?_ (.block (absurd rfl) hinside.blocks .nil) (ih hrest)
      rw [jumpsOf, Landmark.jumps, jumpsOf, List.append_nil]
      exact hinside.out
  | loop _ _ ihinside ih =>
    cases h with
    | @loop _ _ _ m _ hinside _ hrest =>
      have hinside := ihinside hinside
      exact .cons [.block .loop m] rfl (.block (hinside.ownJumps rfl rfl) hinside.blocks .nil)
        (ih hrest)
  | guarded _ _ ihinside ih =>
    cases h with
    | loop hinside _ hrest =>
      cases hinside with
      | guard hinside =>
        have hinside := ihinside hinside
        have hguard : EveryBlock OwnJumps [.block .plain [.jump none]] :=
          .block (absurd rfl) (.other nofun .nil) .nil
        have hguarded := hinside.statement _ (show Sketch.guard.isValue = false from rfl)
          (fun _ => List.mem_singleton.1) hguard
        exact .cons [_] rfl (.block (hguarded.ownJumps rfl rfl) hguarded.blocks .nil) (ih hrest)
  | switch hvalue _ _ _ _ ihsubject ihbranches ih =>
    cases h with
    | switch n hsubject hbranches _ hrest =>
      have hsubject := ihsubject hsubject
      have hbranches := ihbranches hbranches
      refine .cons [_] rfl (.block (fun _ => ?_)
        (.other nofun (hsubject.blocks.append hbranches.blocks)) .nil) (ih hrest)
      rw [List.cons_append, jumpsOf, jumpsOf_append, hsubject.values hvalue]
      exact hbranches.out
  | function _ _ ihinside ih =>
    cases h with
    | function hinside _ hrest =>
      have hinside := ihinside hinside
      refine .cons [_] rfl (.block ?_ ?_ .nil) (ih hrest)
      · unfold functionMarks
        split
        · exact fun _ => nofun
        · exact hinside.ownJumps rfl rfl
      · unfold functionMarks
        split
        · exact .other nofun (.other nofun
            (.block (hinside.ownJumps rfl rfl) hinside.blocks .nil))
        · exact hinside.blocks
  | value hvalue _ _ ihinside ih =>
    cases h with
    | value hinside _ hrest =>
      have hinside := ihinside hinside
      exact .cons _ (hinside.values hvalue) hinside.blocks (ih hrest)
  | literal _ _ ihinside ih =>
    cases h with
    | literal hinside _ hrest =>
      have hinside := ihinside hinside
      exact .cons [_] rfl (.block (hinside.ownJumps rfl rfl) hinside.blocks .nil) (ih hrest)
  | refused _ ih =>
    cases h with
    | refused hrest => exact .cons [_] rfl (.other nofun .nil) (ih hrest)
  | turned hvalue _ hvalue' _ _ ihfirst ihsecond ih =>
    cases h with
    | turned hfirst hsecond hrest =>
      have hfirst := ihfirst hfirst
      have hsecond := ihsecond hsecond
      refine .cons _ ?_ (hfirst.blocks.append hsecond.blocks) (ih hrest)
      rw [jumpsOf_append, hfirst.values hvalue, hsecond.values hvalue']
      rfl

/-! ## Programs -/

/-- What a `break` leaves, in the code of a program and when it runs.  The code mirrors the program:
a `break` has the label of the innermost switch, or none if that is a loop.  Each label is used once,
and out of each loop, switch and function come just the jumps that leave it and no more.  When the
program runs, just what has a `break` outside of all its own loops and switches is broken off, and its
code has the jump.  A loop or a switch whose body is broken off ends there, and the jump leaves its
block. -/
theorem breaks_leave_alike {tokens : List Token} {program : Node}
    (hparse : parse tokens = .ok program) (cap : Nat) :
    (∃ marks, (scan (compile (bare cap) program)).bind outline = some marks ∧
      MirrorsProgram program marks ∧ (labelsOf marks).Nodup ∧ EveryBlock OwnJumps marks) ∧
    (∀ bound n m m', exec bound n m = .ok .broken m' ↔ Breaks bound n m m') ∧
    (∀ bound n m m', Breaks bound n m m' → ∀ around marks,
      Mirrors around (sketch sketchText n) marks → around.label.map labelName ∈ jumpsOf marks) ∧
    (∀ bound n m m', Left bound n m m' → exec bound n m = .ok (.normal .null) m' ∧
      ∀ around marks, Mirrors around (sketch sketchText n) marks → LeavesBlock marks) := by
  have hprogram := parse_isProgram hparse
  refine ⟨?_, fun _ _ _ _ => exec_broken_iff,
    fun _ _ _ _ h _ _ hmirrors => hmirrors.jumps (leavesAny_sketch h _),
    fun _ _ _ _ h => ⟨h.exec_eq, fun _ _ => leavesBlock_left h⟩⟩
  -- the code is the outline of a row of marks that mirrors the program
  obtain ⟨marks, houtline, ⟨m, rfl, hmirrors, hscope⟩, hlabels⟩ := mirrors_compile hprogram cap
  have haimed : Aimed ⟨none, false⟩ _ m := hmirrors.aimed (tidy_program hprogram)
  exact ⟨_, houtline, ⟨m, rfl, hmirrors, hscope⟩, hlabels,
    .block (haimed.ownJumps rfl rfl) haimed.blocks .nil⟩

/-- Leaves a switch inside a loop, and then the loop. -/
def leaving : Node :=
  .program
    [.whileLoop (.bool true)
      (.block [.switch (.number 1) [⟨.number 1, [.breakLoop]⟩] none, .breakLoop])]

/-- A program whose breaks stand in loops and switches inside each other. -/
theorem breaks_leave_alike_leaving :
    parse leaving.written = .ok leaving ∧
      (∃ marks, (scan (compile (bare 10) leaving)).bind outline = some marks ∧
        MirrorsProgram leaving marks ∧ (labelsOf marks).Nodup ∧ EveryBlock OwnJumps marks) ∧
      (∀ bound n m m', Left bound n m m' → exec bound n m = .ok (.normal .null) m' ∧
        ∀ around marks, Mirrors around (sketch sketchText n) marks → LeavesBlock marks) := by
  have hparse : parse leaving.written = .ok leaving := rfl
  obtain ⟨hcode, -, -, hleft⟩ := breaks_leave_alike hparse 10
  exact ⟨hparse, hcode, hleft⟩

end BrailleScript.JavaScript
