import BrailleScript.Backend.DryRun
import BrailleScript.Proofs.Machine.Placed

/-!
# Whose `this` it is

`this` and `super` belong to the innermost open method call, whatever function runs in it.  That is
the call of the method in which the code stands as long as functions are called at home: while the
method call in which they were made is the innermost open one.

What is said of a run is said by checks: a run obeys rules if their checks never stop it, however
they would (`Machine.Obeys`).

## Key results

- `this_is_lexical`: if functions with `this` and `super` are called at home, these are lexical
- `this_is_lexical_elsewhere`: away from home they are not
-/

namespace BrailleScript

/-- No check of the rules stops the run: it goes as it does without them. -/
def Machine.Obeys (m : Machine) (rules : Stop → Placed.Rules) (bound : Nat) (program : Node) :
    Prop :=
  ∀ stop, (∀ f, stop ≠ .failed f) →
    Placed.run (rules stop) bound program m =
      Run.sequence (exec bound) .null program.statements m

namespace Lexical

open Run Placed

variable (captured : Nat → Option MethodBinding) (stop : Stop)

/-! ## Rules -/

noncomputable section

/-- The function that is made next is one of this place. -/
def made (p : Place) : Run Unit := do
  require stop (isSame (captured (← get).heap.made) p.method)

/-- The innermost open method call is the one in which the code stands. -/
def innermostCheck (p : Place) : Run Unit := do
  require stop (isSame (← currentBinding) p.method)

/-- The function around the code was called at home. -/
def homeCheck (p : Place) : Run Unit :=
  require stop p.home

/-- Functions are made in the method calls that `captured` has for them, and something holds of the
places of `this` and `super`. -/
def rules (uses : Place → Run Unit) : Rules where
  captured := captured
  check p node :=
    match node with
    | .lambda _ | .function _ => made captured stop p
    | .this _ | .super .. => uses p
    | _ => pure ()

end

end Lexical

namespace Machine

variable (m : Machine) (captured : Nat → Option MethodBinding) (bound : Nat) (program : Node)

/-- Each function of the run, by its number, was made by code of the method call that `captured` has
for it, or outside of all methods. -/
def MadeIn : Prop :=
  m.Obeys (fun stop => Lexical.rules captured stop fun _ => pure ()) bound program

/-- Wherever the program evaluates `this` or `super`, the innermost open method call, to which they
belong, is the call of the method in which the code stands: for a function that is no method the one
in which it was made.  If the code stands outside of all methods, no method call is open. -/
def ThisIsLexical : Prop :=
  m.Obeys (fun stop => Lexical.rules captured stop (Lexical.innermostCheck stop)) bound program

/-- Wherever the program evaluates `this` or `super` in a function that is no method, the function
was called while the innermost open method call was the one in which it was made. -/
def ThisAtHome : Prop :=
  m.Obeys (fun stop => Lexical.rules captured stop (Lexical.homeCheck stop)) bound program

end Machine

namespace Lexical

open Run Placed

variable {captured : Nat → Option MethodBinding} {stop : Stop}

/-! ## How checks go together -/

/-- At home the innermost open method call is the one in which the code stands. -/
theorem innermost_of_home {stop' : Stop} {B : List (Option MethodBinding)} {p : Place}
    (hp : p.home = true → innermost B = p.method) :
    Follows stop B (homeCheck stop p) (innermostCheck stop' p) := by
  intro m hm
  have hcurrent := currentBinding_apply m
  rw [hm] at hcurrent
  unfold innermostCheck
  rw [bind_of_ok hcurrent]
  exact Follows.require (fun h => isSame_iff.2 (hp h)) m hm

/-- Rules go together if their checks of `this` and `super` do. -/
theorem follow_of_uses {stop' : Stop} {uses uses' : Place → Run Unit}
    (h : ∀ B p, (p.home = true → innermost B = p.method) →
      Follows stop B (uses p) (uses' p)) :
    (rules captured stop uses).Follow stop (rules captured stop' uses') where
  captured := rfl
  check B p hp node := by
    cases node with
    | lambda | function => exact fun m hm => Follows.require (fun h => h) m hm
    | this | super => exact h B p hp
    | _ => exact fun m hm => .inr ⟨rfl, hm⟩

/-- A run with functions at home goes together with a run with `this` and `super` lexical. -/
theorem home_follow {stop' : Stop} :
    (rules captured stop (homeCheck stop)).Follow stop
      (rules captured stop' (innermostCheck stop')) :=
  follow_of_uses fun _ _ hp => innermost_of_home hp

/-- A conflict is no failure. -/
theorem conflict_ne_failed (f : Failure) : Stop.conflict ≠ .failed f := fun h => nomatch h

/-- Nor is running out of depth. -/
theorem exhausted_ne_failed (f : Failure) : Stop.exhausted ≠ .failed f := fun h => nomatch h

/-- There is a stop that is no failure and by which a step did not end. -/
theorem exists_other_stop {α : Type} (e : Ending α) :
    ∃ stop : Stop, (∀ f, stop ≠ .failed f) ∧ ∀ m, e ≠ .error stop m := by
  by_cases h : ∃ m, e = .error .conflict m
  · obtain ⟨m, rfl⟩ := h
    exact ⟨.exhausted, exhausted_ne_failed, fun m' he => nomatch (EStateM.Result.error.inj he).1⟩
  · exact ⟨.conflict, conflict_ne_failed, fun m he => h ⟨m, he⟩⟩

end Lexical

/-- Without frames nothing is bound. -/
theorem Machine.bindings_eq_nil {m : Machine} (hm : m.frames = []) : m.bindings = [] := by
  unfold bindings
  rw [hm]
  rfl

/-! ## `this` at home -/

/-- If the functions with `this` and `super` are called at home, `this` and `super` are lexical. -/
theorem this_is_lexical {m : Machine} (hm : m.frames = []) {captured : Nat → Option MethodBinding}
    {bound : Nat} {program : Node} (h : m.ThisAtHome captured bound program) :
    m.ThisIsLexical captured bound program := by
  intro stop' _
  -- a stop that the run itself does not end with tells whether the first run is stopped
  obtain ⟨stop, hs, hne⟩ :=
    Lexical.exists_other_stop (Run.sequence (exec bound) .null program.statements m)
  rcases Placed.run_follows hs Lexical.home_follow bound program m (Machine.bindings_eq_nil hm) with
    ⟨m', hstop⟩ | ⟨heq, -⟩
  · rw [h stop hs] at hstop
    exact absurd hstop (hne m')
  · exact heq.trans (h stop hs)

/-! ## Functions away from home -/

/-- Whether a step gave a value. -/
def Ending.isOk {α : Type} : Ending α → Bool
  | .ok _ _ => true
  | .error _ _ => false

namespace Lexical

open Run Placed

variable {captured : Nat → Option MethodBinding}

/-- Rules that use places quietly follow the rules that check nothing. -/
theorem rules_follow_unchecked {stop : Stop} {uses : Place → Run Unit}
    (h : ∀ B p, Follows stop B (uses p) (pure ())) :
    (rules captured stop uses).Follow stop (unchecked captured) where
  captured := rfl
  check B p _ node := by
    cases node with
    | lambda | function => exact fun m hm => Follows.require_pure _ m hm
    | this | super => exact h B p
    | _ => exact fun m hm => .inr ⟨rfl, hm⟩

/-- A run obeys rules under which it comes to its end. -/
theorem obeys_of_isOk {m : Machine} (hm : m.frames = []) {uses : Stop → Place → Run Unit}
    (huses : ∀ stop B p, Follows stop B (uses stop p) (pure ())) {bound : Nat} {program : Node}
    (hconflict : Ending.isOk (run (rules captured .conflict (uses .conflict)) bound program m) = true)
    (hexhausted :
      Ending.isOk (run (rules captured .exhausted (uses .exhausted)) bound program m) = true) :
    m.Obeys (fun stop => rules captured stop (uses stop)) bound program := by
  intro stop hs
  have hok : Ending.isOk (run (rules captured stop (uses stop)) bound program m) = true := by
    cases stop with
    | failed f => exact absurd rfl (hs f)
    | conflict => exact hconflict
    | exhausted => exact hexhausted
  -- the checked run stops at a broken rule or is the run of the machine
  rcases run_follows hs (rules_follow_unchecked (huses stop)) bound program m
    (Machine.bindings_eq_nil hm) with ⟨m', hstop⟩ | ⟨heq, -⟩
  · rw [hstop] at hok
    exact nomatch hok
  · rw [← heq, run_unchecked]

end Lexical

/-- A machine in which nothing has run. -/
def bareMachine : Machine :=
  .fresh {} (Ledger.start "sample" {}) (Backend.dryRun "small" 64) fun n => ⟨n⟩

/-- A class whose methods use `this` and `super`, a function that they call, and a function with
`this` outside of all methods, which is called there. -/
def atHome : Node :=
  let this := Node.this .start
  let method (name : String) (value : Node) : FunctionDef Node :=
    ⟨some name, [], .block [.returnValue (some value)], false, .start⟩
  let name (s : String) := Node.identifier s .start
  .program
    [.function ⟨some "twin", ["x"], .block [.returnValue (some (.array [name "x", name "x"]))], false,
       .start⟩,
     .classDecl "A" none [method "me" (.call (name "twin") [this] .start)] .start,
     .classDecl "B" (some "A") [method "me" (.call (.super "me" .start) [] .start)] .start,
     .declare "f" (some (.lambda ⟨none, [], .expr this, false, .start⟩)) false .start,
     .tryCatch (.block [.call (name "f") [] .start]) (some "e") (.block [.print [name "e"]]),
     .print [.call (.member (.call (name "B") [] .start) "me" .start) [] .start]]

/-- A function with `this`, made outside of all methods and called in a method. -/
def borrowedThis : Node :=
  let name (s : String) := Node.identifier s .start
  .program
    [.declare "f" (some (.lambda ⟨none, [], .expr (.this .start), false, .start⟩)) false .start,
     .classDecl "A" none
       [⟨some "m", ["g"], .block [.returnValue (some (.call (name "g") [] .start))], false, .start⟩]
       .start,
     .print [.call (.member (.call (name "A") [] .start) "m" .start) [name "f"] .start]]

/-- A method that calls itself through an arrow function is called at home throughout. -/
theorem this_is_lexical_atHome :
    bareMachine.ThisAtHome (fun _ => none) 14 atHome ∧
      bareMachine.ThisIsLexical (fun _ => none) 14 atHome := by
  have hhome : bareMachine.ThisAtHome (fun _ => none) 14 atHome :=
    Lexical.obeys_of_isOk rfl (fun _ _ _ => .require_pure _) (by decide +kernel) (by decide +kernel)
  exact ⟨hhome, this_is_lexical rfl hhome⟩

/-- The function is made outside of all methods, but its `this` is not. -/
theorem this_is_lexical_elsewhere :
    bareMachine.MadeIn (fun _ => none) 14 borrowedThis ∧
      ¬bareMachine.ThisIsLexical (fun _ => none) 14 borrowedThis := by
  constructor
  · exact Lexical.obeys_of_isOk rfl (fun _ _ _ _ hm => .inr ⟨rfl, hm⟩) (by decide +kernel)
      (by decide +kernel)
  · intro h
    -- the check of `this` stops the run, which without it comes to its end
    have hchecked : Ending.isOk (Placed.run (Lexical.rules (fun _ => none) .conflict
        (Lexical.innermostCheck .conflict)) 14 borrowedThis bareMachine) = false := by
      decide +kernel
    have hok : Ending.isOk (Run.sequence (exec 14) .null borrowedThis.statements bareMachine) =
        true := by
      decide +kernel
    have hrun := congrArg Ending.isOk (h .conflict Lexical.conflict_ne_failed)
    exact Bool.noConfusion (hchecked.symm.trans (hrun.trans hok))

end BrailleScript
