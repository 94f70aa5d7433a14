import BrailleScript.Proofs.Node.Plan

/-!
# The nesting counter

A level counts the nesting down, and has no parsers left when it comes to nothing.  A parser can as
well carry a counter along: one call goes up by one, comes back down however it ends, and is refused
when the counter is at its limit.  Here the plans of the grammar are run with such a counter, and
come to what the levels come to.

## Key results

- `Plan.count_keeps`, `Plan.Describes.count_keeps`: what holds of the calls of a plan holds of the
  plan, and of the parser that it describes
- `guarded_keeps`: the guarded parsers, one call in the other, come to what the levels come to,
  leave the counter as they find it, and never raise it above the limit
-/

namespace BrailleScript

namespace Parser

/-- How deep the calls are nested, and how deep they have been at most. -/
structure Counter where
  depth : Nat
  highest : Nat

namespace Counter

/-- One level deeper. -/
def enter (c : Counter) : Counter :=
  ⟨c.depth + 1, max c.highest (c.depth + 1)⟩

/-- One level back. -/
def leave (c : Counter) : Counter :=
  { c with depth := c.depth - 1 }

/-- Entering counts one level. -/
@[simp] theorem enter_depth (c : Counter) : c.enter.depth = c.depth + 1 := rfl

/-- Leaving takes one back. -/
@[simp] theorem leave_depth (c : Counter) : c.leave.depth = c.depth - 1 := rfl

/-- The counter is not above the limit and has never been. -/
structure Within (c : Counter) : Prop where
  depth : c.depth ≤ maxNesting
  highest : c.highest ≤ maxNesting

/-- Entering stays within the limit when there is a level left. -/
theorem Within.enter {c : Counter} (hc : c.Within) (h : c.depth < maxNesting) : c.enter.Within :=
  ⟨h, Nat.max_le.2 ⟨hc.highest, h⟩⟩

/-- Leaving does always. -/
theorem Within.leave {c : Counter} (hc : c.Within) : c.leave.Within :=
  ⟨Nat.le_trans (Nat.sub_le c.depth 1) hc.depth, hc.highest⟩

end Counter

/-- A parser that counts: the counter is there after an error, too. -/
def Counted (α : Type) : Type :=
  List Token → Counter → Except SyntaxError (α × List Token) × Counter

variable {α : Type}

/-- The parser one level deeper, or an error at the limit. -/
def nested (f : Counted Node) : Counted Node := fun s c =>
  if maxNesting ≤ c.depth then
    ((failHere ("nesting deeper than " ++ toString maxNesting ++ " levels")).run s, c)
  else
    let (outcome, c') := f s c.enter
    (outcome, c'.leave)

/-- The plan with a counter, with `calls` for the parsers further in. -/
def Plan.count (calls : Guarded → Counted Node) : Plan α → Counted α
  | done x => fun s c => (.ok (x, s), c)
  | tokens p next => fun s c =>
    match p.run s with
    | .ok (x, s') => (next x).count calls s' c
    | .error e => (.error e, c)
  | call g next => fun s c =>
    match calls g s c with
    | (.ok (n, s'), c') => (next n).count calls s' c'
    | (.error e, c') => (.error e, c')

/-- The guarded parsers by their plans, with at most `fuel` calls in one another. -/
def guarded (plans : Guarded → Plan Node) : Nat → Guarded → Counted Node
  | 0, _ => fun s c => (stalled.run s, c)
  | fuel + 1, g => nested ((plans g).count (guarded plans fuel))

/-- With less than `fuel` levels left, the counting parser comes to what `P` comes to with as many
levels.  The counter is as before, and has not been above the limit. -/
def Counted.Keeps (f : Counted α) (fuel : Nat) (P : Level → Parser α) : Prop :=
  ∀ s (c : Counter), c.Within → maxNesting - c.depth < fuel →
    ∃ c' : Counter, f s c = ((P (Level.at (maxNesting - c.depth))).run s, c') ∧
      c'.depth = c.depth ∧ c'.Within

/-- A counted plan is the plan at the depth that is counted. -/
theorem Plan.count_keeps {calls : Guarded → Counted Node} {fuel : Nat}
    (hcalls : ∀ g, (calls g).Keeps fuel fun inner => inner.parser g) (plan : Plan α) :
    (plan.count calls).Keeps fuel fun inner => plan.run inner := by
  induction plan with
  | done x => exact fun s c hc _ => ⟨c, rfl, rfl, hc⟩
  | tokens p next ih =>
    intro s c hc hfuel
    simp only [count, run, StateT.run_bind]
    cases p.run s with
    | error e => exact ⟨c, rfl, rfl, hc⟩
    | ok r => exact ih r.1 r.2 c hc hfuel
  | call g next ih =>
    intro s c hc hfuel
    obtain ⟨c', heq, hdepth, hc'⟩ := hcalls g s c hc hfuel
    simp only [count, run, StateT.run_bind, heq]
    cases ((Level.at (maxNesting - c.depth)).parser g).run s with
    | error e => exact ⟨c', rfl, hdepth, hc'⟩
    | ok r =>
      -- the counter is where it was, so the levels that are left are the same
      obtain ⟨c'', heq', hdepth', hc''⟩ := ih r.1 r.2 c' hc' (hdepth ▸ hfuel)
      exact ⟨c'', hdepth ▸ heq', hdepth'.trans hdepth, hc''⟩

/-- So it is the parser that the plan describes. -/
theorem Plan.Describes.count_keeps {P : Level → Parser α} {plan : Plan α} (h : plan.Describes P)
    {calls : Guarded → Counted Node} {fuel : Nat}
    (hcalls : ∀ g, (calls g).Keeps fuel fun inner => inner.parser g) :
    (plan.count calls).Keeps fuel P := by
  obtain rfl : (fun inner => plan.run inner) = P := funext h
  exact plan.count_keeps hcalls

/-- Where no level is left, every guarded parser fails. -/
theorem Level.none_parser (g : Guarded) : Level.none.parser g =
    failHere ("nesting deeper than " ++ toString maxNesting ++ " levels") := by
  cases g <;> rfl

/-- Otherwise it is its rule, one level deeper. -/
theorem Level.at_parser (depth : Nat) (g : Guarded) :
    (Level.at (depth + 1)).parser g = g.rule (Level.at depth) := by
  cases g <;> rfl

/-- With enough fuel a counted parser is the guarded one. -/
theorem guarded_keeps {plans : Guarded → Plan Node} (hplans : ∀ g, (plans g).Describes g.rule)
    (fuel : Nat) (g : Guarded) : (guarded plans fuel g).Keeps fuel fun inner => inner.parser g := by
  induction fuel generalizing g with
  | zero => exact fun s c _ hfuel => absurd hfuel (Nat.not_lt_zero _)
  | succ fuel ih =>
    intro s c hc hfuel
    dsimp only
    rw [guarded, nested]
    by_cases hlimit : maxNesting ≤ c.depth
    · -- no level is left
      rw [if_pos hlimit, Nat.sub_eq_zero_of_le hlimit, Level.at, Level.none_parser]
      exact ⟨c, rfl, rfl, hc⟩
    · have hlevel : maxNesting - c.depth = maxNesting - (c.depth + 1) + 1 := by omega
      obtain ⟨c', heq, hdepth, hc'⟩ := (hplans g).count_keeps ih s c.enter
        (hc.enter (Nat.lt_of_not_le hlimit)) (by rw [Counter.enter_depth]; omega)
      rw [if_neg hlimit, heq, Counter.enter_depth, hlevel, Level.at_parser]
      refine ⟨c'.leave, rfl, ?_, hc'.leave⟩
      rw [Counter.leave_depth, hdepth, Counter.enter_depth, Nat.add_sub_cancel]

end Parser

end BrailleScript
