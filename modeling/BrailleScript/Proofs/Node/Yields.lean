import BrailleScript.Proofs.Node.Parts

/-!
# Where a tree yields

The search for the yields of a function goes through the parts that a node evaluates and executes,
and not into the functions that it defines.  In a well-formed tree a `yield` is a statement, so an
expression yields nothing.

## Key results

- `containsYield_parts`: the search, part by part
- `containsYield_of_isExpression`: expressions
- `containsYield_executed`: statements
-/

namespace BrailleScript

/-- Statements contain a yield when one of them does. -/
theorem anyYield_eq (items : List Node) : anyYield items = items.any Node.containsYield := by
  induction items with
  | nil => rw [anyYield, List.any_nil]
  | cons n rest ih => rw [anyYield, ih, List.any_cons]

/-- An optional node does when it is there and does. -/
theorem optionYield_eq (value : Option Node) :
    optionYield value = value.toList.any Node.containsYield := by
  cases value with
  | none => rw [optionYield]; rfl
  | some n => rw [optionYield, Option.toList_some, List.any_cons, List.any_nil, Bool.or_false]

/-- So does a default. -/
theorem defaultYield_eq (default : Option (List Node)) :
    defaultYield default = (default.getD []).any Node.containsYield := by
  cases default with
  | none => rw [defaultYield]; rfl
  | some items => rw [defaultYield, anyYield_eq, Option.getD_some]

/-- Cases do when one of their values or statements does. -/
theorem casesYield_eq (cases : List (SwitchCase Node)) :
    casesYield cases = ((cases.map (·.value)).any Node.containsYield ||
      (cases.flatMap (·.body)).any Node.containsYield) := by
  induction cases with
  | nil => rw [casesYield]; rfl
  | cons k rest ih =>
    rw [casesYield, ih, anyYield_eq, List.map_cons, List.flatMap_cons, List.any_cons,
      List.any_append]
    ac_rfl

/-- Entries do when one of their keys or values does. -/
theorem pairsYield_eq (pairs : List (Node × Node)) :
    pairsYield pairs = (pairs.flatMap fun p => [p.1, p.2]).any Node.containsYield := by
  induction pairs with
  | nil => rw [pairsYield]; rfl
  | cons e rest ih => simp [pairsYield, ih, Bool.or_assoc]

namespace Node

/-- Is the node itself a yield? -/
def isYield : Node → Bool
  | .yieldValue _ => true
  | _ => false

/-- To assign to a target evaluates its parts. -/
theorem containsYield_target {target : Node} (h : Parser.isTarget target = true) :
    target.containsYield = target.targetParts.any containsYield := by
  cases target with
  | identifier | member | index => simp [containsYield]
  | _ => exact absurd h Bool.false_ne_true

/-- A node contains a `yield` if it is one, or if a part that it runs itself contains one. -/
theorem containsYield_parts {n : Node} (hwf : n.wellFormed = true) :
    n.containsYield =
      (n.isYield || n.evaluated.any containsYield || n.executed.any containsYield) := by
  -- the value of an assignment is looked at before its target
  cases n with
  | program | error => exact absurd hwf (by simp [wellFormed])
  | assign target value pos =>
    simp only [wellFormed, Bool.and_eq_true] at hwf
    simp [containsYield, containsYield_target hwf.1.1, isYield, Bool.or_comm]
  | switch subject cases default =>
    simp only [containsYield, casesYield_eq, defaultYield_eq, isYield, evaluated, executed,
      List.any_cons, List.any_append, Bool.false_or, Bool.or_assoc]
  | _ =>
    simp [containsYield, anyYield_eq, optionYield_eq, pairsYield_eq, isYield, evaluated, executed,
      Bool.or_assoc]

/-- An expression executes nothing. -/
theorem executed_of_isExpression {n : Node} (h : n.isExpression = true) : n.executed = [] := by
  cases n <;> first | rfl | cases h

/-- Expressions of a well-formed tree yield nothing. -/
theorem containsYield_of_isExpression {n : Node} (hwf : n.wellFormed = true)
    (hexpr : n.isExpression = true) : n.containsYield = false := by
  induction n using below_induction with
  | node n ih =>
    have hyield : n.isYield = false := by
      cases n <;> first | rfl | cases hexpr
    -- the parts of an expression are expressions, as it executes none
    have hparts : n.evaluated.any containsYield = false := by
      refine List.any_eq_false.2 fun c hc => ?_
      obtain ⟨hcexpr, hcwf⟩ := wellFormed_evaluated hwf hc
      simp [ih c (.of_evaluated hc) hcwf hcexpr]
    rw [containsYield_parts hwf, hyield, hparts, executed_of_isExpression hexpr]
    rfl

/-- What a well-formed node evaluates contains no yield. -/
theorem containsYield_evaluated {n c : Node} (hwf : n.wellFormed = true) (hc : c ∈ n.evaluated) :
    c.containsYield = false := by
  obtain ⟨hexpr, hcwf⟩ := wellFormed_evaluated hwf hc
  exact containsYield_of_isExpression hcwf hexpr

/-- A statement yields only if it is a `yield` itself, or executes a statement that does. -/
theorem containsYield_executed {n : Node} (hwf : n.wellFormed = true) :
    n.containsYield = (n.isYield || n.executed.any containsYield) := by
  have hparts : n.evaluated.any containsYield = false :=
    List.any_eq_false.2 fun c hc => by simp [containsYield_evaluated hwf hc]
  rw [containsYield_parts hwf, hparts, Bool.or_false]

end Node

end BrailleScript
