import BrailleScript.Machine

/-!
# Operators

The values of unary and binary operations.
-/

namespace BrailleScript.Run

/-- Whether a value is the number zero. -/
def isZero : Value → Bool
  | .number x => x == 0
  | _ => false

/-- An operation on two numbers. -/
def arithmetic (op : Operator) (f : Float → Float → Float) (l r : Value) : Run Value :=
  match l, r with
  | .number x, .number y => return .number (f x y)
  | _, _ => fail (.operands op l.type r.type)

/-- A comparison of two numbers or two texts. -/
def comparison (op : Operator) (numbers : Float → Float → Bool) (texts : String → String → Bool)
    (l r : Value) : Run Value :=
  match l, r with
  | .number x, .number y => return .bool (numbers x y)
  | .text s, .text t => return .bool (texts s t)
  | _, _ => fail (.operands op l.type r.type)

/-- The sum of two numbers, or the texts of two values of which one is a text. -/
def plus (l r : Value) : Run Value := do
  match l, r with
  | .number x, .number y => return .number (x + y)
  | .text s, _ => return .text (s ++ (← text r))
  | _, .text t => return .text ((← text l) ++ t)
  | _, _ => fail (.operands .plus l.type r.type)

/-- An operation with two operands. -/
def binary (op : Operator) (l r : Value) : Run Value :=
  match op with
  | .plus => plus l r
  | .minus => arithmetic op (· - ·) l r
  | .star => arithmetic op (· * ·) l r
  -- a zero on the right fails whatever stands on the left
  | .slash => if isZero r then fail .divisionByZero else arithmetic op (· / ·) l r
  | .percent => if isZero r then fail .divisionByZero else arithmetic op Decimal.remainder l r
  | .equal => do return .bool (← equal l r)
  | .notEqual => do return .bool (!(← equal l r))
  | .less => comparison op (· < ·) (· < ·) l r
  | .lessEqual => comparison op (· ≤ ·) (· ≤ ·) l r
  | .greater => comparison op (· > ·) (· > ·) l r
  | .greaterEqual => comparison op (· ≥ ·) (· ≥ ·) l r
  -- the parser makes `logical` nodes of these two, whose right side may be left out
  | .both => do return .bool ((← truthy l) && (← truthy r))
  | .either => do return .bool ((← truthy l) || (← truthy r))
  | .bang | .assign | .arrow | .pipe | .dot => fail (.notBinary op)

/-- An operation with one operand. -/
def unary (op : UnaryOp) (v : Value) : Run Value :=
  match op, v with
  | .not, _ => do return .bool (!(← truthy v))
  | .negate, .number x => return .number (-x)
  | .negate, _ => fail (.negation v.type)

end BrailleScript.Run
