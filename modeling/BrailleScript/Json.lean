import BrailleScript.Fields

/-!
# JSON values

Numbers are integers or floats, as they are written; values that are read have the fields of each
object in key order.
-/

namespace BrailleScript

/-- A JSON value.  Integers are kept apart from floats, and fields in their order. -/
inductive Json where
  | null
  | bool (b : Bool)
  | int (n : Int)
  | float (x : Float)
  | text (s : String)
  | array (items : List Json)
  | object (fields : List (String × Json))
  deriving Repr, Inhabited

namespace Json

/-! ## Building and taking apart

The `to` functions give a default for values of another kind. -/

/-- A value that may be missing; `null` stands for none. -/
def ofOption {α : Type} (f : α → Json) : Option α → Json
  | none => .null
  | some x => f x

/-- A natural number as an integer. -/
def ofNat (n : Nat) : Json :=
  .int n

/-- The field of an object; `null` where there is none. -/
def field (name : String) : Json → Json
  | .object fields => (fields.lookup name).getD .null
  | _ => .null

/-- The text of a value; empty for others. -/
def toText : Json → String
  | .text s => s
  | _ => ""

/-- The natural number of a value; zero for others. -/
def toNat : Json → Nat
  | .int n => n.toNat
  | _ => 0

/-- The integer of a value; zero for others. -/
def toInt : Json → Int
  | .int n => n
  | _ => 0

/-- The float of a value; zero for others. -/
def toFloat : Json → Float
  | .float x => x
  | _ => 0

/-- The boolean of a value; false for others. -/
def toBool : Json → Bool
  | .bool b => b
  | _ => false

/-- What is made of a value, unless it is `null`. -/
def toOption {α : Type} (f : Json → α) : Json → Option α
  | .null => none
  | j => some (f j)

/-- The items of a value; none for others. -/
def items : Json → List Json
  | .array xs => xs
  | _ => []

/-- The fields of a value; none for others. -/
def toFields : Json → Fields Json
  | .object fields => fields
  | _ => []

mutual

/-- The value with the fields of all objects in key order. -/
def sorted : Json → Json
  | .array items => .array (sortedItems items)
  | .object fields => .object (Fields.ofList (sortedFields fields))
  | j => j

/-- The items with sorted fields. -/
def sortedItems : List Json → List Json
  | [] => []
  | j :: rest => sorted j :: sortedItems rest

/-- The fields with sorted fields inside them. -/
def sortedFields : List (String × Json) → List (String × Json)
  | [] => []
  | (k, j) :: rest => (k, sorted j) :: sortedFields rest

end

end Json

end BrailleScript
