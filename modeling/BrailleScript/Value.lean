import BrailleScript.Builtin
import BrailleScript.Failure
import BrailleScript.Json
import BrailleScript.Node
import BrailleScript.Number

/-!
# Values

What expressions denote.  Arrays, maps and instances are shared and change, so their values are
references into a `Heap`; functions and classes never change and are held as they are, with a
number that tells apart two of them made by different evaluations of one expression.
-/

namespace BrailleScript

/-- The place of a scope among all scopes of a run. -/
abbrev ScopeId := Nat

/-- A class with the classes it extends. -/
inductive Class where
  | mk (id : Nat) (name : String) (methods : List (FunctionDef Node)) (parent : Option Class)
      (scope : ScopeId)

namespace Class

/-- The number of a class. -/
def id : Class → Nat
  | mk id .. => id

/-- The name of a class. -/
def name : Class → String
  | mk _ name .. => name

/-- The methods that a class declares itself. -/
def methods : Class → List (FunctionDef Node)
  | mk _ _ methods .. => methods

/-- The class that a class extends. -/
def parent : Class → Option Class
  | mk _ _ _ parent _ => parent

/-- The scope in which the class was declared. -/
def scope : Class → ScopeId
  | mk _ _ _ _ scope => scope

/-- The method that a list of definitions gives to a name; of two with one name, the later. -/
def lastNamed (name : String) (methods : List (FunctionDef Node)) : Option (FunctionDef Node) :=
  methods.reverse.find? (·.displayName == name)

/-- The method a class or its nearest ancestor declares, with the declaring class. -/
def findMethod (name : String) : Class → Option (FunctionDef Node × Class)
  | mk id className methods none scope =>
    (lastNamed name methods).map (·, mk id className methods none scope)
  | mk id className methods (some parent) scope =>
    match lastNamed name methods with
    | some method => some (method, mk id className methods (some parent) scope)
    | none => findMethod name parent

end Class

/-- The object a method was taken from, and the class that declares the method. -/
structure MethodBinding where
  receiver : Nat
  receiverClass : Class
  owner : Class

/-- A function with the scope it was made in. -/
structure Closure where
  definition : FunctionDef Node
  scope : ScopeId
  binding : Option MethodBinding

/-- What an expression comes to.  Containers are referred to by their places on the heap. -/
inductive Value where
  | null
  | bool (b : Bool)
  | number (x : Float)
  | text (s : String)
  | array (ref : Nat)
  | map (ref : Nat)
  | function (id : Nat) (closure : Closure)
  | builtin (b : Builtin)
  | classValue (c : Class)
  | object (ref : Nat) (c : Class)

instance : Inhabited Value := ⟨.null⟩

namespace Value

/-- The type of a value, as programs see it. -/
def type : Value → ValueType
  | null => .null
  | bool _ => .bool
  | number _ => .number
  | text _ => .text
  | array _ => .array
  | map _ => .map
  | function .. | builtin _ => .function
  | classValue _ => .classType
  | object .. => .object

end Value

/-- The object a binding belongs to. -/
def MethodBinding.this (b : MethodBinding) : Value :=
  .object b.receiver b.receiverClass

end BrailleScript
