import BrailleScript.Position
import BrailleScript.Symbol
import BrailleScript.Text.Quoted

/-!
# Failures of running programs

Each way a program can fail is a `Cause`; `Cause.kind` classifies it and `Cause.message` words it.
A program that catches a failure sees the text `Kind: message`.
-/

namespace BrailleScript

/-- The kinds of errors that a run can end with. -/
inductive ErrorKind where
  | unboundName | constReassignment | typeMismatch | divisionByZero | primitiveExecution
  | recursionLimit | halt
  deriving Repr, DecidableEq

namespace ErrorKind

/-- The name of a kind, as messages show it. -/
def name : ErrorKind → String
  | unboundName => "UnboundName"
  | constReassignment => "ConstReassignment"
  | typeMismatch => "TypeMismatch"
  | divisionByZero => "DivisionByZero"
  | primitiveExecution => "PrimitiveExecution"
  | recursionLimit => "RecursionLimit"
  | halt => "Halt"

/-- A `halt` passes every handler. -/
def isCatchable (k : ErrorKind) : Bool :=
  k != halt

end ErrorKind

/-- What programs call the types of their values. -/
inductive ValueType where
  | null | bool | number | text | array | map | function | classType | object
  deriving Repr, DecidableEq

/-- The name of a type, as programs see it. -/
def ValueType.name : ValueType → String
  | null => "null"
  | bool => "bool"
  | number => "number"
  | text => "string"
  | array => "array"
  | map => "map"
  | function => "function"
  | classType => "class"
  | object => "instance"

/-- What a walk over a value that contains itself was to do. -/
inductive Walk where
  | serialize | compare
  deriving Repr, DecidableEq

/-- The word for what was done to a value that contains itself. -/
def Walk.name : Walk → String
  | serialize => "serialize"
  | compare => "compare"

/-- Why a program fails. -/
inductive Cause where
  | halted
  | unbound (name : String)
  | noModule (name : String)
  | noMember (className name : String)
  | noMethodAbove (method className : String)
  | constant (name : String)
  | divisionByZero
  | callDepth (limit : Nat)
  | reflectDepth (limit : Nat)
  | inferFailed (reason : String)
  | embedFailed (reason : String)
  | searchFailed (reason : String)
  | reflectFailed (reason : String)
  | selfContaining (walk : Walk)
  | cannotExtend (className : String) (parent : ValueType)
  | yieldOutside
  | thisOutside
  | superOutside
  | noParent (className : String)
  | negation (operand : ValueType)
  | operands (op : Operator) (left right : ValueType)
  | notBinary (op : Operator)
  | malformed (message : String)
  | invalidTarget (outline : String)
  | cannotSetMember (name : String) (target : ValueType)
  | cannotIndex (target index : ValueType)
  | cannotIndexAssign (target index : ValueType)
  | outOfRange (index : String) (size : Nat)
  | lacksMember (target : ValueType) (name : String)
  | notCallable (callee : ValueType)
  | arity (builtin : String) (expected given : Nat)
  | searchDocuments (given : ValueType)
  | promptVariables (given : ValueType)
  | expectsNumber (builtin : String) (given : ValueType)
  | expectsString (builtin : String) (given : ValueType)
  | lenArgument (given : ValueType)
  | pushArgument (given : ValueType)
  | keysArgument (given : ValueType)
  | joinArgument (given : ValueType)
  | notNumeric (text : String)
  | notConvertible (given : ValueType)
  | rangeBounds (given : String)
  | rangeArity
  | rangeTooLong (size limit : Nat)
  | boundaryLabel
  | unknownDomain (name : String)
  | noNumbers (builtin : String)
  deriving Repr, DecidableEq

namespace Cause

/-- The kind to which a cause belongs. -/
def kind : Cause → ErrorKind
  | halted => .halt
  | unbound _ | noModule _ | noMember .. | noMethodAbove .. => .unboundName
  | constant _ => .constReassignment
  | divisionByZero => .divisionByZero
  | callDepth _ | reflectDepth _ => .recursionLimit
  | inferFailed _ | embedFailed _ | searchFailed _ | reflectFailed _ => .primitiveExecution
  | _ => .typeMismatch

/-- The text that explains a cause. -/
def message : Cause → String
  | halted => "program halted"
  | unbound name => "'" ++ name ++ "' is not defined"
  | noModule name => "no module named '" ++ name ++ "'"
  | noMember className name => className ++ " has no member '" ++ name ++ "'"
  | noMethodAbove method className => "no method '" ++ method ++ "' above class " ++ className
  | constant name => "cannot assign to constant '" ++ name ++ "'"
  | divisionByZero => "division by zero"
  | callDepth limit => "call depth exceeded " ++ toString limit
  | reflectDepth limit => "reflect depth exceeded " ++ toString limit
  | inferFailed reason => "infer failed: " ++ reason
  | embedFailed reason => "embed failed: " ++ reason
  | searchFailed reason => "search failed: " ++ reason
  | reflectFailed reason => "reflect: " ++ reason
  | selfContaining walk => "cannot " ++ walk.name ++ " a value that contains itself"
  | cannotExtend className parent => "class " ++ className ++ " cannot extend " ++ parent.name
  | yieldOutside => "yield outside of a function"
  | thisOutside => "'this' outside of a method"
  | superOutside => "'super' outside of a method"
  | noParent className => "class " ++ className ++ " has no parent"
  | negation operand => "unary '-' on " ++ operand.name
  | operands op left right => "'" ++ op.lexeme ++ "' on " ++ left.name ++ " and " ++ right.name
  | notBinary op => "'" ++ op.lexeme ++ "' is not a binary operator"
  | malformed message => "malformed node: " ++ message
  | invalidTarget outline => "invalid assignment target " ++ outline
  | cannotSetMember name target => "cannot set member '" ++ name ++ "' on " ++ target.name
  | cannotIndex target index => "cannot index " ++ target.name ++ " with " ++ index.name
  | cannotIndexAssign target index =>
    "cannot index-assign " ++ target.name ++ " with " ++ index.name
  | outOfRange index size =>
    "index " ++ index ++ " out of range for array of length " ++ toString size
  | lacksMember target name => target.name ++ " has no member '" ++ name ++ "'"
  | notCallable callee => callee.name ++ " is not callable"
  | arity builtin expected given =>
    "builtin `" ++ builtin ++ "` expected " ++ toString expected ++ " args, got " ++ toString given
  | searchDocuments given => "search expects an array of documents, got " ++ given.name
  | promptVariables given => "prompt expects a map of variables, got " ++ given.name
  | expectsNumber builtin given => builtin ++ " expects a number, got " ++ given.name
  | expectsString builtin given => builtin ++ " expects a string, got " ++ given.name
  | lenArgument given => "len expects a string, array or map, got " ++ given.name
  | pushArgument given => "push expects an array, got " ++ given.name
  | keysArgument given => "keys expects a map, got " ++ given.name
  | joinArgument given => "join expects an array, got " ++ given.name
  | notNumeric text => "cannot convert " ++ Text.quoted text ++ " to a number"
  | notConvertible given => "cannot convert " ++ given.name ++ " to a number"
  | rangeBounds given => "range expects safe integer bounds, got " ++ given
  | rangeArity => "range expects 1 or 2 arguments"
  | rangeTooLong size limit =>
    "range of " ++ toString size ++ " elements exceeds the limit of " ++ toString limit
  | boundaryLabel => "boundary expects a label"
  | unknownDomain name => "unknown domain " ++ Text.quoted name
  | noNumbers builtin => builtin ++ " expects at least one number"

end Cause

/-- A cause and, if known, the position of the failing expression. -/
structure Failure where
  cause : Cause
  pos : Option Pos := none
  deriving Repr, DecidableEq

namespace Failure

/-- `Kind: message`. -/
def text (f : Failure) : String :=
  f.cause.kind.name ++ ": " ++ f.cause.message

/-- Adds a position unless a more precise one is known. -/
def locate (f : Failure) (p : Pos) : Failure :=
  { f with pos := f.pos.or (some p) }

end Failure

end BrailleScript
