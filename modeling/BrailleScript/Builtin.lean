/-!
# Built-in functions

The functions every program can call without defining them, and those that the modules `math` and
`text` bring in.
-/

namespace BrailleScript

/-- The functions that are there without a declaration. -/
inductive Builtin where
  | len | str | num | type | push | keys | range | boundary
  | sqrt | floor | ceil | abs | pow | min | max
  | upper | lower | trim | split | join | contains
  deriving Repr, DecidableEq

namespace Builtin

/-- The name under which a program finds the function. -/
def name : Builtin → String
  | len => "len"
  | str => "str"
  | num => "num"
  | type => "type"
  | push => "push"
  | keys => "keys"
  | range => "range"
  | boundary => "boundary"
  | sqrt => "sqrt"
  | floor => "floor"
  | ceil => "ceil"
  | abs => "abs"
  | pow => "pow"
  | min => "min"
  | max => "max"
  | upper => "upper"
  | lower => "lower"
  | trim => "trim"
  | split => "split"
  | join => "join"
  | contains => "contains"

/-- The number of arguments a call must have, unless any number may be given. -/
def arity? : Builtin → Option Nat
  | range | boundary | min | max => none
  | push | pow | split | join | contains => some 2
  | _ => some 1

/-- The functions bound in every program. -/
def globals : List Builtin :=
  [len, str, num, type, push, keys, range, boundary]

/-- The functions of the module `math`. -/
def mathModule : List Builtin :=
  [sqrt, floor, ceil, abs, pow, min, max]

/-- The functions of the module `text`. -/
def textModule : List Builtin :=
  [upper, lower, trim, split, join, contains]

end Builtin

end BrailleScript
