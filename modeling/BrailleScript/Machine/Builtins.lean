import BrailleScript.Decimal.Reading
import BrailleScript.Machine
import BrailleScript.Text.Blank
import BrailleScript.Text.Letter
import BrailleScript.Text.Search

/-!
# Calling built-in functions

What the built-in functions do with their arguments, and the contents of the modules.
-/

namespace BrailleScript.Run

/-! ## Arguments -/

/-- The number that a function expects. -/
def numberArg (b : Builtin) : Value → Run Float
  | .number x => return x
  | v => fail (.expectsNumber b.name v.type)

/-- The text that a function expects. -/
def textArg (b : Builtin) : Value → Run String
  | .text s => return s
  | v => fail (.expectsString b.name v.type)

/-! ## Functions of every program -/

/-- How many characters, items or entries a value has. -/
def len (v : Value) : Run Value := do
  let heap := (← get).heap
  match v with
  | .text s => return .number (Float.ofNat s.length)
  | .array ref => return .number (Float.ofNat (heap.items ref).size)
  | .map ref => return .number (Float.ofNat (heap.entries ref).length)
  | _ => fail (.lenArgument v.type)

/-- The number that a value stands for; a text is read without the blanks around it. -/
def toNumber : Value → Run Value
  | .number x => return .number x
  | .bool b => return .number (if b then 1 else 0)
  | .null => return .number 0
  | .text s =>
    match Decimal.read? (Text.trim s) with
    | some x => return .number x
    | none => fail (.notNumeric s)
  | v => fail (.notConvertible v.type)

/-- Adds an item to an array and gives its new size. -/
def push (v item : Value) : Run Value := do
  match v with
  | .array ref =>
    update (·.pushItem ref item)
    return .number (Float.ofNat ((← get).heap.items ref).size)
  | _ => fail (.pushArgument v.type)

/-- The keys of a map, or the names of an object's fields, as an array. -/
def keys (v : Value) : Run Value := do
  let heap := (← get).heap
  match v with
  | .map ref => newArray ((heap.entries ref).keys.map Value.text).toArray
  | .object ref _ => newArray ((heap.fields ref).keys.map Value.text).toArray
  | _ => fail (.keysArgument v.type)

/-- The longest array of numbers in a row. -/
def maxRangeLength : Nat := 1000000

/-- The bounds of an array of numbers in a row are integers that floats tell apart. -/
def rangeBound (v : Value) : Run Int := do
  let x ← numberArg .range v
  if Decimal.isIntegral x && (Decimal.truncate x).natAbs ≤ Decimal.maxExact then return Decimal.truncate x
  else fail (.rangeBounds (Number.text x))

/-- The numbers from `start` up to `stop`, which is not among them. -/
def rangeFrom (start stop : Int) : Run Value :=
  -- nothing lies between bounds that do not ascend
  let size := (stop - start).toNat
  if maxRangeLength < size then fail (.rangeTooLong size maxRangeLength)
  else newArray (Array.ofFn fun (i : Fin size) => .number (Float.ofInt (start + i.val)))

/-- The whole numbers from a bound up to another one, which is left out. -/
def range : List Value → Run Value
  | [stop] => do rangeFrom 0 (← rangeBound stop)
  | [start, stop] => do
    let first ← rangeBound start
    rangeFrom first (← rangeBound stop)
  | _ => fail .rangeArity

/-- The domain named by the optional second argument of a boundary. -/
def boundaryDomain : List Value → Run Domain
  | [] => return .deterministic
  | v :: _ => do
    let name ← textArg .boundary v
    match Domain.ofName? name with
    | some d => return d
    | none => fail (.unknownDomain name)

/-- Marks a boundary in the trace. -/
def boundary : List Value → Run Value
  | [] => fail .boundaryLabel
  | v :: rest => do
    let label ← text v
    let domain ← boundaryDomain rest
    let _ ← record fun l t => l.markBoundary t label domain
    return .null

/-! ## The module `math` -/

/-- A function of one number. -/
def mapNumber (b : Builtin) (f : Float → Float) (v : Value) : Run Value := do
  return .number (f (← numberArg b v))

/-- A number to the power of another. -/
def power (base exponent : Value) : Run Value := do
  let x ← numberArg .pow base
  return .number (x.pow (← numberArg .pow exponent))

/-- The smaller of two numbers; a number rather than none. -/
def smaller (x y : Float) : Float :=
  if x.isNaN || y < x then y else x

/-- The larger of two numbers; a number rather than none. -/
def larger (x y : Float) : Float :=
  if x.isNaN || x < y then y else x

/-- Combines numbers from left to right. -/
def foldNumbers (b : Builtin) (f : Float → Float → Float) : List Value → Run Value
  | [] => fail (.noNumbers b.name)
  | v :: rest => do
    let first ← numberArg b v
    return .number (← rest.foldlM (fun x w => return f x (← numberArg b w)) first)

/-! ## The module `text` -/

/-- A function of one text. -/
def mapText (b : Builtin) (f : String → String) (v : Value) : Run Value := do
  return .text (f (← textArg b v))

/-- The parts of a text between separators; without a separator, its characters. -/
def split (v separator : Value) : Run Value := do
  let s ← textArg .split v
  let sep ← textArg .split separator
  newArray ((Text.splitAt s sep).map Value.text).toArray

/-- The texts of some items, with a separator between them. -/
def join (v separator : Value) : Run Value := do
  let sep ← textArg .join separator
  let heap := (← get).heap
  match v with
  | .array ref => return .text (sep.intercalate ((heap.items ref).toList.map heap.text))
  | _ => fail (.joinArgument v.type)

/-- Whether a text has another one in it. -/
def containsText (v part : Value) : Run Value := do
  let s ← textArg .contains v
  return .bool (Text.contains s (← textArg .contains part))

/-! ## Calls -/

/-- The result of a built-in function. -/
def applyBuiltin (b : Builtin) (args : List Value) : Run Value :=
  match b, args with
  | .len, [v] => len v
  | .str, [v] => do return .text (← text v)
  | .num, [v] => toNumber v
  | .type, [v] => return .text v.type.name
  | .push, [v, item] => push v item
  | .keys, [v] => keys v
  | .range, _ => range args
  | .boundary, _ => boundary args
  | .sqrt, [v] => mapNumber b Float.sqrt v
  | .floor, [v] => mapNumber b Float.floor v
  | .ceil, [v] => mapNumber b Float.ceil v
  | .abs, [v] => mapNumber b Float.abs v
  | .pow, [base, exponent] => power base exponent
  | .min, _ => foldNumbers b smaller args
  | .max, _ => foldNumbers b larger args
  | .upper, [v] => mapText b Text.upper v
  | .lower, [v] => mapText b Text.lower v
  | .trim, [v] => mapText b Text.trim v
  | .split, [v, separator] => split v separator
  | .join, [v, separator] => join v separator
  | .contains, [v, part] => containsText v part
  -- not met in a run: `callBuiltin` has counted the arguments
  | _, _ => fail (.arity b.name (b.arity?.getD args.length) args.length)

/-- The number `π`. -/
def pi : Float := 3.141592653589793

/-- The members of a module. -/
def moduleMembers? (name : String) : Option (List (String × Value)) :=
  let functions (bs : List Builtin) : List (String × Value) := bs.map fun b => (b.name, .builtin b)
  if name = "math" then some (functions Builtin.mathModule ++ [("pi", .number pi)])
  else if name = "text" then some (functions Builtin.textModule)
  else none

/-- A new map of the members of a module. -/
def loadModule (name : String) : Run Value :=
  match moduleMembers? name with
  | some members => newMap (Fields.ofList members)
  | none => fail (.noModule name)

end BrailleScript.Run
