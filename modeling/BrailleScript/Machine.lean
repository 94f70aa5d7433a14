import BrailleScript.Backend
import BrailleScript.Error
import BrailleScript.Heap.Equality
import BrailleScript.Heap.Json
import BrailleScript.Ledger
import BrailleScript.Scope

/-!
# The machine

The state in which a program runs, and `Run`, the type of its steps: functions of the state that
give a value or stop, and a new state in either case.
-/

namespace BrailleScript

/-- The limits and switches of a run. -/
structure RunOptions where
  /-- How often a `loop` goes round. -/
  maxLoopIterations : Nat := 100000
  maxCallDepth : Nat := 200
  maxReflectDepth : Nat := 8
  /-- Record calls of the program's functions in the trace. -/
  traceDeterministic : Bool := false
  lenientLiterals : Bool := false
  deriving Repr, DecidableEq

/-- What a run counts. -/
structure RunStats where
  statements : Nat := 0
  calls : Nat := 0
  primitiveCalls : Nat := 0
  loopIterations : Nat := 0
  deepestCall : Nat := 0
  deriving Repr, DecidableEq

/-- A call of a function that has not returned. -/
structure Frame where
  binding : Option MethodBinding
  /-- The values yielded so far, if the function yields values. -/
  yields : Option (Array Value)

/-- All that a run reads and changes. -/
structure Machine where
  /-- The current scope. -/
  scope : ScopeId := 0
  scopes : Scopes
  heap : Heap := {}
  options : RunOptions := {}
  ledger : Ledger
  backend : Backend
  /-- How many requests the backend has had. -/
  requests : Nat := 0
  /-- The readings of the clock. -/
  clock : Nat → Instant
  /-- How many readings have been taken. -/
  readings : Nat := 0
  output : Array String := #[]
  /-- Innermost first. -/
  frames : List Frame := []
  reflectDepth : Nat := 0
  stats : RunStats := {}

/-- Why a run stops before its end. -/
inductive Stop where
  | failed (f : Failure)
  /-- The text of a key depends on the map that is being written. -/
  | conflict
  /-- The bound on the number of steps is reached. -/
  | exhausted
  deriving Repr

/-- A step of a run. -/
abbrev Run := EStateM Stop Machine

/-- How a statement ends. -/
inductive Flow where
  | normal (v : Value)
  | returned (v : Value)
  | broken
  | continued

/-- The value of a body that ends so. -/
def Flow.value : Flow → Value
  | normal v | returned v => v
  | broken | continued => .null

namespace Machine

/-- A machine whose one scope binds the built-in functions. -/
def fresh (options : RunOptions) (ledger : Ledger) (backend : Backend) (clock : Nat → Instant) :
    Machine where
  scopes := Builtin.globals.foldl (fun s b => s.bind 0 b.name ⟨.builtin b, false⟩) Scopes.root
  options := options
  ledger := ledger
  backend := backend
  clock := clock

end Machine

namespace Run

variable {α : Type}

/-! ## Stopping -/

/-- Fails for a cause, at no place yet. -/
def fail (c : Cause) : Run α :=
  throw (.failed ⟨c, none⟩)

/-- Goes on with a result, or fails for its cause. -/
def ofExcept : Except Cause α → Run α
  | .ok a => pure a
  | .error c => fail c

/-- Gives the position to a failure that has none. -/
def located (p : Pos) (x : Run α) : Run α := fun m =>
  match x m with
  | .error (.failed f) m' => .error (.failed (f.locate p)) m'
  | r => r

/-! ## Scopes -/

/-- Runs a step in another scope and comes back, however the step ends. -/
def inScope (id : ScopeId) (x : Run α) : Run α := fun m =>
  let saved := m.scope
  match x { m with scope := id } with
  | .ok a m' => .ok a { m' with scope := saved }
  | .error e m' => .error e { m' with scope := saved }

/-- Adds a scope inside another one. -/
def childOf (id : ScopeId) : Run ScopeId := do
  let place := (← get).scopes.all.size
  modify fun m => { m with scopes := m.scopes.child id }
  return place

/-- Adds a scope inside the current one. -/
def newScope : Run ScopeId := do
  childOf (← get).scope

/-- Binds a name in a scope. -/
def define (id : ScopeId) (name : String) (v : Value) (constant : Bool) : Run Unit := do
  ofExcept ((← get).scopes.definable id name)
  modify fun m => { m with scopes := m.scopes.bind id name ⟨v, constant⟩ }

/-- Binds a name in the current scope. -/
def declare (name : String) (v : Value) (constant : Bool) : Run Unit := do
  define (← get).scope name v constant

/-- Gives a new value to the nearest variable with the name. -/
def assignName (name : String) (v : Value) : Run Unit := do
  let m ← get
  let owner ← ofExcept (m.scopes.assignable m.scope name)
  -- what can be assigned to is no constant
  modify fun m => { m with scopes := m.scopes.bind owner name ⟨v, false⟩ }

/-- The value of a name in the current scope or in one around it. -/
def lookup (name : String) : Run Value := do
  let m ← get
  ofExcept (m.scopes.get m.scope name)

/-! ## Values -/

/-- Whether a value counts as true. -/
def truthy (v : Value) : Run Bool := do
  return (← get).heap.truthy v

/-- The text of a value. -/
def text (v : Value) : Run String := do
  return (← get).heap.text v

/-- The JSON form of a value; one that contains itself has none. -/
def json (v : Value) : Run Json := do
  ofExcept ((← get).heap.toJson v)

/-- Whether two values are equal; those that contain themselves cannot be compared. -/
def equal (v w : Value) : Run Bool := do
  ofExcept ((← get).heap.equal v w)

/-- Makes something on the heap. -/
def make (f : Heap → α × Heap) : Run α := fun m =>
  let (a, heap) := f m.heap
  .ok a { m with heap }

/-- Changes the heap. -/
def update (f : Heap → Heap) : Run Unit :=
  modify fun m => { m with heap := f m.heap }

/-- A new array of some items. -/
def newArray (items : Array Value) : Run Value :=
  make (·.newArray items)

/-- A new map of some entries. -/
def newMap (entries : Fields Value) : Run Value :=
  make (·.newMap entries)

/-- A new function. -/
def newFunction (closure : Closure) : Run Value :=
  make (·.newFunction closure)

/-- A value for a JSON value, in new containers. -/
def ofJson (j : Json) : Run Value :=
  make (·.ofJson j)

/-! ## Counters, output and time -/

/-- Changes the counters. -/
def count (f : RunStats → RunStats) : Run Unit :=
  modify fun m => { m with stats := f m.stats }

/-- Counts one round of a loop. -/
def countIteration : Run Unit :=
  count fun s => { s with loopIterations := s.loopIterations + 1 }

/-- Prints a line. -/
def printLine (line : String) : Run Unit :=
  modify fun m => { m with output := m.output.push line }

/-- The next reading of the clock. -/
def now : Run Instant := do
  let m ← get
  modify fun m => { m with readings := m.readings + 1 }
  return m.clock m.readings

/-- Puts a request to the backend. -/
def ask (f : Backend → Nat → Except String α) : Run (Except String α) := do
  let m ← get
  modify fun m => { m with requests := m.requests + 1 }
  return f m.backend m.requests

/-! ## Calls -/

/-- The binding of the innermost method call. -/
def currentBinding : Run (Option MethodBinding) := do
  return (← get).frames.findSome? (·.binding)

/-- Runs a step inside a call and gives the values it yielded; the call ends however the step
does. -/
def inFrame (frame : Frame) (x : Run α) : Run (α × Array Value) := fun m =>
  let frames := frame :: m.frames
  let stats := { m.stats with deepestCall := Nat.max m.stats.deepestCall frames.length }
  match x { m with frames, stats } with
  | .ok a m' => .ok (a, (m'.frames.head?.bind (·.yields)).getD #[]) { m' with frames := m'.frames.tail }
  | .error e m' => .error e { m' with frames := m'.frames.tail }

/-- Adds a value to those that the innermost call yields. -/
def yieldValue (v : Value) : Run Unit := do
  match (← get).frames with
  | { yields := some _, .. } :: _ =>
    modify fun m => { m with frames := m.frames.modifyHead fun f =>
      { f with yields := f.yields.map (·.push v) } }
  | _ => fail .yieldOutside

/-- Runs a step one level deeper in reflection; the level is left however the step ends. -/
def inReflection (x : Run α) : Run α := fun m =>
  match x { m with reflectDepth := m.reflectDepth + 1 } with
  | .ok a m' => .ok a { m' with reflectDepth := m'.reflectDepth - 1 }
  | .error e m' => .error e { m' with reflectDepth := m'.reflectDepth - 1 }

/-! ## The ledger -/

/-- The thread on which programs run. -/
def mainThread : ThreadId := 0

/-- Does something with the ledger at the present time. -/
def record (f : Ledger → Instant → α × Ledger) : Run α := do
  let t ← now
  modifyGet fun m =>
    let (a, ledger) := f m.ledger t
    (a, { m with ledger })

/-- Closes a call with its output. -/
def closeCall (started : Instant) (id : Nat) (c : Call) (output : Json) : Run Unit :=
  record fun l t => ((), l.succeed mainThread t (started.millisTo t) id c output)

/-- Closes a call with a failure. -/
def closeFailed (started : Instant) (id : Nat) (f : Failure) : Run Unit :=
  record fun l t => ((), l.fail mainThread (started.millisTo t) id f.text)

/-- Runs the executor of an open call and closes the call. -/
def closing (started : Instant) (id : Nat) (c : Call) (executor : Run (α × Json)) : Run α := fun m =>
  match executor m with
  | .ok (a, output) m' => (closeCall started id c output *> pure a) m'
  | .error (.failed f) m' => (closeFailed started id f *> throw (Stop.failed f)) m'
  -- a run that breaks off leaves its calls open
  | .error e m' => .error e m'

/-- Makes a call under the eyes of the ledger: `executor` gives its result and the JSON value that
is recorded and kept; `replay` gives the result of a call that the cache answers. -/
def observe (c : Call) (replay : Json → α) (executor : Run (α × Json)) : Run α := do
  match ← record fun l t => l.openCall mainThread t c with
  | .hit output _ => return replay output
  -- the latency counts from behind the look into the cache
  | .pending id => closing (← now) id c executor

end Run

end BrailleScript
