import BrailleScript.Backend.Similarity
import BrailleScript.Machine
import BrailleScript.Readable
import BrailleScript.Template

/-!
# Calling primitives

Each primitive turns its arguments into the JSON value that identifies the call and makes the call
under the eyes of the ledger.  Pipelines and reflection run more of the program: they are given
the functions that call a value and that run statements.
-/

namespace BrailleScript.Run

/-- The text of an argument; the empty text if it is missing. -/
def argText : Option Value → Run String
  | some v => text v
  | none => return ""

/-- Where a call stands in the source. -/
def placeOf (p : Pos) : Fields Json :=
  [("col", .ofNat p.col), ("line", .ofNat p.line)]

/-- A float as JSON; what is not finite becomes `null`. -/
def floatJson (x : Float) : Json :=
  if x.isFinite then .float x else .null

/-- Makes a call whose result is the JSON value that is kept. -/
def observeJson (c : Call) (executor : Run Json) : Run Value := do
  let j ← observe c id do
    let output ← executor
    return (output, output)
  ofJson j

/-! ## Text and vectors -/

/-- The model that a call names. -/
def modelArg (backend : Backend) : Option Value → String
  | some (.text s) => s
  | _ => backend.model

/-- The bound that a call gives; it is a positive number of 32 bits. -/
def maxTokensArg (backend : Backend) : Option Value → Nat
  | some (.number x) => if 1 ≤ x then Decimal.clampNat (UInt32.size - 1) x else backend.maxTokens
  | _ => backend.maxTokens

/-- The model and the bound of a text generation, from its arguments. -/
def inferSettings (args : List Value) : Run (String × Nat) := do
  let backend := (← get).backend
  return (modelArg backend args[1]?, maxTokensArg backend args[2]?)

/-- Asks the backend for a text. -/
def infer (args : List Value) (pos : Pos) : Run Value := do
  let prompt ← argText args.head?
  let (model, maxTokens) ← inferSettings args
  let call : Call :=
    { primitive := .infer
      -- the key of the cache is made from these, and not from the position
      args := .array [.text prompt, .text model, .ofNat maxTokens]
      model := some model
      metadata := placeOf pos }
  observeJson call do
    match ← ask fun b n => b.infer n prompt model maxTokens with
    | .ok answer => return .text answer
    | .error reason => fail (.inferFailed reason)

/-- Asks the backend for a vector. -/
def embed (args : List Value) (pos : Pos) : Run Value := do
  let source ← argText args.head?
  let call : Call :=
    { primitive := .embed, args := .array [.text source], metadata := placeOf pos }
  observeJson call do
    match ← ask fun b n => b.embed n source with
    | .ok vector => return .array (vector.map floatJson)
    | .error reason => fail (.embedFailed reason)

/-! ## Templates -/

/-- The text of a variable of a template. -/
def templateValue? (heap : Heap) (vars : Value) (name : String) : Option String :=
  match vars with
  | .map ref => ((heap.entries ref).get? name).map heap.text
  | .object ref _ => ((heap.fields ref).get? name).map heap.text
  | _ => none

/-- Fills the entries of a map, or the fields of an object, into a template. -/
def fillTemplate (template : String) (vars : Value) : Run Json := do
  let heap := (← get).heap
  match vars with
  | .map _ | .object .. | .null => return .text (Template.fill (templateValue? heap vars) template)
  | _ => fail (.promptVariables vars.type)

/-- Makes a prompt of a template and its variables. -/
def promptTemplate (args : List Value) (pos : Pos) : Run Value := do
  let template ← argText args.head?
  let vars := args[1]?.getD .null
  let call : Call :=
    { primitive := .promptTemplate
      args := .array [.text template, ← json vars]
      metadata := placeOf pos }
  observeJson call (fillTemplate template vars)

/-! ## Search -/

/-- How many documents a search gives when it is not said. -/
def defaultSearchCount : Nat := 3

/-- How many documents a search gives. -/
def searchCount : Option Value → Nat
  | some (.number x) => if 0 ≤ x then Decimal.clampNat (UInt64.size - 1) x else defaultSearchCount
  | _ => defaultSearchCount

/-- The documents that are searched. -/
def searchDocuments : Option Value → Run (List Value)
  | some (.array ref) => do return ((← get).heap.items ref).toList
  | some v => fail (.searchDocuments v.type)
  | none => return []

/-- Puts a request of a search to the backend. -/
def askSearch {α : Type} (f : Backend → Nat → Except String α) : Run α := do
  match ← ask f with
  | .ok a => return a
  | .error reason => fail (.searchFailed reason)

/-- The documents nearest to a query. -/
def rankDocuments (query : String) (docs : List Value) (k : Nat) : Run Json := do
  let q ← askSearch fun b n => b.embed n query
  -- each document is a request of its own
  let ranked ← docs.mapM fun doc => do
    let source ← text doc
    let rank ← askSearch fun b n => (b.embed n source).map (b.documentRank n query source q)
    return (rank, doc)
  return .array (← (Backend.topRanked k ranked).mapM json)

/-- Searches documents for those nearest to a query. -/
def semanticSearch (args : List Value) (pos : Pos) : Run Value := do
  let query ← argText args.head?
  let docs ← searchDocuments args[1]?
  let k := searchCount args[2]?
  let call : Call :=
    { primitive := .semanticSearch
      args := .array [.text query, .array (← docs.mapM json), .ofNat k]
      metadata := placeOf pos }
  observeJson call (rankDocuments query docs k)

/-! ## Pipelines and reflection -/

/-- Makes a call that is never answered from the cache and gives a value of the program. -/
def observeValue (c : Call) (executor : Run Value) : Run Value :=
  observe c (fun _ => .null) do
    let v ← executor
    return (v, ← json v)

/-- Calls each stage with the result of the one before it. -/
def pipeCompose (call : Value → List Value → Run Value) (args : List Value) (pos : Pos) :
    Run Value := do
  let seed := args.head?.getD .null
  let stages := args.tail
  let request : Call :=
    { primitive := .pipeCompose
      args := .array (← (seed :: stages).mapM json)
      metadata := placeOf pos }
  observeValue request (stages.foldlM (fun v stage => call stage [v]) seed)

/-- Runs source text in the current scope. -/
def reflect (run : List Node → Run Flow) (source : String) : Run Value := do
  let m ← get
  if m.options.maxReflectDepth ≤ m.reflectDepth then
    fail (.reflectDepth m.options.maxReflectDepth)
  else
    match parseSource m.options.lenientLiterals (Readable.toCells source) with
    | .error e => fail (.reflectFailed e.text)
    | .ok program => return (← inReflection (run program.statements)).value

/-- Runs a source text as a part of the program. -/
def reflectExec (run : List Node → Run Flow) (args : List Value) (pos : Pos) : Run Value := do
  let source ← argText args.head?
  let request : Call :=
    { primitive := .reflectExec, args := .array [.text source], metadata := placeOf pos }
  observeValue request (reflect run source)

/-- Calls a primitive. -/
def callPrimitive (call : Value → List Value → Run Value) (run : List Node → Run Flow)
    (p : Primitive) (args : List Value) (pos : Pos) : Run Value := do
  count fun s => { s with primitiveCalls := s.primitiveCalls + 1 }
  match p with
  | .infer => infer args pos
  | .embed => embed args pos
  | .promptTemplate => promptTemplate args pos
  | .pipeCompose => pipeCompose call args pos
  | .reflectExec => reflectExec run args pos
  | .semanticSearch => semanticSearch args pos

end BrailleScript.Run
