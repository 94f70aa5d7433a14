import BrailleScript.Instant
import BrailleScript.Ledger.Bundle
import BrailleScript.Ledger.Log
import BrailleScript.Text.Shorten

/-!
# The ledger

A record of every call of a primitive.  A call is opened with `openCall`, which answers from the
cache or appends a pending node, and closed with `succeed` or `fail`, which complete that node.
Between the two other calls may be opened, on the same thread inside it or on other threads; the
parent of a new node is the innermost call open on its own thread.  Time is an argument of every
operation.
-/

namespace BrailleScript

/-- The settings of a ledger. -/
structure LedgerConfig where
  cacheEnabled : Bool := true
  maxCacheEntries : Nat := 1024
  /-- Without a time to live entries stay until they are evicted. -/
  cacheTtlSecs : Option Nat := none
  /-- How many characters of inputs and outputs a node keeps. -/
  truncateLen : Nat := 80
  inputCostPer1k : Float := 0.0005
  outputCostPer1k : Float := 0.0015

/-- What a ledger counts. -/
structure LedgerStats where
  calls : Nat := 0
  cacheHits : Nat := 0
  cacheMisses : Nat := 0
  errors : Nat := 0
  totalLatencyMs : Float := 0
  tokensIn : Nat := 0
  tokensOut : Nat := 0
  totalCost : Float := 0

/-- A call of a primitive, as far as the ledger needs to know it. -/
structure Call where
  primitive : Primitive
  args : Json
  model : Option String := none
  metadata : Fields Json := []

/-- What opening a call leads to. -/
inductive Opening where
  /-- The output of an earlier call, and the node that records its use. -/
  | hit (output : Json) (node : TraceNode)
  /-- The call must be made; its node has this number. -/
  | pending (id : Nat)

/-- The number of a thread. -/
abbrev ThreadId := Nat

/-- What is known of a session: what was called, what is kept, and what is open. -/
structure Ledger where
  session : String
  config : LedgerConfig
  cache : Cache
  trace : Array TraceNode := #[]
  /-- Nodes that came with bundles. -/
  imported : Array TraceNode := #[]
  /-- The open calls of each thread that has any, innermost first. -/
  openCalls : List (ThreadId × List Nat) := []
  boundaries : Array Boundary := #[]
  stats : LedgerStats := {}

namespace Call

/-- The digest under which the result of a call is kept. -/
def inputHash (c : Call) : String :=
  Trace.inputHash c.primitive.name c.args

/-- A node for the call, with nothing known of its outcome. -/
def node (c : Call) (config : LedgerConfig) (id : Nat) (parent : Option Nat) (now : Instant) :
    TraceNode where
  id := id
  domain := c.primitive.domain
  primitive := some c.primitive.name
  inputHash := c.inputHash
  truncatedInput := Text.shorten config.truncateLen c.args.display
  parentId := parent
  timestamp := now.timestamp
  modelId := c.model
  metadata := c.metadata

/-- The tokens a finished call is billed for. -/
def tokens (c : Call) (output : Json) : Option TokenCounts :=
  if c.primitive.isTextGenerating then
    some ⟨Trace.estimateTokens (Trace.promptText c.args), Trace.estimateTokens output.display⟩
  else none

end Call

/-- The price of some tokens. -/
def TokenCounts.cost (config : LedgerConfig) (t : TokenCounts) : Float :=
  Float.ofNat t.input / 1000 * config.inputCostPer1k +
    Float.ofNat t.output / 1000 * config.outputCostPer1k

namespace LedgerStats

/-- The counters as JSON. -/
def toJson (s : LedgerStats) : Json :=
  .object
    [("calls", .ofNat s.calls), ("cache_hits", .ofNat s.cacheHits),
     ("cache_misses", .ofNat s.cacheMisses), ("errors", .ofNat s.errors),
     ("total_latency_ms", .float s.totalLatencyMs), ("tokens_in", .ofNat s.tokensIn),
     ("tokens_out", .ofNat s.tokensOut), ("total_cost", .float s.totalCost)]

end LedgerStats

namespace Ledger

/-- A new ledger. -/
def start (session : String) (config : LedgerConfig) : Ledger where
  session := session
  config := config
  cache := .empty config.maxCacheEntries (config.cacheTtlSecs.map (1000 * ·))

/-! ## Open calls -/

/-- The open calls of a thread, innermost first. -/
def stack (l : Ledger) (thread : ThreadId) : List Nat :=
  (l.openCalls.lookup thread).getD []

/-- The innermost call open on a thread. -/
def innermost (l : Ledger) (thread : ThreadId) : Option Nat :=
  (l.stack thread).head?

/-- Replaces the open calls of a thread. -/
def setStack (thread : ThreadId) (stack : List Nat) (openCalls : List (ThreadId × List Nat)) :
    List (ThreadId × List Nat) :=
  let others := openCalls.filter (·.1 != thread)
  -- a thread without open calls is not listed
  if stack.isEmpty then others else (thread, stack) :: others

/-- Closes a call and all calls inside it. -/
def closeIn (id : Nat) (stack : List Nat) : List Nat :=
  if stack.contains id then (stack.dropWhile (· != id)).tail else stack

/-- Closes a call of a thread, and those inside it. -/
def close (l : Ledger) (thread : ThreadId) (id : Nat) : Ledger :=
  { l with openCalls := setStack thread (closeIn id (l.stack thread)) l.openCalls }

/-! ## Calls -/

/-- The number of the next node. -/
def nextId (l : Ledger) : Nat :=
  l.trace.size + 1

/-- Whether results of a primitive are kept. -/
def keeps (l : Ledger) (p : Primitive) : Bool :=
  p.isCacheable && l.config.cacheEnabled

/-- Appends a pending node and opens its call. -/
def openPending (l : Ledger) (thread : ThreadId) (now : Instant) (c : Call) : Opening × Ledger :=
  let id := l.nextId
  let node := c.node l.config id (l.innermost thread) now
  let stats := { l.stats with
    calls := l.stats.calls + 1
    cacheMisses := l.stats.cacheMisses + if l.keeps c.primitive then 1 else 0 }
  let openCalls := setStack thread (id :: l.stack thread) l.openCalls
  (.pending id, { l with trace := l.trace.push node, stats, openCalls })

/-- Appends the node of a call that the cache answers. -/
def recordHit (l : Ledger) (thread : ThreadId) (now : Instant) (c : Call) (e : CacheEntry) :
    Opening × Ledger :=
  let node := { c.node l.config l.nextId (l.innermost thread) now with
    outputHash := some e.outputHash
    truncatedOutput := some (Text.shorten l.config.truncateLen e.output.display)
    cacheHit := true }
  let stats := { l.stats with
    calls := l.stats.calls + 1, cacheHits := l.stats.cacheHits + 1 }
  (.hit e.output node, { l with trace := l.trace.push node, stats })

/-- Opens a call. -/
def openCall (l : Ledger) (thread : ThreadId) (now : Instant) (c : Call) : Opening × Ledger :=
  if l.keeps c.primitive then
    match l.cache.get c.inputHash now.millis with
    | (some e, cache) => recordHit { l with cache } thread now c e
    -- the look into the cache may have dropped an expired entry
    | (none, cache) => openPending { l with cache } thread now c
  else openPending l thread now c

/-- The cache entry of a finished call. -/
def entryOf (c : Call) (now : Instant) (output : Json) : CacheEntry where
  inputHash := c.inputHash
  primitive := c.primitive.name
  output := output
  outputHash := Trace.contentHash output
  createdAt := now.timestamp
  createdMillis := now.millis

/-- Closes a call with its output. -/
def succeed (l : Ledger) (thread : ThreadId) (now : Instant) (latencyMs : Float) (id : Nat)
    (c : Call) (output : Json) : Ledger :=
  let l := l.close thread id
  let tokens := c.tokens output
  let cost := (tokens.map (TokenCounts.cost l.config)).getD 0
  let stats := { l.stats with
    totalLatencyMs := l.stats.totalLatencyMs + latencyMs
    tokensIn := l.stats.tokensIn + (tokens.map (·.input)).getD 0
    tokensOut := l.stats.tokensOut + (tokens.map (·.output)).getD 0
    totalCost := l.stats.totalCost + cost }
  let cache := if l.keeps c.primitive then l.cache.put (entryOf c now output) else l.cache
  let truncateLen := l.config.truncateLen
  let complete (n : TraceNode) : TraceNode := { n with
    outputHash := some (Trace.contentHash output)
    truncatedOutput := some (Text.shorten truncateLen output.display)
    latencyMs := latencyMs
    tokenCounts := tokens
    estimatedCost := cost }
  -- nodes are numbered from one, and places in the trace from zero
  { l with cache, stats, trace := l.trace.modify (id - 1) complete }

/-- Closes a call with an error. -/
def fail (l : Ledger) (thread : ThreadId) (latencyMs : Float) (id : Nat) (error : String) :
    Ledger :=
  let l := l.close thread id
  let stats := { l.stats with
    totalLatencyMs := l.stats.totalLatencyMs + latencyMs, errors := l.stats.errors + 1 }
  let complete (n : TraceNode) : TraceNode := { n with latencyMs := latencyMs, error := some error }
  { l with stats, trace := l.trace.modify (id - 1) complete }

/-! ## Other records -/

/-- Records a finished step that is no call of a primitive. -/
def recordStep (l : Ledger) (thread : ThreadId) (now : Instant) (kind : String)
    (input output : Json) : TraceNode × Ledger :=
  -- a step is complete when it is recorded, so its node has an output at once
  let node : TraceNode :=
    { id := l.nextId
      domain := .deterministic
      primitive := some kind
      inputHash := Trace.inputHash kind input
      outputHash := some (Trace.contentHash output)
      truncatedInput := Text.shorten l.config.truncateLen input.display
      truncatedOutput := some (Text.shorten l.config.truncateLen output.display)
      parentId := l.innermost thread
      timestamp := now.timestamp }
  (node, { l with trace := l.trace.push node })

/-- Marks a boundary behind the last node. -/
def markBoundary (l : Ledger) (now : Instant) (label : String) (domain : Domain) :
    Boundary × Ledger :=
  let boundary : Boundary :=
    { label, domain, afterNode := l.trace.back?.map (·.id), timestamp := now.timestamp }
  (boundary, { l with boundaries := l.boundaries.push boundary })

/-! ## Bundles and reports -/

/-- What is needed to replay the session. -/
def toBundle (l : Ledger) : Bundle where
  version := Bundle.currentVersion
  session := l.session
  cache := l.cache.snapshot
  trace := l.trace.toList

/-- Takes over the entries and the trace of a bundle. -/
def load (l : Ledger) (b : Bundle) : Except BundleError Ledger :=
  if b.version = Bundle.currentVersion then
    -- what comes with a bundle is not counted, and stays apart from the trace of the session
    .ok { l with
      cache := b.cache.foldl Cache.putPinned l.cache
      imported := l.imported ++ b.trace.toArray }
  else .error (.unsupported b.version)

/-- The listing of the trace. -/
def log (l : Ledger) : String :=
  Trace.log l.trace.toList l.boundaries.toList

/-- Everything that is known of the session; fields are in the order of their names. -/
def report (l : Ledger) : Json :=
  Json.sorted (.object
    [("version", .ofNat Bundle.currentVersion), ("session", .text l.session),
     ("stats", l.stats.toJson), ("cache_entries", .ofNat l.cache.size),
     ("trace", .array (l.trace.toList.map TraceNode.toJson)),
     ("boundaries", .array (l.boundaries.toList.map Boundary.toJson))])

end Ledger

end BrailleScript
