import BrailleScript.Digest.Sha256
import BrailleScript.Domain
import BrailleScript.Json.Printer
import BrailleScript.Json.Shape

/-!
# Trace nodes

What is recorded of each observed step: a node with digests of its input and output, linked to the
call inside which it was made.  Boundaries are labels between nodes.
-/

namespace BrailleScript

/-- How many tokens went into a call and came out of it. -/
structure TokenCounts where
  input : Nat
  output : Nat
  deriving Repr, DecidableEq

/-- What is known of one call. -/
structure TraceNode where
  id : Nat
  domain : Domain
  primitive : Option String
  inputHash : String
  outputHash : Option String := none
  truncatedInput : String
  truncatedOutput : Option String := none
  parentId : Option Nat
  timestamp : String
  latencyMs : Float := 0
  cacheHit : Bool := false
  modelId : Option String := none
  tokenCounts : Option TokenCounts := none
  estimatedCost : Float := 0
  error : Option String := none
  metadata : Fields Json := []

/-- A mark between nodes that the program has set. -/
structure Boundary where
  label : String
  domain : Domain
  /-- The last node recorded before the boundary. -/
  afterNode : Option Nat
  timestamp : String
  deriving Repr, DecidableEq

namespace Trace

/-- The digest of a primitive's name, a zero character and the canonical text of its arguments. -/
def inputHash (primitive : String) (args : Json) : String :=
  Digest.hexOfText (primitive ++ "\x00" ++ args.compact)

/-- The digest of a canonical text. -/
def contentHash (j : Json) : String :=
  Digest.hexOfText j.compact

/-- A quarter of the characters of a text, rounded up. -/
def estimateTokens (s : String) : Nat :=
  (s.length + 3) / 4

/-- The text that a call is billed for: its first argument. -/
def promptText : Json → String
  | .array [] => ""
  | .array (first :: _) => first.display
  | j => j.display

/-- The parent and child of each link between nodes. -/
def edges (nodes : List TraceNode) : List (Nat × Nat) :=
  nodes.filterMap fun n => n.parentId.map (·, n.id)

/-- The nodes without a parent. -/
def roots (nodes : List TraceNode) : List TraceNode :=
  nodes.filter (·.parentId.isNone)

end Trace

/-! ## JSON forms -/

/-- One of the names of domains. -/
def Domain.shape : Json.Shape :=
  .choice (Domain.all.map Domain.name)

/-- The domain of a name; of other values, the deterministic one. -/
def Domain.ofJson (j : Json) : Domain :=
  (Domain.ofName? j.toText).getD .deterministic

namespace TokenCounts

/-- The counts as JSON. -/
def toJson (c : TokenCounts) : Json :=
  .object [("input", .ofNat c.input), ("output", .ofNat c.output)]

/-- The fields of the counts. -/
def shape : Json.Shape :=
  .record "TokenCounts" [("input", .required, .nat 64), ("output", .required, .nat 64)]

/-- The counts of a JSON value that has the shape. -/
def ofJson (j : Json) : TokenCounts :=
  ⟨(j.field "input").toNat, (j.field "output").toNat⟩

end TokenCounts

namespace TraceNode

/-- A node as JSON. -/
def toJson (n : TraceNode) : Json :=
  .object
    [("id", .ofNat n.id), ("domain", .text n.domain.name), ("primitive", .ofOption .text n.primitive),
     ("input_hash", .text n.inputHash), ("output_hash", .ofOption .text n.outputHash),
     ("truncated_input", .text n.truncatedInput),
     ("truncated_output", .ofOption .text n.truncatedOutput),
     ("parent_id", .ofOption .ofNat n.parentId), ("timestamp", .text n.timestamp),
     ("latency_ms", .float n.latencyMs), ("cache_hit", .bool n.cacheHit),
     ("model_id", .ofOption .text n.modelId),
     ("token_counts", .ofOption TokenCounts.toJson n.tokenCounts),
     ("estimated_cost", .float n.estimatedCost), ("error", .ofOption .text n.error),
     ("metadata", .object n.metadata)]

/-- The fields of a node. -/
def shape : Json.Shape :=
  .record "TraceNode"
    [("id", .required, .nat 64), ("domain", .required, Domain.shape),
     ("primitive", .nullable, .optional .text), ("input_hash", .required, .text),
     ("output_hash", .nullable, .optional .text), ("truncated_input", .required, .text),
     ("truncated_output", .nullable, .optional .text), ("parent_id", .nullable, .optional (.nat 64)),
     ("timestamp", .required, .text), ("latency_ms", .required, .float),
     ("cache_hit", .required, .bool), ("model_id", .nullable, .optional .text),
     ("token_counts", .nullable, .optional TokenCounts.shape), ("estimated_cost", .required, .float),
     ("error", .nullable, .optional .text), ("metadata", .defaulted, .map)]

/-- The node that a JSON value of the shape stands for. -/
def ofJson (j : Json) : TraceNode where
  id := (j.field "id").toNat
  domain := .ofJson (j.field "domain")
  primitive := (j.field "primitive").toOption Json.toText
  inputHash := (j.field "input_hash").toText
  outputHash := (j.field "output_hash").toOption Json.toText
  truncatedInput := (j.field "truncated_input").toText
  truncatedOutput := (j.field "truncated_output").toOption Json.toText
  parentId := (j.field "parent_id").toOption Json.toNat
  timestamp := (j.field "timestamp").toText
  latencyMs := (j.field "latency_ms").toFloat
  cacheHit := (j.field "cache_hit").toBool
  modelId := (j.field "model_id").toOption Json.toText
  tokenCounts := (j.field "token_counts").toOption TokenCounts.ofJson
  estimatedCost := (j.field "estimated_cost").toFloat
  error := (j.field "error").toOption Json.toText
  metadata := (j.field "metadata").toFields

end TraceNode

namespace Boundary

/-- A boundary as JSON. -/
def toJson (b : Boundary) : Json :=
  .object
    [("label", .text b.label), ("domain", .text b.domain.name),
     ("after_node", .ofOption .ofNat b.afterNode), ("timestamp", .text b.timestamp)]

/-- The fields of a boundary. -/
def shape : Json.Shape :=
  .record "Boundary"
    [("label", .required, .text), ("domain", .required, Domain.shape),
     ("after_node", .nullable, .optional (.nat 64)), ("timestamp", .required, .text)]

/-- The boundary of a JSON value that has the shape. -/
def ofJson (j : Json) : Boundary where
  label := (j.field "label").toText
  domain := .ofJson (j.field "domain")
  afterNode := (j.field "after_node").toOption Json.toNat
  timestamp := (j.field "timestamp").toText

end Boundary

end BrailleScript
