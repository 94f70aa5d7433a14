import BrailleScript.Decimal.Fixed
import BrailleScript.Ledger.Trace

/-!
# The trace log

A listing of a trace: nodes in their order, each indented by the number of calls it stands in, and
boundaries where they were marked.
-/

namespace BrailleScript

/-- What a line of the log shows. -/
inductive LogItem where
  | node (depth : Nat) (n : TraceNode)
  | boundary (b : Boundary)

namespace LogItem

/-- The word for how a call went. -/
def status (n : TraceNode) : String :=
  if n.error.isSome then "error" else if n.cacheHit then "hit" else "miss"

/-- What comes of a node: its error, or its output if it has one. -/
def outcome (n : TraceNode) : String :=
  match n.error, n.truncatedOutput with
  | some e, _ => " !! " ++ e
  | none, some output => " -> " ++ Text.quoted output
  | none, none => ""

/-- The line of a node, without its indentation. -/
def nodeText (n : TraceNode) : String :=
  " ".intercalate
    ["#" ++ toString n.id, n.primitive.getD "-", n.domain.name, status n,
     Decimal.fixed 1 n.latencyMs ++ "ms", "$" ++ Decimal.fixed 6 n.estimatedCost,
     Text.quoted n.truncatedInput] ++ outcome n

/-- A line with its end. -/
def text : LogItem → String
  | node depth n => String.ofList (List.replicate (2 * depth) ' ') ++ nodeText n ++ "\n"
  | boundary b => "-- " ++ b.label ++ " [" ++ b.domain.name ++ "] --\n"

end LogItem

namespace Trace

/-- One level inside the parent; nodes without a known parent are at the left. -/
def depthOf (depths : List (Nat × Nat)) (n : TraceNode) : Nat :=
  match n.parentId.bind (fun p => depths.lookup p) with
  | some d => d + 1
  | none => 0

/-- Whether a boundary stands right behind a node or before it. -/
def isDue (id : Nat) (b : Boundary) : Bool :=
  match b.afterNode with
  | some after => after ≤ id
  | none => false

/-- The items of the nodes and of the boundaries that are left. -/
def logFrom (depths : List (Nat × Nat)) : List TraceNode → List Boundary → List LogItem
  | [], boundaries => boundaries.map .boundary
  | n :: rest, boundaries =>
    let depth := depthOf depths n
    .node depth n :: (boundaries.takeWhile (isDue n.id)).map .boundary ++
      logFrom ((n.id, depth) :: depths) rest (boundaries.dropWhile (isDue n.id))

/-- The items of the log: boundaries before any node, then nodes with the boundaries behind them. -/
def logItems (nodes : List TraceNode) (boundaries : List Boundary) : List LogItem :=
  (boundaries.takeWhile (·.afterNode.isNone)).map .boundary ++
    logFrom [] nodes (boundaries.dropWhile (·.afterNode.isNone))

/-- The text of the log. -/
def log (nodes : List TraceNode) (boundaries : List Boundary) : String :=
  String.join ((logItems nodes boundaries).map LogItem.text)

end Trace

end BrailleScript
