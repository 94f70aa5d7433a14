import BrailleScript.Ledger.Cache
import BrailleScript.Ledger.Trace

/-!
# Bundles

What a session leaves behind so that another session can replay its calls: its cached results and
its trace, with the version of the format.
-/

namespace BrailleScript

/-- The results and the trace of a session, to be replayed in another. -/
structure Bundle where
  version : Nat
  session : String
  cache : List CacheEntry
  trace : List TraceNode

/-- Why a bundle cannot be used. -/
inductive BundleError where
  | notJson (e : Json.ReadError)
  | unsupported (version : Nat)

namespace Bundle

/-- The version that can be used. -/
def currentVersion : Nat := 1

/-- A bundle as JSON. -/
def toJson (b : Bundle) : Json :=
  .object
    [("version", .ofNat b.version), ("session", .text b.session),
     ("cache", .array (b.cache.map CacheEntry.toJson)),
     ("trace", .array (b.trace.map TraceNode.toJson))]

/-- The fields of a bundle. -/
def shape : Json.Shape :=
  .record "Bundle"
    [("version", .required, .nat 32), ("session", .required, .text),
     ("cache", .required, .list CacheEntry.shape), ("trace", .required, .list TraceNode.shape)]

/-- The bundle of a JSON value that has the shape. -/
def ofJson (j : Json) : Bundle where
  version := (j.field "version").toNat
  session := (j.field "session").toText
  cache := (j.field "cache").items.map CacheEntry.ofJson
  trace := (j.field "trace").items.map TraceNode.ofJson

/-- The bundle of a text. -/
def read (s : String) : Except BundleError Bundle :=
  match shape.read s with
  | .ok j => .ok (ofJson j)
  | .error e => .error (.notJson e)

end Bundle

namespace BundleError

/-- The words in which a text that is no bundle is refused. -/
def message : BundleError → String
  | notJson e => "bundle is not valid JSON: " ++ e.message
  | unsupported version =>
    "unsupported bundle version " ++ toString version ++ " (expected " ++
      toString Bundle.currentVersion ++ ")"

end BundleError

end BrailleScript
