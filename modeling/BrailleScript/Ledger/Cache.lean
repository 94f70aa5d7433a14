import BrailleScript.Instant
import BrailleScript.Json
import BrailleScript.Ledger.Trace

/-!
# The cache

Results under the digests of their inputs.  Each insertion and each hit takes the next stamp of a
logical clock; when there are too many entries, those with the oldest stamps go.  An entry expires
when its age reaches the time to live, unless it is pinned.
-/

namespace BrailleScript

/-- A count in 64 bits is the number that it stands for. -/
instance coeCount : Coe UInt64 Nat := ⟨UInt64.toNat⟩

/-- A result that is kept. -/
structure CacheEntry where
  inputHash : String
  primitive : String
  output : Json
  outputHash : String
  createdAt : String
  /-- When the entry was made, in milliseconds since the start of 1970. -/
  createdMillis : Int
  /-- How often the entry was looked up, in 64 bits: behind the greatest number follows zero. -/
  hitCount : UInt64 := 0
  /-- The stamp of the last insertion or hit. -/
  lastUsed : Nat := 0
  /-- Pinned entries never expire. -/
  pinned : Bool := false

namespace CacheEntry

/-- An entry as JSON; whether it is pinned is not written. -/
def toJson (e : CacheEntry) : Json :=
  .object
    [("input_hash", .text e.inputHash), ("primitive", .text e.primitive), ("output", e.output),
     ("output_hash", .text e.outputHash), ("created_at", .text e.createdAt),
     ("created_at_ms", .int e.createdMillis), ("hit_count", .ofNat e.hitCount),
     ("last_used", .ofNat e.lastUsed)]

/-- The fields of an entry. -/
def shape : Json.Shape :=
  .record "CacheEntry"
    [("input_hash", .required, .text), ("primitive", .required, .text), ("output", .required, .any),
     ("output_hash", .required, .text), ("created_at", .required, .text),
     ("created_at_ms", .required, .int), ("hit_count", .required, .nat 64),
     ("last_used", .defaulted, .nat 64), ("pinned", .defaulted, .bool)]

/-- The entry of a JSON value that has the shape. -/
def ofJson (j : Json) : CacheEntry where
  inputHash := (j.field "input_hash").toText
  primitive := (j.field "primitive").toText
  output := j.field "output"
  outputHash := (j.field "output_hash").toText
  createdAt := (j.field "created_at").toText
  createdMillis := (j.field "created_at_ms").toInt
  hitCount := .ofNat (j.field "hit_count").toNat
  lastUsed := (j.field "last_used").toNat
  pinned := (j.field "pinned").toBool

/-- Older stamps first; equal stamps in the order of the digests. -/
def isOlder (a b : CacheEntry) : Bool :=
  a.lastUsed < b.lastUsed || (a.lastUsed == b.lastUsed && a.inputHash ≤ b.inputHash)

end CacheEntry

/-- The results that are kept.  The clock and the evictions count operations, of which a session
makes far fewer than 64 bits can count. -/
structure Cache where
  /-- Entries by their digests. -/
  entries : Fields CacheEntry := []
  /-- How many entries may stay. -/
  capacity : Nat
  /-- The time to live in milliseconds. -/
  ttl : Option Nat := none
  clock : Nat := 0
  evictions : Nat := 0

namespace Cache

/-- An empty cache, which has room for one entry at least. -/
def empty (capacity : Nat) (ttl : Option Nat) : Cache :=
  { capacity := Nat.max capacity 1, ttl }

/-- A time to live as a signed number of 64 bits. -/
def signed (n : Nat) : Int :=
  Int.bmod n UInt64.size

/-- The time from `created` to `now`, cut to the range of signed numbers of 64 bits. -/
def age (now created : Int) : Int :=
  Max.max Int64.minValue.toInt (Min.min Int64.maxValue.toInt (now - created))

/-- Whether the age of an entry has reached the time to live. -/
def isExpired (c : Cache) (e : CacheEntry) (now : Int) : Bool :=
  match c.ttl with
  | some ttl => !e.pinned && signed ttl ≤ age now e.createdMillis
  | none => false

/-- Removes the entry of a digest. -/
def erase (c : Cache) (hash : String) : Cache :=
  { c with entries := c.entries.filter (·.1 != hash) }

/-- The live entry of a digest, with the hit counted; an expired entry is dropped. -/
def get (c : Cache) (hash : String) (now : Int) : Option CacheEntry × Cache :=
  match c.entries.get? hash with
  | none => (none, c)
  | some e =>
    if c.isExpired e now then (none, c.erase hash)
    else
      -- of lookups only a hit takes a stamp
      let hit := { e with hitCount := e.hitCount + 1, lastUsed := c.clock + 1 }
      (some hit, { c with entries := c.entries.insert hash hit, clock := c.clock + 1 })

/-- Drops the oldest entries until no more than the capacity remain. -/
def prune (c : Cache) : Cache :=
  let excess := c.entries.length - c.capacity
  let oldest := ((c.entries.values.mergeSort CacheEntry.isOlder).take excess).map (·.inputHash)
  { c with
    entries := c.entries.filter (!oldest.contains ·.1)
    evictions := c.evictions + oldest.length }

/-- Adds an entry as the most recent one. -/
def put (c : Cache) (e : CacheEntry) : Cache :=
  prune { c with
    entries := c.entries.insert e.inputHash { e with lastUsed := c.clock + 1 }
    clock := c.clock + 1 }

/-- Adds an entry that never expires. -/
def putPinned (c : Cache) (e : CacheEntry) : Cache :=
  c.put { e with pinned := true }

/-- Whether there is an entry for a digest. -/
def contains (c : Cache) (hash : String) : Bool :=
  (c.entries.get? hash).isSome

/-- Removes all entries; clock and evictions go on. -/
def clear (c : Cache) : Cache :=
  { c with entries := [] }

/-- The entries in the order of their digests. -/
def snapshot (c : Cache) : List CacheEntry :=
  c.entries.values

/-- How many entries there are. -/
def size (c : Cache) : Nat :=
  c.entries.length

end Cache

end BrailleScript
