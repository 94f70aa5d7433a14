import BrailleScript.Proofs.Ledger.Cache

/-!
# Dates of cache entries

When an entry was made matters to a cache in one way only: whether the entry has expired at a
lookup.  Where that is settled otherwise, caches that differ in the dates of their entries only
stay so.

## Key results

- `undated_put`, `undated_getIf`: insertions and lookups with a settled expiry ignore dates
- `get_eq_getIf`: lookups in caches whose entries were made at earlier readings of a timeless clock
-/

namespace BrailleScript

/-- The entry without the time it was made. -/
def CacheEntry.undated (e : CacheEntry) : CacheEntry :=
  { e with createdAt := "", createdMillis := 0 }

namespace Cache

/-- The cache without the times its entries were made. -/
def undated (c : Cache) : Cache :=
  { c with entries := c.entries.mapValues CacheEntry.undated }

/-! ## Insertions -/

/-- The digests of the entries that are dropped when there are too many. -/
def oldest (c : Cache) : List String :=
  ((c.entries.values.mergeSort CacheEntry.isOlder).take (c.entries.length - c.capacity)).map
    (·.inputHash)

/-- Which entries are dropped does not depend on their dates. -/
theorem oldest_undated (c : Cache) : c.undated.oldest = c.oldest := by
  -- entries are dropped by their last use, not by their dates
  have hsort : (c.entries.values.map CacheEntry.undated).mergeSort CacheEntry.isOlder =
      (c.entries.values.mergeSort CacheEntry.isOlder).map CacheEntry.undated := by
    symm
    apply List.map_mergeSort
    exact fun _ _ _ _ => rfl
  unfold oldest
  rw [show c.undated.entries.values = c.entries.values.map CacheEntry.undated from
      Fields.values_mapValues _ _, hsort,
    show c.undated.entries.length = c.entries.length from List.length_map _, ← List.map_take,
    List.map_map]
  rfl

/-- Making room does not look at dates. -/
theorem undated_prune (c : Cache) : c.prune.undated = c.undated.prune := by
  show Cache.mk (Fields.mapValues _ (List.filter (fun e => !c.oldest.contains e.1) _)) _ _ _
    (_ + c.oldest.length) = Cache.mk (List.filter (fun e => !c.undated.oldest.contains e.1) _) _ _ _
    (_ + c.undated.oldest.length)
  rw [oldest_undated, Fields.mapValues_filter_keys CacheEntry.undated fun k => !c.oldest.contains k]
  rfl

/-- Inserting ignores dates. -/
theorem undated_put (c : Cache) (e : CacheEntry) :
    (c.put e).undated = c.undated.put e.undated := by
  unfold put
  rw [undated_prune]
  unfold undated
  rw [Fields.mapValues_insert]
  rfl

/-! ## Lookups -/

/-- A lookup for which it is settled whether the entry has expired. -/
def getIf (expired : Bool) (c : Cache) (hash : String) : Option CacheEntry × Cache :=
  match c.entries.get? hash with
  | none => (none, c)
  | some e =>
    if expired then (none, c.erase hash)
    else
      let hit := { e with hitCount := e.hitCount + 1, lastUsed := c.clock + 1 }
      (some hit, { c with entries := c.entries.insert hash hit, clock := c.clock + 1 })

/-- Such a lookup ignores dates. -/
theorem undated_getIf (expired : Bool) (c : Cache) (hash : String) :
    c.undated.getIf expired hash =
      ((c.getIf expired hash).1.map CacheEntry.undated, (c.getIf expired hash).2.undated) := by
  unfold getIf
  have hget : c.undated.entries.get? hash = (c.entries.get? hash).map CacheEntry.undated :=
    Fields.get?_mapValues _ _ _
  rw [hget]
  cases c.entries.get? hash with
  | none => rfl
  | some e =>
    -- the entry is dropped or used, and dates are touched by neither
    cases expired with
    | true =>
      show (none, Cache.mk (List.filter _ _) _ _ _ _) =
        (none, Cache.mk (Fields.mapValues _ (List.filter _ _)) _ _ _ _)
      rw [Fields.mapValues_filter_keys CacheEntry.undated (· != hash)]
      rfl
    | false =>
      show (_, Cache.mk _ _ _ _ _) =
        (_, Cache.mk (Fields.mapValues _ (Fields.insert _ _ _)) _ _ _ _)
      rw [Fields.mapValues_insert]
      rfl

/-- Whether an entry that is not pinned has expired. -/
def expires (ttl : Option Nat) (created now : Int) : Bool :=
  match ttl with
  | some ttl => signed ttl ≤ age now created
  | none => false

/-- Whether something that was made at one reading of the clock has expired at a later one does not
depend on the readings. -/
def Timeless (ttl : Option Nat) (clock : Nat → Instant) (expired : Bool) : Prop :=
  ∀ i j, i < j → expires ttl (clock i).millis (clock j).millis = expired

/-- The entries were made at the first readings of a clock, and none is pinned. -/
def MadeBefore (clock : Nat → Instant) (readings : Nat) (c : Cache) : Prop :=
  ∀ p ∈ c.entries, p.2.pinned = false ∧ ∃ i < readings, p.2.createdMillis = (clock i).millis

/-- On a clock without surprises a lookup is one that knows whether the entry is expired. -/
theorem get_eq_getIf {ttl : Option Nat} {clock : Nat → Instant} {expired : Bool}
    (hclock : Timeless ttl clock expired) {c : Cache} (httl : c.ttl = ttl) {readings : Nat}
    (hmade : MadeBefore clock readings c) (hash : String) :
    c.get hash (clock readings).millis = c.getIf expired hash := by
  unfold get getIf
  cases he : c.entries.get? hash with
  | none => rfl
  | some e =>
    obtain ⟨hpinned, i, hi, hcreated⟩ := hmade _ (Fields.mem_of_get? he)
    -- the entry was made at an earlier reading, and then expiry is settled
    have hexpired : c.isExpired e (clock readings).millis = expired := by
      rw [← hclock i readings hi]
      unfold isExpired expires
      rw [httl, hpinned, hcreated]
      cases ttl <;> simp
    simp only [hexpired]

/-- A lookup makes no entry. -/
theorem MadeBefore.get {clock : Nat → Instant} {readings : Nat} {c : Cache}
    (h : MadeBefore clock readings c) (hash : String) (now : Int) :
    MadeBefore clock readings (c.get hash now).2 := by
  intro p hp
  obtain ⟨e, _, _, he, hp⟩ := mem_get hp
  rw [hp]
  exact h (p.1, e) he

/-- Entries made before one reading were made before any later one. -/
theorem MadeBefore.mono {clock : Nat → Instant} {readings readings' : Nat} {c : Cache}
    (h : MadeBefore clock readings c) (hle : readings ≤ readings') :
    MadeBefore clock readings' c := by
  intro p hp
  obtain ⟨hpinned, i, hi, hcreated⟩ := h p hp
  exact ⟨hpinned, i, Nat.lt_of_lt_of_le hi hle, hcreated⟩

/-- An entry with a date from the clock was made before the next reading. -/
theorem MadeBefore.put {clock : Nat → Instant} {readings : Nat} {c : Cache}
    (h : MadeBefore clock readings c) {e : CacheEntry} (hpinned : e.pinned = false) {i : Nat}
    (hi : i < readings) (hcreated : e.createdMillis = (clock i).millis) :
    MadeBefore clock readings (c.put e) := by
  intro p hp
  rcases mem_put hp with rfl | hp
  · exact ⟨hpinned, i, hi, hcreated⟩
  · exact h p hp

end Cache

end BrailleScript
