import BrailleScript.Proofs.Ledger.Recency
import BrailleScript.Proofs.Ledger.Turns

/-!
# When entries of the cache expire

A time to live is given in seconds, kept in milliseconds and compared as a signed number of 64 bits
with an age that is cut to the range of such numbers.  As long as the milliseconds fit into 63 bits,
none of this is seen: an entry expires when its age in whole numbers reaches the time to live.  A
greater time to live turns into a smaller one, or into a negative one, and its entries expire too
soon.

## Key results

- `Cache.isExpired_of_pinned`, `Cache.isExpired_iff`: expiry in whole numbers, for a time to live
  that fits
- `Cache.isExpired_exact_iff`: it is so for no other time to live
- `Shared.ttl_run`: a ledger keeps the time to live it was made with
- `entries_expire_on_time`: lookups in every state that threads can reach
-/

namespace BrailleScript

/-- The entry is as old as a time to live in seconds, or older. -/
def CacheEntry.IsDue (e : CacheEntry) (secs : Nat) (now : Int) : Prop :=
  1000 * (secs : Int) ≤ now - e.createdMillis

instance (e : CacheEntry) (secs : Nat) (now : Int) : Decidable (e.IsDue secs now) :=
  inferInstanceAs (Decidable (_ ≤ _))

namespace Cache

/-! ## Numbers of 64 bits -/

/-- The greatest signed number of 64 bits. -/
theorem maxValue_eq : Int64.maxValue.toInt = 9223372036854775807 := rfl

/-- The least one. -/
theorem minValue_eq : Int64.minValue.toInt = -9223372036854775808 := rfl

/-- Numbers in range are the same with a sign. -/
theorem signed_eq_self {n : Nat} (h : (n : Int) ≤ Int64.maxValue.toInt) : signed n = n := by
  have hmax := maxValue_eq
  apply Int.bmod_eq_of_le_mul_two
  · show -((18446744073709551616 : Nat) : Int) ≤ _
    omega
  · show _ < ((18446744073709551616 : Nat) : Int)
    omega

/-- None is out of range with a sign. -/
theorem signed_le_maxValue (n : Nat) : signed n ≤ Int64.maxValue.toInt := by
  have hlt : signed n < (UInt64.size + 1) / 2 := Int.bmod_lt (by decide)
  have hsize : ((UInt64.size : Int) + 1) / 2 = 9223372036854775808 := rfl
  have hmax := maxValue_eq
  omega

/-- Whether an age reaches a number that fits does not depend on its being cut. -/
theorem le_age_iff {t now created : Int} (hpos : 0 ≤ t) (hfits : t ≤ Int64.maxValue.toInt) :
    t ≤ age now created ↔ t ≤ now - created := by
  have hmax := maxValue_eq
  have hmin := minValue_eq
  unfold age
  omega

/-! ## Expiry -/

variable {c : Cache} {e : CacheEntry} {secs : Nat} {now : Int}

/-- A pinned entry never expires, whatever number the time to live turns into. -/
theorem isExpired_of_pinned (h : e.pinned = true) (now : Int) : c.isExpired e now = false := by
  unfold isExpired
  cases c.ttl <;> simp [h]

/-- An entry that is not pinned expires just when it is due. -/
theorem isExpired_iff (httl : c.ttl = some (1000 * secs))
    (hfits : 1000 * (secs : Int) ≤ Int64.maxValue.toInt) :
    c.isExpired e now = true ↔ e.pinned = false ∧ e.IsDue secs now := by
  have hcast : ((1000 * secs : Nat) : Int) = 1000 * (secs : Int) := by omega
  have hsigned : signed (1000 * secs) = 1000 * (secs : Int) := by
    rw [signed_eq_self (by omega), hcast]
  unfold isExpired CacheEntry.IsDue
  simp only [httl, hsigned, Bool.and_eq_true, Bool.not_eq_true', decide_eq_true_eq]
  rw [le_age_iff (by omega) hfits]

/-- With a time to live that does not fit, some entry expires before it is due: one that is as old as
the number that the time to live turns into, or a new one if that is negative. -/
theorem exists_isExpired_early (httl : c.ttl = some (1000 * secs))
    (hfits : Int64.maxValue.toInt < 1000 * (secs : Int)) :
    ∃ e : CacheEntry, ∃ now : Int, e.pinned = false ∧ e.createdMillis = 0 ∧ 0 ≤ now ∧
      now ≤ Int64.maxValue.toInt ∧ c.isExpired e now = true ∧ ¬e.IsDue secs now := by
  have hle := signed_le_maxValue (1000 * secs)
  have hmax := maxValue_eq
  have hmin := minValue_eq
  have hage : signed (1000 * secs) ≤ age (max 0 (signed (1000 * secs))) 0 := by
    unfold age
    omega
  -- the entry is created at 0 and looked at when its age reaches the number
  refine ⟨.sample "", max 0 (signed (1000 * secs)), rfl, rfl, by omega, by omega, ?_, ?_⟩
  · simp only [isExpired, httl, CacheEntry.sample, Bool.not_false, Bool.true_and]
    exact decide_eq_true hage
  · unfold CacheEntry.IsDue
    show ¬1000 * (secs : Int) ≤ max 0 (signed (1000 * secs)) - 0
    omega

/-- Entries expire when they are due with those times to live that fit, and with no other. -/
theorem isExpired_exact_iff (httl : c.ttl = some (1000 * secs)) :
    (∀ e now, c.isExpired e now = true ↔ e.pinned = false ∧ e.IsDue secs now) ↔
      1000 * (secs : Int) ≤ Int64.maxValue.toInt := by
  constructor
  case mp =>
    intro h
    -- with a time to live that does not fit, some entry expires early
    by_contra hfits
    obtain ⟨e, now, -, -, -, -, hexpired, hdue⟩ := exists_isExpired_early httl (Int.not_le.1 hfits)
    exact hdue ((h e now).1 hexpired).2
  case mpr => exact fun hfits e now => isExpired_iff httl hfits

/-! ## Lookups -/

/-- An expired entry is erased and not found. -/
theorem get_of_expired {hash : String} (he : c.entries.get? hash = some e)
    (h : c.isExpired e now = true) : c.get hash now = (none, c.erase hash) := by
  unfold get
  rw [he]
  simp only [h, ↓reduceIte]

/-- Any other one is found, with one more hit and a new time of its last use. -/
theorem get_of_live {hash : String} (he : c.entries.get? hash = some e)
    (h : c.isExpired e now = false) :
    (c.get hash now).1 = some { e with hitCount := e.hitCount + 1, lastUsed := c.clock + 1 } := by
  unfold get
  rw [he]
  simp only [h, Bool.false_eq_true, ↓reduceIte]

/-- Putting an entry keeps the time to live. -/
theorem put_ttl (c : Cache) (e : CacheEntry) : (c.put e).ttl = c.ttl :=
  rfl

/-- So does loading entries. -/
theorem load_ttl (entries : List CacheEntry) (c : Cache) :
    (entries.foldl putPinned c).ttl = c.ttl := by
  induction entries generalizing c with
  | nil => rfl
  | cons e rest ih => exact (ih (c.putPinned e)).trans (put_ttl c _)

end Cache

/-! ## The time to live of a ledger -/

namespace Shared

variable {s s' : Shared} {thread : ThreadId} {turn : Turn}

/-- So does the lookup of a call. -/
theorem lookup_ttl (l : Ledger) (now : Instant) (c : Call) :
    (l.lookup now c).2.ttl = l.cache.ttl := by
  unfold Ledger.lookup
  split
  · exact Cache.get_ttl _ _ _
  · rfl

/-- No turn changes the time to live. -/
theorem ttl_step (h : s.step thread turn = some s') : s'.ledger.cache.ttl = s.ledger.cache.ttl := by
  -- lookups and insertions keep the time to live, and no other turn looks at it
  cases taken h with
  | hit now c e => exact lookup_ttl s.ledger now c
  | pending now c => exact lookup_ttl s.ledger now c
  | succeeded now latencyMs output id c outer =>
    show Cache.ttl (if _ then _ else _) = _
    split
    · exact Cache.put_ttl _ _
    · rfl
  | failed => rfl
  | recorded => rfl
  | marked => rfl
  | loaded bundle => exact Cache.load_ttl bundle.cache s.ledger.cache
  | refused => rfl

/-- A ledger keeps the time to live it was made with. -/
theorem ttl_run {turns : List (ThreadId × Turn)} (h : run turns s = some s') :
    s'.ledger.cache.ttl = s.ledger.cache.ttl := by
  induction turns generalizing s with
  | nil =>
    cases h
    rfl
  | cons turn rest ih =>
    obtain ⟨s₁, hstep, hrest⟩ := Option.bind_eq_some_iff.1 h
    exact (ih hrest).trans (ttl_step hstep)

end Shared

/-! ## Lookups in a ledger -/

variable {session : String} {config : LedgerConfig} {secs : Nat} {turns : List (ThreadId × Turn)}
  {s : Shared} {hash : String} {e : CacheEntry}

/-- In every state that threads can reach, an entry is dropped at a lookup if it is not pinned and as
old as the time to live that was configured, in whole numbers; any other entry, and so a pinned one
at any time, is found, with the hit counted.  A time to live that is shorter drops whatever a longer
one does.  The milliseconds of the time to live must be a signed number of 64 bits. -/
theorem entries_expire_on_time (hsecs : config.cacheTtlSecs = some secs)
    (hfits : 1000 * (secs : Int) ≤ Int64.maxValue.toInt)
    (hrun : Shared.run turns (.start session config) = some s)
    (he : s.ledger.cache.entries.get? hash = some e) :
    (∀ now, e.pinned = false → e.IsDue secs now →
      s.ledger.cache.get hash now = (none, s.ledger.cache.erase hash)) ∧
    (∀ now, e.pinned = true ∨ ¬e.IsDue secs now → (s.ledger.cache.get hash now).1 =
      some { e with hitCount := e.hitCount + 1, lastUsed := s.ledger.cache.clock + 1 }) ∧
    (∀ fewer ≤ secs, ∀ now, (s.ledger.cache.get hash now).1 = none →
      ({ s.ledger.cache with ttl := some (1000 * fewer) }.get hash now).1 = none) := by
  have httl : s.ledger.cache.ttl = some (1000 * secs) := by
    rw [Shared.ttl_run hrun]
    show config.cacheTtlSecs.map (1000 * ·) = _
    rw [hsecs]
    rfl
  have hlive : ∀ now, e.pinned = true ∨ ¬e.IsDue secs now →
      s.ledger.cache.isExpired e now = false := by
    intro now hnot
    rw [Bool.eq_false_iff, Ne, Cache.isExpired_iff httl hfits]
    rintro ⟨hpinned, hdue⟩
    rcases hnot with hpin | hnot
    · rw [hpin] at hpinned
      cases hpinned
    · exact hnot hdue
  refine ⟨fun now hpinned hdue => ?_, fun now hnot => ?_, fun fewer hfewer now hnone => ?_⟩
  · exact Cache.get_of_expired he ((Cache.isExpired_iff httl hfits).2 ⟨hpinned, hdue⟩)
  · exact Cache.get_of_live he (hlive now hnot)
  · -- what was dropped was due, and so it is due sooner
    have hexpired : s.ledger.cache.isExpired e now = true := by
      by_contra hnot
      rw [Cache.get_of_live he (by simpa using hnot)] at hnone
      cases hnone
    obtain ⟨hpinned, hdue⟩ := (Cache.isExpired_iff httl hfits).1 hexpired
    have hsooner : e.IsDue fewer now := by
      unfold CacheEntry.IsDue at hdue ⊢
      omega
    let short : Cache := { s.ledger.cache with ttl := some (1000 * fewer) }
    have hshort : short.isExpired e now = true :=
      (Cache.isExpired_iff rfl (by omega)).2 ⟨hpinned, hsooner⟩
    have hget : short.get hash now = (none, short.erase hash) := Cache.get_of_expired he hshort
    rw [hget]

/-- An answer that was kept with ten seconds to live is found one millisecond before their end, and
dropped at the end. -/
theorem entries_expire_on_time_tenSeconds :
    let call : Call := { primitive := .infer, args := .array [.text "question"] }
    ∃ s e, Shared.run [(0, .openCall default call), (0, .succeed default 0 (.text "answer"))]
        (.start "" { cacheTtlSecs := some 10 }) = some s ∧
      s.ledger.cache.entries.get? call.inputHash = some e ∧
      (s.ledger.cache.get call.inputHash 9999).1.isSome = true ∧
      (s.ledger.cache.get call.inputHash 10000).1 = none := by
  intro call
  have hsome : (Shared.run [(0, .openCall default call), (0, .succeed default 0 (.text "answer"))]
      (.start "" { cacheTtlSecs := some 10 })).isSome = true := rfl
  have hrun := (Option.some_get hsome).symm
  -- the cache after the run is an empty one with the answer put in
  have hput : ((Shared.run [(0, .openCall default call), (0, .succeed default 0 (.text "answer"))]
      (.start "" { cacheTtlSecs := some 10 })).get hsome).ledger.cache =
        (Cache.empty 1024 (some 10000)).put (Ledger.entryOf call default (.text "answer")) := rfl
  have he : ((Cache.empty 1024 (some 10000)).put
      (Ledger.entryOf call default (.text "answer"))).entries.get? call.inputHash =
        some { Ledger.entryOf call default (.text "answer") with lastUsed := 1 } := by
    rw [Cache.put_of_room (by decide)]
    exact Fields.get?_insert_self _ _ _
  rw [← hput] at he
  obtain ⟨hdropped, hfound, -⟩ := entries_expire_on_time rfl (by decide) hrun he
  refine ⟨_, _, hrun, he, ?_, ?_⟩
  · rw [hfound 9999 (.inr (by decide))]
    rfl
  · rw [hdropped 10000 rfl (by decide)]

/-- With the greatest time to live that can be configured a new entry is dropped at once, although it
is not due; with one that is a thousandth of it, the entry is found. -/
theorem new_entry_dropped :
    let kept (secs : Nat) : Cache :=
      (Ledger.start "" { cacheTtlSecs := some secs }).cache.put (.sample "new")
    ∃ e, (kept 9223372036854775807).entries.get? "new" = some e ∧ e.pinned = false ∧
      ¬e.IsDue 9223372036854775807 0 ∧
      ((kept 9223372036854775807).get "new" 0).1 = none ∧
      ((kept 9223372036854775).get "new" 0).1.isSome = true := by
  intro kept
  exact ⟨{ CacheEntry.sample "new" with lastUsed := 1 }, rfl, rfl, by decide, rfl, rfl⟩

end BrailleScript
