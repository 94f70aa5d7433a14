import BrailleScript.Ledger.Cache
import BrailleScript.Proofs.Fields

/-!
# What a cache answers

The entries of a cache stand in the order of their digests, each under its own one (`Indexed`).
What is found under a digest is described by `output?`; a cache that has room for its entries and
no time to live forgets none of them.

## Key results

- `Indexed.get`, `Indexed.put`: cache operations keep the entries in order
- `mem_get`, `mem_of_get`, `mem_put`: where the entries come from
- `output?_get`, `output?_put`: nothing is forgotten without a time to live and with room enough
- `pinned_of_load`: entries that are taken over from a bundle are found and never expire
-/

namespace BrailleScript.Cache

/-- The output that is kept under a digest. -/
def output? (c : Cache) (hash : String) : Option Json :=
  (c.entries.get? hash).map (·.output)

/-- The entries are in the order of their digests, each under its own one. -/
structure Indexed (c : Cache) : Prop where
  inOrder : c.entries.InOrder
  own : ∀ p ∈ c.entries, p.2.inputHash = p.1

/-! ## Room -/

/-- Nothing is dropped while there is room. -/
theorem prune_eq_self {c : Cache} (h : c.entries.length ≤ c.capacity) : c.prune = c := by
  -- no entry is too many, so the list of those to drop is empty
  unfold prune
  rw [Nat.sub_eq_zero_of_le h]
  simp only [List.take_zero, List.map_nil, List.contains_nil, Bool.not_false, List.length_nil,
    Nat.add_zero]
  rw [List.filter_eq_self.2 fun _ _ => rfl]

/-- With room for the entry it is inserted and nothing is evicted. -/
theorem put_of_room {c : Cache} {e : CacheEntry}
    (h : (c.entries.insert e.inputHash { e with lastUsed := c.clock + 1 }).length ≤ c.capacity) :
    c.put e = { c with
      entries := c.entries.insert e.inputHash { e with lastUsed := c.clock + 1 }
      clock := c.clock + 1 } :=
  prune_eq_self h

/-- A lookup keeps the capacity. -/
@[simp] theorem get_capacity (c : Cache) (hash : String) (now : Int) :
    (c.get hash now).2.capacity = c.capacity := by
  unfold get
  split
  · rfl
  · split <;> rfl

/-- A lookup keeps the time to live. -/
@[simp] theorem get_ttl (c : Cache) (hash : String) (now : Int) :
    (c.get hash now).2.ttl = c.ttl := by
  unfold get
  split
  · rfl
  · split <;> rfl

/-! ## Where entries come from -/

/-- A lookup leaves entries that were there, perhaps with the hit counted. -/
theorem mem_get {c : Cache} {hash : String} {now : Int} {p : String × CacheEntry}
    (h : p ∈ (c.get hash now).2.entries) :
    ∃ e hitCount lastUsed, (p.1, e) ∈ c.entries ∧ p.2 = { e with hitCount, lastUsed } := by
  unfold get at h
  split at h
  · exact ⟨p.2, _, _, h, rfl⟩
  · rename_i e he
    split at h
    · exact ⟨p.2, _, _, (List.mem_filter.1 h).1, rfl⟩
    · -- a hit puts the entry back with its count and its last use changed
      rcases Fields.mem_insert h with rfl | h
      · exact ⟨e, _, _, Fields.mem_of_get? he, rfl⟩
      · exact ⟨p.2, _, _, h, rfl⟩

/-- What a lookup finds was there, but for the hit that is counted. -/
theorem mem_of_get {c : Cache} {hash : String} {now : Int} {e : CacheEntry}
    (h : (c.get hash now).1 = some e) :
    ∃ kept hitCount lastUsed, (hash, kept) ∈ c.entries ∧ e = { kept with hitCount, lastUsed } := by
  unfold get at h
  split at h
  · cases h
  · rename_i kept hkept
    -- an entry that has expired is not found
    split at h
    · cases h
    · cases h
      exact ⟨kept, _, _, Fields.mem_of_get? hkept, rfl⟩

/-- Whatever is there after an entry was put is that entry or was there before. -/
theorem mem_put {c : Cache} {e : CacheEntry} {p : String × CacheEntry}
    (h : p ∈ (c.put e).entries) :
    p = (e.inputHash, { e with lastUsed := c.clock + 1 }) ∨ p ∈ c.entries :=
  Fields.mem_insert (List.mem_filter.1 h).1

namespace Indexed

/-- The empty cache is indexed. -/
theorem empty (capacity : Nat) (ttl : Option Nat) : (Cache.empty capacity ttl).Indexed :=
  ⟨.nil, fun _ h => nomatch h⟩

/-- A lookup keeps the cache indexed. -/
theorem get {c : Cache} (hc : c.Indexed) (hash : String) (now : Int) :
    (c.get hash now).2.Indexed := by
  constructor
  · unfold Cache.get
    split
    · exact hc.inOrder
    · split
      · exact hc.inOrder.filter _
      · exact hc.inOrder.insert _ _
  · intro p hp
    obtain ⟨e, _, _, he, hp⟩ := mem_get hp
    rw [hp]
    exact hc.own _ he

/-- Putting an entry keeps it indexed. -/
theorem put {c : Cache} (hc : c.Indexed) (e : CacheEntry) : (c.put e).Indexed := by
  refine ⟨(hc.inOrder.insert _ _).filter _, fun p hp => ?_⟩
  rcases mem_put hp with rfl | hp
  · rfl
  · exact hc.own p hp

end Indexed

/-! ## What is found -/

/-- A lookup that finds nothing to expire forgets nothing. -/
theorem output?_get {c : Cache} (httl : c.ttl = none) (hash : String) (now : Int) (name : String) :
    (c.get hash now).2.output? name = c.output? name := by
  unfold get
  split
  · rfl
  · rename_i e he
    simp only [isExpired, httl, output?, Bool.false_eq_true, ↓reduceIte]
    rw [Fields.get?_insert]
    -- an entry that is found is put back with a new use, and the others stay
    split
    · rename_i hn
      rw [← hn, he]
      rfl
    · rfl

/-- What a lookup finds is what is kept. -/
theorem output?_of_get {c : Cache} {hash : String} {now : Int} {e : CacheEntry}
    (h : (c.get hash now).1 = some e) : c.output? hash = some e.output := by
  unfold get at h
  split at h
  · exact nomatch h
  · rename_i e' he'
    split at h
    · exact nomatch h
    · cases h
      rw [output?, he']
      rfl

/-- Without a time to live a lookup finds whatever is kept. -/
theorem output?_of_get_none {c : Cache} (httl : c.ttl = none) {hash : String} {now : Int}
    (h : (c.get hash now).1 = none) : c.output? hash = none := by
  unfold get at h
  split at h
  · rename_i he
    rw [output?, he]
    rfl
  · simp [isExpired, httl] at h

/-- With room for the entry, its output is found, and all others as before. -/
theorem output?_put {c : Cache} {e : CacheEntry}
    (hroom : (c.entries.insert e.inputHash { e with lastUsed := c.clock + 1 }).length ≤ c.capacity)
    (name : String) :
    (c.put e).output? name = if e.inputHash = name then some e.output else c.output? name := by
  rw [put_of_room hroom]
  simp only [output?, Fields.get?_insert]
  split <;> rfl

/-- A digest is answered, and goes on being answered, with a pinned entry. -/
def Pinned (c : Cache) (hash : String) (output : Json) : Prop :=
  ∃ e, c.entries.get? hash = some e ∧ e.pinned = true ∧ e.output = output

/-- A pinned output is found by its hash, at all times. -/
theorem Pinned.get_eq {c : Cache} {hash : String} {output : Json} (h : c.Pinned hash output)
    (now : Int) : ∃ e, (c.get hash now).1 = some e ∧ e.output = output := by
  obtain ⟨e, he, hp, rfl⟩ := h
  -- what is pinned never expires
  have hlive : c.isExpired e now = false := by
    unfold isExpired
    split <;> simp [hp]
  unfold get
  rw [he]
  simp only [hlive, Bool.false_eq_true, ↓reduceIte]
  exact ⟨_, rfl, rfl⟩

/-- It stays pinned after any lookup. -/
theorem Pinned.after_get {c : Cache} {hash name : String} {output : Json}
    (h : c.Pinned name output) (now : Int) : (c.get hash now).2.Pinned name output := by
  obtain ⟨e, he, hp, rfl⟩ := h
  unfold get
  split
  · exact ⟨e, he, hp, rfl⟩
  · rename_i e' he'
    -- the lookup may be of the pinned entry itself, which then does not expire
    by_cases hn : hash = name
    · subst hn
      rw [he'] at he
      cases he
      have hlive : c.isExpired e now = false := by
        unfold isExpired
        split <;> simp [hp]
      simp only [hlive, Bool.false_eq_true, ↓reduceIte]
      exact ⟨_, Fields.get?_insert_self _ _ _, hp, rfl⟩
    · split
      · refine ⟨e, ?_, hp, rfl⟩
        show Fields.get? name (c.entries.filter fun p => p.1 != hash) = some e
        rw [Fields.get?_filter_keys (· != hash), if_pos (by simpa using Ne.symm hn), he]
      · exact ⟨e, (Fields.get?_insert_ne hn _ _).trans he, hp, rfl⟩

/-! ## Taking over entries -/

/-- Taking over an entry that fits leaves the pinned ones under other digests. -/
theorem Pinned.putPinned {c : Cache} {name : String} {output : Json} (h : c.Pinned name output)
    {e : CacheEntry} (hne : e.inputHash ≠ name) (hroom : c.entries.length + 1 ≤ c.capacity) :
    (c.putPinned e).Pinned name output := by
  obtain ⟨e', he', hp, rfl⟩ := h
  refine ⟨e', ?_, hp, rfl⟩
  unfold Cache.putPinned
  rw [put_of_room (Nat.le_trans (Fields.length_insert_le _ _ _) hroom)]
  exact (Fields.get?_insert_ne hne _ _).trans he'

/-- With room for it, an entry that is put as pinned is pinned. -/
theorem pinned_putPinned {c : Cache} (e : CacheEntry) (hroom : c.entries.length + 1 ≤ c.capacity) :
    (c.putPinned e).Pinned e.inputHash e.output := by
  unfold Cache.putPinned
  rw [put_of_room (Nat.le_trans (Fields.length_insert_le _ _ _) hroom)]
  exact ⟨_, Fields.get?_insert_self _ _ _, rfl, rfl⟩

/-- It takes one place at most. -/
theorem length_putPinned_le (c : Cache) (e : CacheEntry) :
    (c.putPinned e).entries.length ≤ c.entries.length + 1 :=
  Nat.le_trans (List.length_filter_le _ _) (Fields.length_insert_le _ _ _)

/-- Entries under different digests that all fit are found after they were taken over. -/
theorem pinned_of_load (es : List CacheEntry) (c : Cache)
    (hdistinct : (es.map (·.inputHash)).Nodup)
    (hroom : c.entries.length + es.length ≤ c.capacity) :
    (∀ e ∈ es, (es.foldl putPinned c).Pinned e.inputHash e.output) ∧
    ∀ name output, name ∉ es.map (·.inputHash) → c.Pinned name output →
      (es.foldl putPinned c).Pinned name output := by
  induction es generalizing c with
  | nil => exact ⟨fun _ h => (nomatch h), fun _ _ _ h => h⟩
  | cons e es ih =>
    rw [List.map_cons, List.nodup_cons] at hdistinct
    have hlen := length_putPinned_le c e
    have hcap : (c.putPinned e).capacity = c.capacity := rfl
    rw [List.length_cons] at hroom
    -- the first entry survives the others since their digests differ from its own
    obtain ⟨hnew, hold⟩ := ih (c.putPinned e) hdistinct.2 (by omega)
    constructor
    · intro e' he'
      rcases List.mem_cons.1 he' with rfl | he'
      · exact hold _ _ hdistinct.1 (pinned_putPinned e' (by omega))
      · exact hnew e' he'
    · intro name output hname hpinned
      rw [List.map_cons, List.mem_cons, not_or] at hname
      exact hold name output hname.2 (hpinned.putPinned (Ne.symm hname.1) (by omega))

end BrailleScript.Cache
