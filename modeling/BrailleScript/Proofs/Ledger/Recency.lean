import Mathlib.Data.List.Pairwise
import BrailleScript.Proofs.Ledger.Cache

/-!
# The cache forgets what was used longest ago

A cache keeps its entries under their digests and knows their age from the stamps of a clock only.
Beside it stands `Recency`, a list of entries from the least to the most recently used one, which
knows no clock: a used entry moves to the end, and what is too much goes from the front.  The list
counts the lookups of an entry without end, the cache in 64 bits.  Up to this the two answer alike
whatever they are asked for, and in whatever order the entries are listed when the oldest are looked
for.

## Key results

- `Ages.place`, `Ages.erase`, `Ages.dropInTurn`: what cache operations do to the entries by age
- `Ages.putInTurn_eq`: which entries are dropped does not depend on the order they are listed in
- `Shows.perform`, `Shows.run`: cache and list stay in step
- `lru_exact`: the cache is the list, for every sequence of lookups and insertions
- `lru_count_restarts`: the count of an entry starts again when its 64 bits are used up
-/

namespace BrailleScript

/-- The entry without the stamp of its last use. -/
def CacheEntry.unstamped (e : CacheEntry) : CacheEntry :=
  { e with lastUsed := 0 }

/-- What a cache is asked for. -/
inductive Access where
  | get (hash : String) (now : Int)
  | put (e : CacheEntry)
  | putPinned (e : CacheEntry)

/-- The counts that entries are put with are not beyond `n`. -/
def Access.Counts (n : Nat) : Access → Prop
  | .get .. => True
  | .put e | .putPinned e => e.hitCount.toNat ≤ n

/-- The answers to accesses one after the other, and the state behind them. -/
def Access.run {σ α : Type} (perform : σ → Access → Option α × σ) :
    σ → List Access → List (Option α) × σ
  | s, [] => ([], s)
  | s, a :: rest =>
    let (answer, s') := perform s a
    let (answers, last) := run perform s' rest
    (answer :: answers, last)

/-! ## The list -/

/-- An entry of the list: what stands in it, and how often it was looked up. -/
structure Recency.Item where
  entry : CacheEntry
  hits : Nat

/-- Entries from the least to the most recently used one, and those that were dropped because there
were too many. -/
structure Recency where
  entries : List Recency.Item := []
  dropped : List Recency.Item := []

namespace Recency

/-- The item that an entry begins as. -/
def Item.of (e : CacheEntry) : Item :=
  ⟨e.unstamped, e.hitCount.toNat⟩

/-- The entry with its count in 64 bits. -/
def Item.shown (i : Item) : CacheEntry :=
  { i.entry with hitCount := .ofNat i.hits }

/-- Whether the entry is older than entries may become; pinned ones never are. -/
def isExpired (ttl : Option Nat) (e : CacheEntry) (now : Int) : Bool :=
  !e.pinned && ttl.any fun ttl => decide (Cache.signed ttl ≤ Cache.age now e.createdMillis)

/-- The entry of a digest, with the hit counted, becomes the last; an expired one is taken out. -/
def get (ttl : Option Nat) (r : Recency) (hash : String) (now : Int) : Option Item × Recency :=
  match r.entries.find? (·.entry.inputHash == hash) with
  | none => (none, r)
  | some i =>
    let others := r.entries.filter (·.entry.inputHash != hash)
    if isExpired ttl i.entry now then (none, { r with entries := others })
    else
      let hit := { i with hits := i.hits + 1 }
      (some hit, { r with entries := others ++ [hit] })

/-- The entry becomes the last, in place of the one with its digest; only the last `room` stay. -/
def put (room : Nat) (r : Recency) (e : CacheEntry) : Recency :=
  let kept := r.entries.filter (·.entry.inputHash != e.inputHash) ++ [.of e]
  let excess := kept.length - room
  { entries := kept.drop excess, dropped := r.dropped ++ kept.take excess }

/-- One access: only a lookup has an answer. -/
def perform (room : Nat) (ttl : Option Nat) (r : Recency) : Access → Option Item × Recency
  | .get hash now => r.get ttl hash now
  | .put e => (none, r.put room e)
  | .putPinned e => (none, r.put room { e with pinned := true })

end Recency

/-! ## Counts -/

namespace Recency

/-- An item that is made of an entry shows it, without its stamp. -/
theorem shown_of (e : CacheEntry) : (Item.of e).shown = e.unstamped := by
  have hcount : UInt64.ofNat e.hitCount.toNat = e.hitCount := UInt64.ofNat_toNat
  unfold Item.shown Item.of
  dsimp only
  rw [hcount]
  rfl

/-- One more lookup is one more in 64 bits. -/
theorem shown_succ (i : Item) : Item.shown { i with hits := i.hits + 1 } =
    { i.shown with hitCount := .ofNat i.hits + 1 } := by
  have hcount : UInt64.ofNat (i.hits + 1) = .ofNat i.hits + 1 := UInt64.ofNat_add i.hits 1
  unfold Item.shown
  dsimp only
  rw [hcount]

/-- A count that fits into 64 bits is shown as it is. -/
theorem hitCount_shown {i : Item} (h : i.hits < UInt64.size) : i.shown.hitCount.toNat = i.hits :=
  UInt64.toNat_ofNat_of_lt h

/-- An entry is found among the shown ones as among the items. -/
theorem map_shown_find? (items : List Item) (hash : String) :
    (items.find? (·.entry.inputHash == hash)).map Item.shown =
      (items.map Item.shown).find? (·.inputHash == hash) := by
  rw [List.find?_map]
  rfl

/-- It is dropped from them as from the items. -/
theorem map_shown_filter (items : List Item) (hash : String) :
    (items.filter (·.entry.inputHash != hash)).map Item.shown =
      (items.map Item.shown).filter (·.inputHash != hash) := by
  rw [List.filter_map]
  rfl

/-- No count in the list is beyond `n`. -/
def Counts (n : Nat) (r : Recency) : Prop :=
  ∀ i ∈ r.entries, i.hits ≤ n

variable {n : Nat} {r : Recency}

/-- Putting an entry with no more hits than counted keeps the bound. -/
theorem Counts.put (h : r.Counts n) {room : Nat} {e : CacheEntry} (he : e.hitCount.toNat ≤ n) :
    (r.put room e).Counts n := by
  intro i hi
  rcases List.mem_append.1 (List.mem_of_mem_drop hi) with hi | hi
  · exact h i (List.mem_filter.1 hi).1
  · rw [List.mem_singleton.1 hi]
    exact he

/-- An access makes counts greater by one at most. -/
theorem Counts.perform (h : r.Counts n) (room : Nat) (ttl : Option Nat) {a : Access}
    (ha : Access.Counts n a) :
    (∀ i ∈ (r.perform room ttl a).1, i.hits ≤ n + 1) ∧ (r.perform room ttl a).2.Counts (n + 1) := by
  have hmore {r : Recency} (h : r.Counts n) : r.Counts (n + 1) := fun i hi => Nat.le_succ_of_le (h i hi)
  cases a with
  | put e => exact ⟨nofun, hmore (h.put ha)⟩
  | putPinned e => exact ⟨nofun, hmore (h.put ha)⟩
  | get hash now =>
    -- the entries that stay have the counts they had
    have hothers : ∀ i ∈ r.entries.filter (·.entry.inputHash != hash), i.hits ≤ n + 1 := fun i hi =>
      hmore h i (List.mem_filter.1 hi).1
    unfold Recency.perform Recency.get
    dsimp only
    split
    · exact ⟨nofun, hmore h⟩
    next i hfind =>
      have hhit : i.hits + 1 ≤ n + 1 := Nat.succ_le_succ (h i (List.mem_of_find?_eq_some hfind))
      split
      · exact ⟨nofun, hothers⟩
      · refine ⟨?_, fun j hj => ?_⟩
        · rintro _ ⟨⟩
          exact hhit
        · rcases List.mem_append.1 hj with hj | hj
          · exact hothers j hj
          · rw [List.mem_singleton.1 hj]
            exact hhit

/-- A run makes them greater by the number of accesses at most. -/
theorem Counts.run (h : r.Counts n) (room : Nat) (ttl : Option Nat) {accesses : List Access}
    (ha : ∀ a ∈ accesses, Access.Counts n a) :
    (∀ answer ∈ (Access.run (Recency.perform room ttl) r accesses).1, ∀ i ∈ answer,
        i.hits ≤ n + accesses.length) ∧
      (Access.run (Recency.perform room ttl) r accesses).2.Counts (n + accesses.length) := by
  induction accesses generalizing n r with
  | nil => exact ⟨nofun, h⟩
  | cons a rest ih =>
    rw [List.forall_mem_cons] at ha
    obtain ⟨hanswer, hnext⟩ := h.perform room ttl ha.1
    -- the bound grows with every access, so what is put later stays below it
    have hrest : ∀ a ∈ rest, Access.Counts (n + 1) a := by
      intro a hmem
      have hle := ha.2 a hmem
      cases a with
      | get => trivial
      | put e => exact Nat.le_succ_of_le hle
      | putPinned e => exact Nat.le_succ_of_le hle
    obtain ⟨hanswers, hlast⟩ := ih hnext hrest
    rw [List.length_cons, Nat.add_comm rest.length, ← Nat.add_assoc]
    refine ⟨fun answer hmem i hi => ?_, hlast⟩
    rcases List.mem_cons.1 hmem with rfl | hmem
    · exact Nat.le_trans (hanswer i hi) (Nat.le_add_right _ _)
    · exact hanswers answer hmem i hi

end Recency

/-! ## The cache -/

namespace Cache

/-- One access: only a lookup has an answer. -/
def perform (c : Cache) : Access → Option CacheEntry × Cache
  | .get hash now => c.get hash now
  | .put e => (none, c.put e)
  | .putPinned e => (none, c.putPinned e)

/-- Puts an entry under its digest, with the next stamp. -/
def place (c : Cache) (e : CacheEntry) : Cache :=
  { c with
    entries := c.entries.insert e.inputHash { e with lastUsed := c.clock + 1 }
    clock := c.clock + 1 }

/-- Goes along a listing of the entries and drops them as long as there are too many. -/
def dropInTurn (c : Cache) : List CacheEntry → Cache
  | [] => c
  | e :: rest =>
    if c.entries.length ≤ c.capacity then c
    else dropInTurn { c.erase e.inputHash with evictions := c.evictions + 1 } rest

/-- Adds an entry and drops the oldest ones in turn, where `order` lists the entries. -/
def putInTurn (order : Cache → List CacheEntry) (c : Cache) (e : CacheEntry) : Cache :=
  (c.place e).dropInTurn ((order (c.place e)).mergeSort CacheEntry.isOlder)

/-- The accesses when `order` is the order in which the entries are listed. -/
def performIn (order : Cache → List CacheEntry) (c : Cache) : Access → Option CacheEntry × Cache
  | .get hash now => c.get hash now
  | .put e => (none, c.putInTurn order e)
  | .putPinned e => (none, c.putInTurn order { e with pinned := true })

/-- The entries from the least to the most recently used one, without their stamps. -/
def byRecency (c : Cache) : List CacheEntry :=
  (c.entries.values.mergeSort CacheEntry.isOlder).map CacheEntry.unstamped

/-- `l` holds the entries of the cache from the oldest stamp to the latest, and the clock has not
reached the next stamp. -/
structure Ages (c : Cache) (l : List CacheEntry) : Prop extends c.Indexed where
  perm : l.Perm c.entries.values
  older : l.Pairwise fun a b => a.lastUsed < b.lastUsed
  stamped : ∀ e ∈ l, e.lastUsed ≤ c.clock

end Cache

/-! ## Entries by age -/

/-- What was used before is older. -/
theorem CacheEntry.isOlder_of_lt {a b : CacheEntry} (h : a.lastUsed < b.lastUsed) :
    a.isOlder b = true := by
  simp [isOlder, h]

/-- Being older goes from one entry to the next. -/
theorem CacheEntry.isOlder_trans (a b c : CacheEntry) (hab : a.isOlder b = true)
    (hbc : b.isOlder c = true) : a.isOlder c = true := by
  simp only [isOlder, Bool.or_eq_true, Bool.and_eq_true, decide_eq_true_eq, beq_iff_eq] at *
  rcases hab with hab | ⟨hab, hab'⟩
  · exact .inl (by omega)
  · rcases hbc with hbc | ⟨hbc, hbc'⟩
    · exact .inl (by omega)
    · exact .inr ⟨hab.trans hbc, String.le_trans hab' hbc'⟩

/-- Of two entries one is older. -/
theorem CacheEntry.isOlder_total (a b : CacheEntry) : (a.isOlder b || b.isOlder a) = true := by
  simp only [isOlder, Bool.or_eq_true, Bool.and_eq_true, decide_eq_true_eq, beq_iff_eq]
  -- entries of the same time are told apart by their digests
  rcases Nat.lt_trichotomy a.lastUsed b.lastUsed with h | h | h
  · exact .inl (.inl h)
  · rcases String.le_total a.inputHash b.inputHash with hle | hle
    · exact .inl (.inr ⟨h, hle⟩)
    · exact .inr (.inr ⟨h.symm, hle⟩)
  · exact .inr (.inl h)

namespace Cache

variable {c : Cache} {l : List CacheEntry}

/-- Taking out the digests of the first entries leaves the others. -/
theorem filter_not_gone (gone stay : List CacheEntry)
    (h : ((gone ++ stay).map (·.inputHash)).Nodup) :
    ((gone ++ stay).filter fun e => !(gone.map (·.inputHash)).contains e.inputHash) = stay := by
  rw [List.map_append, List.nodup_append] at h
  obtain ⟨-, -, hapart⟩ := h
  -- digests are told apart, so none of the last entries has one of the first
  have hgone : (gone.filter fun e => !(gone.map (·.inputHash)).contains e.inputHash) = [] := by
    refine List.filter_eq_nil_iff.2 fun e he => ?_
    have hmem : e.inputHash ∈ gone.map (·.inputHash) := List.mem_map_of_mem he
    simpa using hmem
  have hstay : (stay.filter fun e => !(gone.map (·.inputHash)).contains e.inputHash) = stay := by
    refine List.filter_eq_self.2 fun e he => ?_
    have hnot : e.inputHash ∉ gone.map (·.inputHash) := fun hmem =>
      hapart _ hmem _ (List.mem_map_of_mem he) rfl
    simpa using hnot
  rw [List.filter_append, hgone, hstay, List.nil_append]

/-- Taking out the first digest leaves the other entries. -/
theorem filter_ne_head {e : CacheEntry} {rest : List CacheEntry}
    (h : ((e :: rest).map (·.inputHash)).Nodup) :
    (e :: rest).filter (·.inputHash != e.inputHash) = rest := by
  have hrest := filter_not_gone [e] rest h
  simpa [bne] using hrest

namespace Ages

/-- The empty cache has an empty order of ages. -/
theorem empty (capacity : Nat) (ttl : Option Nat) : (Cache.empty capacity ttl).Ages [] :=
  ⟨.empty capacity ttl, .nil, .nil, nofun⟩

/-- The order of ages has each entry once. -/
theorem length_eq (h : c.Ages l) : l.length = c.entries.length := by
  rw [h.perm.length_eq, Fields.values, List.length_map]

/-- An entry is known by its stamp. -/
theorem eq_of_stamp (h : c.Ages l) {a b : CacheEntry} (ha : a ∈ l) (hb : b ∈ l)
    (hab : a.lastUsed = b.lastUsed) : a = b := by
  have heq : l.Pairwise fun a b => a.lastUsed = b.lastUsed → a = b :=
    h.older.imp fun hlt heq => absurd heq (Nat.ne_of_lt hlt)
  have hflip : l.Pairwise fun a b => b.lastUsed = a.lastUsed → b = a :=
    h.older.imp fun hlt heq => absurd heq.symm (Nat.ne_of_lt hlt)
  exact List.Pairwise.forall_of_forall_of_flip (fun _ _ _ => rfl) heq hflip ha hb hab

/-- However the entries are listed, sorting by age gives the same. -/
theorem sorted_eq (h : c.Ages l) {listing : List CacheEntry}
    (hp : listing.Perm c.entries.values) : listing.mergeSort CacheEntry.isOlder = l := by
  -- sorting only rearranges, and no two stamps are equal
  have hperm : (listing.mergeSort CacheEntry.isOlder).Perm l :=
    (List.mergeSort_perm listing _).trans (hp.trans h.perm.symm)
  refine hperm.eq_of_pairwise (fun a b ha hb hab hba => ?_)
    (List.pairwise_mergeSort CacheEntry.isOlder_trans CacheEntry.isOlder_total listing)
    (h.older.imp CacheEntry.isOlder_of_lt)
  refine h.eq_of_stamp (hperm.subset ha) hb ?_
  simp only [CacheEntry.isOlder, Bool.or_eq_true, Bool.and_eq_true, decide_eq_true_eq,
    beq_iff_eq] at hab hba
  omega

/-! ### Digests -/

/-- No input stands twice in it. -/
theorem nodup (h : c.Ages l) : (l.map (·.inputHash)).Nodup := by
  have hkeys : c.entries.values.map (·.inputHash) = c.entries.keys := by
    rw [Fields.values, List.map_map]
    exact List.map_congr_left fun p hp => h.own p hp
  rw [(h.perm.map _).nodup_iff, hkeys]
  exact h.inOrder.nodup_keys

/-- What stands under a digest is the entry with that digest. -/
theorem get?_eq (h : c.Ages l) (hash : String) :
    c.entries.get? hash = l.find? (·.inputHash == hash) := by
  -- entries stand under their own digests, so both find the same one
  cases hfind : l.find? (·.inputHash == hash) with
  | none =>
    cases hget : c.entries.get? hash with
    | none => rfl
    | some e =>
      have hmem := Fields.mem_of_get? hget
      have hl : e ∈ l := h.perm.mem_iff.2 (List.mem_map_of_mem hmem)
      have hown : e.inputHash = hash := h.own _ hmem
      have hnone := List.find?_eq_none.1 hfind e hl
      exact absurd (beq_iff_eq.2 hown) hnone
  | some e =>
    have hhash : e.inputHash = hash := by simpa using List.find?_some hfind
    obtain ⟨⟨key, e'⟩, hmem, rfl⟩ := List.mem_map.1 (h.perm.subset (List.mem_of_find?_eq_some hfind))
    have hown : e'.inputHash = key := h.own _ hmem
    rw [← hhash, hown]
    exact h.inOrder.get?_of_mem hmem

/-! ### Operations -/

/-- The entries whose digests are chosen stay, in their order. -/
theorem keep (h : c.Ages l) (p : String → Bool) (evictions : Nat) :
    Ages { c with entries := c.entries.filter fun e => p e.1, evictions }
      (l.filter fun e => p e.inputHash) := by
  -- entries stand under their own digests
  have hvalues : Fields.values (c.entries.filter fun e => p e.1) =
      c.entries.values.filter fun e => p e.inputHash := by
    rw [Fields.values, Fields.values, List.filter_map]
    refine congrArg _ (List.filter_congr fun e he => ?_)
    rw [Function.comp_apply, h.own e he]
  refine ⟨⟨h.inOrder.filter _, fun e he => h.own e (List.mem_filter.1 he).1⟩, ?_,
    h.older.filter _, fun e he => h.stamped e (List.mem_filter.1 he).1⟩
  show List.Perm _ (Fields.values (c.entries.filter fun e => p e.1))
  rw [hvalues]
  exact h.perm.filter _

/-- Erasing an entry drops it from the order. -/
theorem erase (h : c.Ages l) (hash : String) :
    (c.erase hash).Ages (l.filter (·.inputHash != hash)) :=
  h.keep (· != hash) c.evictions

/-- Placing an entry makes it the youngest. -/
theorem place (h : c.Ages l) (e : CacheEntry) :
    (c.place e).Ages
      (l.filter (·.inputHash != e.inputHash) ++ [{ e with lastUsed := c.clock + 1 }]) := by
  have herase := h.erase e.inputHash
  refine ⟨⟨h.inOrder.insert _ _, fun p hp => ?_⟩, ?_, ?_, fun x hx => ?_⟩
  · rcases Fields.mem_insert hp with rfl | hp
    · rfl
    · exact h.own p hp
  · refine List.Perm.trans ?_ (h.inOrder.values_insert _ _).symm
    exact (List.perm_append_singleton _ _).trans (herase.perm.cons _)
  · -- the new stamp is later than all others
    refine List.pairwise_append.2 ⟨herase.older, List.pairwise_singleton _ _, fun a ha b hb => ?_⟩
    obtain rfl := List.mem_singleton.1 hb
    exact Nat.lt_succ_of_le (herase.stamped a ha)
  · rcases List.mem_append.1 hx with hx | hx
    · exact Nat.le_succ_of_le (herase.stamped x hx)
    · obtain rfl := List.mem_singleton.1 hx
      exact Nat.le_refl _

/-- Making room drops the oldest ones, as many as there are too many. -/
theorem prune_eq (h : c.Ages l) :
    let gone := (l.take (l.length - c.capacity)).map (·.inputHash)
    c.prune = { c with
      entries := c.entries.filter fun e => !gone.contains e.1
      evictions := c.evictions + gone.length } := by
  unfold Cache.prune
  rw [h.sorted_eq (.refl _), h.length_eq]

/-- The oldest entries are dropped. -/
theorem prune (h : c.Ages l) : c.prune.Ages (l.drop (l.length - c.capacity)) := by
  rw [h.prune_eq]
  -- the list begins with its oldest entries
  generalize l.length - c.capacity = n
  have hstay := filter_not_gone (l.take n) (l.drop n)
    (by rw [List.take_append_drop]; exact h.nodup)
  rw [List.take_append_drop] at hstay
  have hkeep := h.keep (fun hash => !((l.take n).map (·.inputHash)).contains hash)
    (c.evictions + ((l.take n).map (·.inputHash)).length)
  rwa [hstay] at hkeep

/-- Each of them is counted as evicted. -/
theorem evictions_prune (h : c.Ages l) :
    c.prune.evictions = c.evictions + (l.length - c.capacity) := by
  rw [h.prune_eq]
  simp only [List.length_map, List.length_take]
  omega

/-- Dropping entries in turn from the oldest on drops all that are too many. -/
theorem dropInTurn_eq (h : c.Ages l) : c.dropInTurn l = c.prune := by
  induction l generalizing c with
  | nil =>
    have hroom : c.entries.length ≤ c.capacity := by
      rw [← h.length_eq]
      exact Nat.zero_le _
    exact (prune_eq_self hroom).symm
  | cons e rest ih =>
    rw [dropInTurn]
    split
    · next hle => exact (prune_eq_self hle).symm
    · next hlt =>
      rw [← h.length_eq, List.length_cons] at hlt
      -- without the oldest entry the others are in turn
      have hrest := h.keep (· != e.inputHash) (c.evictions + 1)
      rw [filter_ne_head h.nodup] at hrest
      have hgone : ((e :: rest).take ((e :: rest).length - c.capacity)).map (·.inputHash) =
          e.inputHash :: (rest.take (rest.length - c.capacity)).map (·.inputHash) := by
        rw [List.length_cons, Nat.succ_sub (by omega), List.take_succ_cons, List.map_cons]
      refine (ih hrest).trans ?_
      rw [hrest.prune_eq, h.prune_eq, hgone]
      simp only [List.filter_filter, List.contains_cons, List.length_cons]
      congr 1
      · congr 1
        funext p
        rw [Bool.not_or, Bool.and_comm]
        rfl
      · omega

/-- Which entries are dropped does not depend on the order they are listed in. -/
theorem putInTurn_eq (h : c.Ages l) {order : Cache → List CacheEntry}
    (horder : ∀ c, (order c).Perm c.entries.values) (e : CacheEntry) :
    c.putInTurn order e = c.put e := by
  have hplace := h.place e
  rw [putInTurn, hplace.sorted_eq (horder _), hplace.dropInTurn_eq]
  rfl

end Ages

/-! ## Cache and list in step -/

/-- The cache holds the entries of the list, by age, and has dropped as many as the list. -/
structure Shows (capacity : Nat) (ttl : Option Nat) (c : Cache) (r : Recency) : Prop where
  ages : ∃ l, c.Ages l ∧ l.length ≤ max capacity 1 ∧
    r.entries.map Recency.Item.shown = l.map CacheEntry.unstamped
  capacity_eq : c.capacity = max capacity 1
  ttl_eq : c.ttl = ttl
  evictions_eq : c.evictions = r.dropped.length

namespace Shows

variable {capacity : Nat} {ttl : Option Nat} {r : Recency}

/-- The empty cache shows an empty list. -/
theorem empty (capacity : Nat) (ttl : Option Nat) :
    Shows capacity ttl (Cache.empty capacity ttl) {} :=
  ⟨⟨[], .empty capacity ttl, Nat.zero_le _, rfl⟩, rfl, rfl, rfl⟩

/-- An item expires when the entry that it shows does. -/
theorem isExpired_eq (h : Shows capacity ttl c r) {i : Recency.Item} {e : CacheEntry}
    (hi : i.shown = e.unstamped) (now : Int) :
    Recency.isExpired ttl i.entry now = c.isExpired e now := by
  -- the stamp has no part in whether an entry expires
  have hpinned : i.shown.pinned = e.unstamped.pinned := by rw [hi]
  have hcreated : i.shown.createdMillis = e.unstamped.createdMillis := by rw [hi]
  unfold Recency.isExpired Cache.isExpired
  rw [h.ttl_eq, show i.entry.pinned = e.pinned from hpinned,
    show i.entry.createdMillis = e.createdMillis from hcreated]
  cases ttl with
  | none => rw [Option.any_none, Bool.and_false]
  | some ttl => rfl

/-- Putting an entry does the same to the list. -/
theorem put (h : Shows capacity ttl c r) (e : CacheEntry) :
    Shows capacity ttl (c.put e) (r.put (max capacity 1) e) := by
  obtain ⟨⟨l, hl, -, hr⟩, hcapacity, httl, hevictions⟩ := h
  have hplace := hl.place e
  generalize hkept : l.filter (·.inputHash != e.inputHash) ++ [{ e with lastUsed := c.clock + 1 }]
    = kept at hplace
  -- what the list keeps are the entries of the cache before the oldest go
  have hlist : (r.entries.filter (fun i => i.entry.inputHash != e.inputHash) ++
      [Recency.Item.of e]).map Recency.Item.shown = kept.map CacheEntry.unstamped := by
    rw [← hkept, List.map_append, List.map_append, Recency.map_shown_filter, hr, List.filter_map,
      List.map_singleton, Recency.shown_of]
    rfl
  have hcount := congrArg List.length hlist
  rw [List.length_map, List.length_map] at hcount
  refine ⟨⟨_, hplace.prune, ?_, ?_⟩, hcapacity, httl, ?_⟩
  · show (kept.drop (kept.length - c.capacity)).length ≤ max capacity 1
    rw [List.length_drop, hcapacity]
    omega
  · show (List.drop _ _).map _ = List.map _ (kept.drop (kept.length - c.capacity))
    rw [List.map_drop, hlist, hcount, List.map_drop, hcapacity]
  · show (c.place e).prune.evictions = (r.dropped ++ List.take _ _).length
    rw [hplace.evictions_prune, List.length_append, List.length_take, hcount]
    show c.evictions + (kept.length - c.capacity) = _
    rw [hevictions, hcapacity]
    omega

/-- A lookup finds the same as in the list, and does the same to it. -/
theorem get (h : Shows capacity ttl c r) (hash : String) (now : Int) :
    (c.get hash now).1.map CacheEntry.unstamped =
        (r.get ttl hash now).1.map Recency.Item.shown ∧
      Shows capacity ttl (c.get hash now).2 (r.get ttl hash now).2 := by
  obtain ⟨⟨l, hl, hlength, hr⟩, hcapacity, httl, hevictions⟩ := id h
  have hfind : (r.entries.find? (·.entry.inputHash == hash)).map Recency.Item.shown =
      (c.entries.get? hash).map CacheEntry.unstamped := by
    rw [Recency.map_shown_find?, hr, List.find?_map, hl.get?_eq]
    rfl
  have hothers : (r.entries.filter (·.entry.inputHash != hash)).map Recency.Item.shown =
      (l.filter (·.inputHash != hash)).map CacheEntry.unstamped := by
    rw [Recency.map_shown_filter, hr, List.filter_map]
    rfl
  unfold Cache.get Recency.get
  cases hget : c.entries.get? hash with
  | none =>
    rw [hget, Option.map_none, Option.map_eq_none_iff] at hfind
    rw [hfind]
    exact ⟨rfl, h⟩
  | some e =>
    rw [hget, Option.map_some, Option.map_eq_some_iff] at hfind
    obtain ⟨i, hfind, hi⟩ := hfind
    rw [hfind]
    dsimp only
    rw [h.isExpired_eq hi]
    split
    · have hfewer := List.length_filter_le (·.inputHash != hash) l
      exact ⟨rfl, ⟨⟨_, hl.erase hash, by omega, hothers⟩, hcapacity, httl, hevictions⟩⟩
    · -- a hit is placed anew, with its count raised, and its old place is free
      have hmem : (hash, e) ∈ c.entries := Fields.mem_of_get? hget
      obtain rfl : e.inputHash = hash := hl.own _ hmem
      have hfewer : (l.filter (·.inputHash != e.inputHash)).length < l.length :=
        List.length_filter_lt_length_iff_exists.2
          ⟨e, hl.perm.mem_iff.2 (List.mem_map_of_mem hmem), by simp⟩
      have hplace := hl.place { e with hitCount := e.hitCount + 1 }
      have hhit : Recency.Item.shown { i with hits := i.hits + 1 } =
          CacheEntry.unstamped { e with hitCount := e.hitCount + 1 } := by
        have hcount : UInt64.ofNat i.hits = e.hitCount := congrArg CacheEntry.hitCount hi
        rw [Recency.shown_succ, hi, hcount]
        rfl
      refine ⟨?_, ⟨⟨_, hplace, ?_, ?_⟩, hcapacity, httl, hevictions⟩⟩
      · rw [Option.map_some, Option.map_some, hhit]
        rfl
      · rw [List.length_append, List.length_singleton]
        exact Nat.le_trans hfewer hlength
      · dsimp only
        rw [List.map_append, List.map_append, hothers, List.map_singleton, hhit]
        rfl

/-- So it is with any access. -/
theorem perform (h : Shows capacity ttl c r) (a : Access) :
    (c.perform a).1.map CacheEntry.unstamped =
        (r.perform (max capacity 1) ttl a).1.map Recency.Item.shown ∧
      Shows capacity ttl (c.perform a).2 (r.perform (max capacity 1) ttl a).2 := by
  cases a with
  | get hash now => exact h.get hash now
  | put e => exact ⟨rfl, h.put e⟩
  | putPinned e => exact ⟨rfl, h.put { e with pinned := true }⟩

/-- The order in which the entries are stored does not matter for an access. -/
theorem performIn_eq (h : Shows capacity ttl c r) {order : Cache → List CacheEntry}
    (horder : ∀ c, (order c).Perm c.entries.values) (a : Access) :
    c.performIn order a = c.perform a := by
  obtain ⟨⟨l, hl, -⟩, -⟩ := h
  cases a with
  | get hash now => rfl
  | put e => exact congrArg (none, ·) (hl.putInTurn_eq horder e)
  | putPinned e => exact congrArg (none, ·) (hl.putInTurn_eq horder { e with pinned := true })

/-- Cache and list stay in step over a whole run, in whatever order entries are listed. -/
theorem run (h : Shows capacity ttl c r) {order : Cache → List CacheEntry}
    (horder : ∀ c, (order c).Perm c.entries.values) (accesses : List Access) :
    let list := Access.run (Recency.perform (max capacity 1) ttl) r accesses
    let cache := Access.run Cache.perform c accesses
    Access.run (Cache.performIn order) c accesses = cache ∧
      cache.1.map (Option.map CacheEntry.unstamped) = list.1.map (Option.map Recency.Item.shown) ∧
      Shows capacity ttl cache.2 list.2 := by
  -- the cache shows the list before each access, and still does behind it
  induction accesses generalizing c r with
  | nil => exact ⟨rfl, rfl, h⟩
  | cons a rest ih =>
    obtain ⟨hanswer, hnext⟩ := h.perform a
    obtain ⟨horders, hanswers, hlast⟩ := ih hnext
    simp only [Access.run]
    rw [h.performIn_eq horder, horders]
    exact ⟨rfl, congrArg₂ List.cons hanswer hanswers, hlast⟩

end Shows

end Cache

/-! ## Whole runs -/

/-- A cache is a list of the entries in the order they were last used, whatever it is asked for and
in whatever order `order` lists the entries when some have to go: it gives the same answers and
keeps the same entries, each under its own digest and never more than it has room for, and its
evictions are the entries that the list dropped.  It shows the counts of lookups in 64 bits, and so
as they are unless one of them grows beyond these. -/
theorem lru_exact (capacity : Nat) (ttl : Option Nat) {order : Cache → List CacheEntry}
    (horder : ∀ c, (order c).Perm c.entries.values) (accesses : List Access) :
    let list := Access.run (Recency.perform (max capacity 1) ttl) {} accesses
    let cache := Access.run Cache.perform (Cache.empty capacity ttl) accesses
    Access.run (Cache.performIn order) (Cache.empty capacity ttl) accesses = cache ∧
      cache.1.map (Option.map CacheEntry.unstamped) = list.1.map (Option.map Recency.Item.shown) ∧
      cache.2.byRecency = list.2.entries.map Recency.Item.shown ∧
      (∀ n, n + accesses.length < UInt64.size → (∀ a ∈ accesses, Access.Counts n a) →
        (∀ answer ∈ list.1, ∀ i ∈ answer, i.shown.hitCount.toNat = i.hits) ∧
          ∀ i ∈ list.2.entries, i.shown.hitCount.toNat = i.hits) ∧
      (list.2.entries.map (·.entry.inputHash)).Nodup ∧
      cache.2.size ≤ max capacity 1 ∧
      (∀ p ∈ cache.2.entries, p.2.inputHash = p.1) ∧
      cache.2.evictions = list.2.dropped.length := by
  intro list cache
  obtain ⟨horders, hanswers, hshows⟩ := (Cache.Shows.empty capacity ttl).run horder accesses
  obtain ⟨⟨l, hl, hlength, hentries⟩, -, -, hevictions⟩ := hshows
  refine ⟨horders, hanswers, ?_, fun n hn hcounts => ?_, ?_, ?_, hl.own, hevictions⟩
  · rw [Cache.byRecency, hl.sorted_eq (.refl _), hentries]
  · -- a new list has no counts, so they are bounded by the accesses alone
    have hempty : Recency.Counts n {} := nofun
    obtain ⟨hfirst, hlast⟩ := hempty.run (max capacity 1) ttl hcounts
    exact ⟨fun answer hmem i hi => Recency.hitCount_shown (Nat.lt_of_le_of_lt (hfirst answer hmem i hi) hn),
      fun i hi => Recency.hitCount_shown (Nat.lt_of_le_of_lt (hlast i hi) hn)⟩
  · have hhashes : list.2.entries.map (·.entry.inputHash) =
        (list.2.entries.map Recency.Item.shown).map (·.inputHash) := by
      rw [List.map_map]
      rfl
    rw [hhashes, hentries, List.map_map]
    exact hl.nodup
  · rw [Cache.size, ← hl.length_eq]
    exact hlength

/-- An entry for the digest, made at the start of 1970. -/
def CacheEntry.sample (hash : String) : CacheEntry where
  inputHash := hash
  primitive := "infer"
  output := .text hash
  outputHash := hash
  createdAt := ""
  createdMillis := 0

/-- Room for two: an entry that was looked up stays, and the one that was not goes, also when the
entries are listed from behind. -/
theorem lru_exact_two :
    let accesses : List Access :=
      [.put (.sample "a"), .put (.sample "b"), .get "a" 0, .put (.sample "c"), .get "b" 0]
    let cache := Access.run (Cache.performIn fun c => c.entries.values.reverse) (.empty 2 none)
      accesses
    cache.1.map (Option.map (·.hitCount.toNat)) = [none, none, some 1, none, none] ∧
      cache.2.byRecency.map (·.inputHash) = ["a", "c"] ∧ cache.2.evictions = 1 := by
  intro accesses cache
  obtain ⟨horders, hanswers, hentries, -, -, -, -, hevictions⟩ :=
    lru_exact 2 none (fun c => List.reverse_perm c.entries.values) accesses
  -- the time of the last use has no part in the counts
  have hhits : cache.1.map (Option.map (·.hitCount.toNat)) =
      (cache.1.map (Option.map CacheEntry.unstamped)).map (Option.map (·.hitCount.toNat)) := by
    rw [List.map_map]
    refine List.map_congr_left fun answer _ => ?_
    cases answer <;> rfl
  rw [hhits]
  simp only [cache, horders]
  rw [hanswers, hentries, hevictions]
  decide

/-- An entry whose count is the greatest number of 64 bits was never looked up, by its count, when
it is looked up once more: the list counts on. -/
theorem lru_count_restarts :
    let accesses : List Access :=
      [.put { CacheEntry.sample "a" with hitCount := 18446744073709551615 }, .get "a" 0]
    (Access.run Cache.perform (.empty 2 none) accesses).1.map (Option.map (·.hitCount.toNat)) =
        [none, some 0] ∧
      (Access.run (Recency.perform 2 none) {} accesses).1.map (Option.map (·.hits)) =
        [none, some UInt64.size] := by
  decide

end BrailleScript
