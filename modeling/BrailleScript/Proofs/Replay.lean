import Mathlib.Data.List.Dedup
import Mathlib.Data.List.Perm.Subperm
import BrailleScript.Proofs.Ledger.Cache
import BrailleScript.Proofs.Machine.LockstepRun
import BrailleScript.Proofs.Machine.Service

/-!
# Replaying a run from its bundle

A run that keeps all its answers leaves a bundle from which the program can be run again without a
backend.  The two runs go in lockstep: every answer of the first one stays in its cache to the end,
so the second one finds it among the entries of the bundle.

The first run is lost, in the sense of a `Lockstep`, as soon as a call fails, there are more inputs
than the cache has room for, or an answer differs from the one that the bundle has for its input.

## Key results

- `Recording.served`, `Replaying.served`: what a request preserves in either run
- `sound`: the two runs go in lockstep
- `replay_exact`: the second run ends like the first one and never asks its backend
-/

namespace BrailleScript.Replay

/-- The surroundings of a run that keeps its answers: no time to live, and every kept answer is
that of a recorded call. -/
structure Recording (capacity : Nat) (s : Surroundings) : Prop where
  enabled : s.ledger.config.cacheEnabled = true
  ttl : s.ledger.cache.ttl = none
  room : s.ledger.cache.capacity = Nat.max capacity 1
  indexed : s.ledger.cache.Indexed
  recorded : ∀ p ∈ s.ledger.cache.entries, p.1 ∈ s.ledger.keptInputs

/-- There were more inputs than the cache has room for. -/
def Overfull (capacity : Nat) (s : Surroundings) : Prop :=
  capacity < s.ledger.keptInputs.dedup.length

/-- An answer was kept that is not in the script. -/
def Strays (script : String → Option Json) (s : Surroundings) : Prop :=
  ∃ hash output, s.ledger.cache.output? hash = some output ∧ script hash ≠ some output

/-- The surroundings of a run that finds all answers of the script in its cache. -/
structure Replaying (script : String → Option Json) (s : Surroundings) : Prop where
  enabled : s.ledger.config.cacheEnabled = true
  pinned : ∀ hash output, script hash = some output → s.ledger.cache.Pinned hash output
  requests : s.requests = 0
  hits : ∀ n ∈ s.ledger.keptNodes, n.cacheHit = true

/-- A run that records and one that replays. -/
def lockstep (capacity : Nat) (script : String → Option Json) : Lockstep where
  watch := .any
  stop := .exhausted
  related a b :=
    Recording capacity a ∧ ¬Strays script a ∧ Replaying script b ∧
      b.backend.model = a.backend.model ∧ b.backend.maxTokens = a.backend.maxTokens ∧
      b.traced = a.traced
  lost a := Recording capacity a ∧ (a.ledger.HasFailed ∨ Overfull capacity a ∨ Strays script a)
  broken _ := False

variable {capacity : Nat} {script : String → Option Json}

/-! ## Room for all inputs -/

/-- Fields in order have no more entries than there are different keys to choose from. -/
theorem length_le_dedup {α : Type} {fields : Fields α} (h : fields.InOrder) (inputs : List String)
    (hin : ∀ p ∈ fields, p.1 ∈ inputs) : fields.length ≤ inputs.dedup.length := by
  have hsub : fields.keys ⊆ inputs.dedup := by
    intro key hkey
    obtain ⟨p, hp, rfl⟩ := List.mem_map.1 hkey
    exact List.mem_dedup.2 (hin p hp)
  -- keys in order are all different, so they are a sublist of the different inputs
  have hlen := (h.nodup_keys.subperm hsub).length_le
  rwa [Fields.keys, List.length_map] at hlen

/-- More inputs are no fewer different ones. -/
theorem dedup_length_mono {l l' : List String} (h : l ⊆ l') : l.dedup.length ≤ l'.dedup.length := by
  refine ((List.nodup_dedup l).subperm fun x hx => ?_).length_le
  exact List.mem_dedup.2 (h (List.mem_dedup.1 hx))

/-! ## Quiet changes -/

section Quiet

variable {a a' : Surroundings}

/-- A quiet change leaves a recording. -/
theorem Recording.quiet (h : Recording capacity a) (hq : a.Quiet a') : Recording capacity a' := by
  obtain ⟨ledger, readings, hl, -, rfl⟩ := hq
  constructor
  · exact hl.config_eq ▸ h.enabled
  · exact hl.cache_eq ▸ h.ttl
  · exact hl.cache_eq ▸ h.room
  · exact hl.cache_eq ▸ h.indexed
  · show ∀ p ∈ ledger.cache.entries, p.1 ∈ ledger.keptInputs
    -- the cache is the same, and so are the inputs that were recorded
    rw [hl.cache_eq, hl.keptInputs_eq]
    exact h.recorded

/-- It does not stray from the script. -/
theorem strays_quiet (hq : a.Quiet a') : Strays script a' ↔ Strays script a := by
  obtain ⟨ledger, readings, hl, -, rfl⟩ := hq
  unfold Strays
  rw [hl.cache_eq]

/-- It adds nothing to what the cache holds. -/
theorem overfull_quiet (hq : a.Quiet a') : Overfull capacity a' ↔ Overfull capacity a := by
  obtain ⟨ledger, readings, hl, -, rfl⟩ := hq
  unfold Overfull
  rw [hl.keptInputs_eq]

/-- It leaves a replay. -/
theorem Replaying.quiet (h : Replaying script a) (hq : a.Quiet a') : Replaying script a' := by
  obtain ⟨ledger, readings, hl, -, rfl⟩ := hq
  constructor
  · exact hl.config_eq ▸ h.enabled
  · exact hl.cache_eq ▸ h.pinned
  · exact h.requests
  · intro n hn
    -- a quiet change adds no call that is kept, so there is nothing new to be a hit
    have hmap := hl.map_keptNodes (g := (·.cacheHit)) fun _ hit => hit
    have hmem := List.mem_map_of_mem (f := (·.cacheHit)) hn
    rw [hmap] at hmem
    obtain ⟨n', hn', he⟩ := List.mem_map.1 hmem
    rw [← he]
    exact h.hits n' hn'

end Quiet

/-! ## Requests of the first run -/

section Serve

variable {a : Surroundings} {q : Request} {pos : Pos} {r : Except Cause Json × Surroundings}

/-- A request adds its input to those that are kept. -/
theorem keptInputs_opened (a : Surroundings) (q : Request) (pos : Pos) :
    (a.opened q pos).keptInputs = a.ledger.keptInputs ++ [q.inputHash] := by
  unfold Ledger.keptInputs Surroundings.opened
  rw [Ledger.keptNodes_openPending, if_pos, List.map_append]
  · rfl
  · exact q.isCacheable_primitive

/-- Every request is recorded with its input. -/
theorem keptInputs_served (h : a.Served q pos r) :
    r.2.ledger.keptInputs = a.ledger.keptInputs ++ [q.inputHash] := by
  -- a hit records a node at once, and the end of a call changes nothing in its input
  cases h with
  | hit e he =>
    obtain ⟨n, hn, hhash, -⟩ := Ledger.keptNodes_recordHit
      { a.ledger with cache := (a.lookup q).2 } Run.mainThread (a.clock a.readings) (q.call pos) e
      q.isCacheable_primitive
    show List.map _ _ = _
    rw [hn, List.map_append, List.map_singleton, hhash]
    rfl
  | done output requests latencyMs he hp =>
    rw [← keptInputs_opened a q pos]
    exact Ledger.map_keptNodes_succeed _ _ _ _ _ _ (fun hash _ => hash) _
  | failed cause requests latencyMs he hp =>
    rw [← keptInputs_opened a q pos]
    exact Ledger.map_keptNodes_fail _ _ _ _ (fun hash _ => hash) _

/-- With the cache on, a request is looked up. -/
theorem lookup_of_enabled (h : a.ledger.config.cacheEnabled = true) :
    a.lookup q = a.ledger.cache.get q.inputHash (a.clock a.readings).millis := if_pos h

/-- With the cache on, its output is put there. -/
theorem stored_of_enabled (h : a.ledger.config.cacheEnabled = true) (output : Json) :
    a.stored q pos output =
      (a.lookup q).2.put (Ledger.entryOf (q.call pos) (a.clock (a.readings + 2)) output) := if_pos h

/-- The cache still answers with recorded calls only, after a lookup. -/
theorem Recording.recorded_lookup (h : Recording capacity a) {p : String × CacheEntry}
    (hp : p ∈ (a.lookup q).2.entries) : p.1 ∈ a.ledger.keptInputs := by
  rw [lookup_of_enabled h.enabled] at hp
  obtain ⟨e, _, _, he, -⟩ := Cache.mem_get hp
  exact h.recorded (p.1, e) he

/-- A recording goes on when a request is served. -/
theorem Recording.served (h : Recording capacity a) (hr : a.Served q pos r) :
    Recording capacity r.2 := by
  have hinputs := keptInputs_served hr
  have hget := lookup_of_enabled (q := q) h.enabled
  have hold {p : String × CacheEntry} (hp : p ∈ (a.lookup q).2.entries) :
      p.1 ∈ r.2.ledger.keptInputs := by
    rw [hinputs]
    exact List.mem_append_left _ (h.recorded_lookup hp)
  have hcapacity : (a.lookup q).2.capacity = Nat.max capacity 1 := by
    rw [hget, Cache.get_capacity]
    exact h.room
  have httl : (a.lookup q).2.ttl = none := by
    rw [hget, Cache.get_ttl]
    exact h.ttl
  have hindexed : (a.lookup q).2.Indexed := by
    rw [hget]
    exact h.indexed.get _ _
  -- only an answer of the backend is put into the cache, under the input of its own call
  cases hr with
  | hit e he => exact ⟨h.enabled, httl, hcapacity, hindexed, fun _ hp => hold hp⟩
  | done output requests latencyMs he hp =>
    have hcache := a.cache_succeed q pos latencyMs output
    rw [stored_of_enabled h.enabled] at hcache
    constructor
    · exact h.enabled
    · show Cache.ttl (Ledger.cache _) = none
      rw [hcache]
      exact httl
    · show Cache.capacity (Ledger.cache _) = _
      rw [hcache]
      exact hcapacity
    · show Cache.Indexed (Ledger.cache _)
      rw [hcache]
      exact hindexed.put _
    · intro p hp
      replace hp : p ∈ (Ledger.cache _).entries := hp
      rw [hcache] at hp
      rcases Cache.mem_put hp with rfl | hp
      · rw [hinputs]
        exact List.mem_append_right _ (.head _)
      · exact hold hp
  | failed cause requests latencyMs he hp =>
    exact ⟨h.enabled, httl, hcapacity, hindexed, fun _ hp => hold hp⟩

/-- What the cache answers after a request: what it answered before, and the answer given. -/
theorem Recording.output?_served (h : Recording capacity a) (hr : a.Served q pos r)
    (hroom : ¬Overfull capacity r.2) (name : String) :
    r.2.ledger.cache.output? name =
      match r.1 with
      | .ok output => if q.inputHash = name then some output else a.ledger.cache.output? name
      | .error _ => a.ledger.cache.output? name := by
  have hget := lookup_of_enabled (q := q) h.enabled
  have hlookup : (a.lookup q).2.output? name = a.ledger.cache.output? name := by
    rw [hget]
    exact Cache.output?_get h.ttl _ _ _
  have hinputs := keptInputs_served hr
  cases hr with
  | hit e he =>
    -- a hit answers with what the cache had under the same digest
    show (a.lookup q).2.output? name = if q.inputHash = name then _ else _
    rw [hlookup]
    split
    · rename_i hname
      rw [hget] at he
      rw [← hname]
      exact Cache.output?_of_get he
    · rfl
  | done output requests latencyMs he hp =>
    have hcache := a.cache_succeed q pos latencyMs output
    rw [stored_of_enabled h.enabled] at hcache
    show Cache.output? (Ledger.cache _) name = _
    rw [hcache, Cache.output?_put, hlookup]
    · rfl
    · -- all entries are under recorded inputs, and these are not too many
      have hindexed : (a.lookup q).2.Indexed := by
        rw [hget]
        exact h.indexed.get _ _
      refine Nat.le_trans (length_le_dedup (hindexed.inOrder.insert _ _)
        (a.ledger.keptInputs ++ [q.inputHash]) fun p hp => ?_) ?_
      · rcases Fields.mem_insert hp with rfl | hp
        · exact List.mem_append_right _ (.head _)
        · exact List.mem_append_left _ (h.recorded_lookup hp)
      · rw [← hinputs, hget, Cache.get_capacity, h.room]
        exact Nat.le_trans (Nat.le_of_not_lt hroom) (Nat.le_max_left _ _)
  | failed cause requests latencyMs he hp => exact hlookup

/-- An overfull cache stays so. -/
theorem overfull_served (hr : a.Served q pos r) (h : Overfull capacity a) :
    Overfull capacity r.2 := by
  refine Nat.lt_of_lt_of_le h (dedup_length_mono ?_)
  rw [keptInputs_served hr]
  exact List.subset_append_left _ _

/-- A failed call stays so. -/
theorem hasFailed_served (hr : a.Served q pos r) (h : a.ledger.HasFailed) :
    r.2.ledger.HasFailed := by
  -- the node that has failed stays where it is, in front of the new one
  have hopened : (a.opened q pos).HasFailed := by
    obtain ⟨n, hn, he⟩ := h
    refine ⟨n, ?_, he⟩
    unfold Surroundings.opened
    rw [Ledger.keptNodes_openPending]
    exact List.mem_append_left _ hn
  cases hr with
  | hit e he =>
    obtain ⟨n', hn', -⟩ := Ledger.keptNodes_recordHit
      { a.ledger with cache := (a.lookup q).2 } Run.mainThread (a.clock a.readings) (q.call pos) e
      q.isCacheable_primitive
    obtain ⟨n, hn, he⟩ := h
    refine ⟨n, ?_, he⟩
    show n ∈ Ledger.keptNodes _
    rw [hn']
    exact List.mem_append_left _ hn
  | done output requests latencyMs he hp => exact hopened.succeed _ _ _ _ _ _
  | failed cause requests latencyMs he hp => exact hopened.fail _ _ _ _

/-- An answer that strays from the script stays in the cache, if there is room. -/
theorem Recording.strays_served (h : Recording capacity a) (hr : a.Served q pos r)
    (hroom : ¬Overfull capacity r.2) (hs : Strays script a) : Strays script r.2 := by
  obtain ⟨hash, output, ho, hne⟩ := hs
  refine ⟨hash, output, ?_, hne⟩
  rw [h.output?_served hr hroom]
  have hget := lookup_of_enabled (q := q) h.enabled
  cases hr with
  | hit e he =>
    show (if q.inputHash = hash then _ else _) = _
    split
    · rename_i hhash
      rw [hget] at he
      rw [← ho, ← hhash]
      exact (Cache.output?_of_get he).symm
    · exact ho
  | done output' requests latencyMs he hp =>
    -- the cache had an answer for the digest, so this is another one
    have hhash : q.inputHash ≠ hash := by
      rintro rfl
      rw [hget] at he
      rw [Cache.output?_of_get_none h.ttl he] at ho
      exact nomatch ho
    show (if q.inputHash = hash then _ else _) = _
    rw [if_neg hhash]
    exact ho
  | failed cause requests latencyMs he hp => exact ho

/-- A request of the first run is answered as the script says, or the run is lost. -/
theorem Recording.script_served (h : Recording capacity a) (hr : a.Served q pos r) :
    (r.2.ledger.HasFailed ∨ Overfull capacity r.2 ∨ Strays script r.2) ∨
      ¬Strays script r.2 ∧ ∃ output, r.1 = .ok output ∧ script q.inputHash = some output := by
  by_cases hfull : Overfull capacity r.2
  · exact .inl (.inr (.inl hfull))
  by_cases hstrays : Strays script r.2
  · exact .inl (.inr (.inr hstrays))
  have hafter := h.output?_served hr hfull q.inputHash
  cases hr with
  | hit e he =>
    refine .inr ⟨hstrays, e.output, rfl, ?_⟩
    -- an answer that differs from the script would stray from it
    by_contra hne
    exact hstrays ⟨q.inputHash, e.output, hafter.trans (if_pos rfl), hne⟩
  | done output requests latencyMs he hp =>
    refine .inr ⟨hstrays, output, rfl, ?_⟩
    by_contra hne
    exact hstrays ⟨q.inputHash, output, hafter.trans (if_pos rfl), hne⟩
  | failed cause requests latencyMs he hp =>
    exact .inl (.inl (Ledger.hasFailed_fail _ _ _ _ _ _ q.isCacheable_primitive))

/-! ## Requests of the second run -/

/-- A request that the script answers is found in the cache of the second run. -/
theorem Replaying.served (h : Replaying script a) (hr : a.Served q pos r) {output : Json}
    (hscript : script q.inputHash = some output) :
    r.1 = .ok output ∧ Replaying script r.2 := by
  have hget := lookup_of_enabled (q := q) h.enabled
  -- pinned entries never expire, so the lookup finds the answer at any time
  obtain ⟨e', he', rfl⟩ := (h.pinned _ _ hscript).get_eq (a.clock a.readings).millis
  rw [← hget] at he'
  cases hr with
  | hit e he =>
    rw [he'] at he
    cases he
    refine ⟨rfl, h.enabled, fun hash output hs => ?_, h.requests, fun n hn => ?_⟩
    · show (a.lookup q).2.Pinned hash output
      rw [hget]
      exact (h.pinned hash output hs).after_get _
    · obtain ⟨n', hn', -, hhit⟩ := Ledger.keptNodes_recordHit
        { a.ledger with cache := (a.lookup q).2 } Run.mainThread (a.clock a.readings) (q.call pos)
        e' q.isCacheable_primitive
      replace hn : n ∈ Ledger.keptNodes _ := hn
      rw [hn'] at hn
      rcases List.mem_append.1 hn with hn | hn
      · exact h.hits n hn
      · rw [List.mem_singleton.1 hn]
        exact hhit
  | done output requests latencyMs he hp =>
    rw [he'] at he
    exact nomatch he
  | failed cause requests latencyMs he hp =>
    rw [he'] at he
    exact nomatch he

end Serve

/-! ## Lockstep -/

/-- The relation of a recording to its replay is steady. -/
theorem steady (capacity : Nat) (script : String → Option Json) :
    (lockstep capacity script).Steady := by
  constructor
  case broken_failed => exact fun _ h => h
  case quiet_left =>
    rintro a b a' ⟨hrec, hstrays, hrep, hmodel, htokens, htraced⟩ hq
    have hframe := hq
    obtain ⟨ledger, readings, -, -, rfl⟩ := hframe
    exact ⟨hrec.quiet hq, fun h => hstrays ((strays_quiet hq).1 h), hrep, hmodel, htokens, htraced⟩
  case quiet_right =>
    rintro a b b' ⟨hrec, hstrays, hrep, hmodel, htokens, htraced⟩ hq
    have hframe := hq
    obtain ⟨ledger, readings, -, -, rfl⟩ := hframe
    exact ⟨hrec, hstrays, hrep.quiet hq, hmodel, htokens, htraced⟩
  case quiet_lost =>
    rintro a a' ⟨hrec, hlost⟩ hq
    refine ⟨hrec.quiet hq, ?_⟩
    -- a recording that is lost for the replay stays so
    rcases hlost with hfailed | hfull | hstrays
    · obtain ⟨ledger, readings, hl, -, rfl⟩ := hq
      exact .inl (hl.hasFailed hfailed)
    · exact .inr (.inl ((overfull_quiet hq).2 hfull))
    · exact .inr (.inr ((strays_quiet hq).2 hstrays))

/-- It is kept by every request. -/
theorem sound (capacity : Nat) (script : String → Option Json) :
    (lockstep capacity script).Sound := by
  constructor
  case toSteady => exact steady capacity script
  case defaults =>
    rintro a b ⟨-, -, -, hmodel, htokens, -⟩
    exact ⟨hmodel, htokens⟩
  case admitted => exact .inr fun _ => trivial
  case serve_lost =>
    -- what is lost stays lost, whatever is asked next
    rintro a q pos ⟨hrec, hlost⟩
    have hr := a.served q pos
    refine ⟨hrec.served hr, ?_⟩
    by_cases hfull : Overfull capacity (a.serve q pos).2
    · exact .inr (.inl hfull)
    rcases hlost with hfailed | hfull' | hstrays
    · exact .inl (hasFailed_served hr hfailed)
    · exact absurd (overfull_served hr hfull') hfull
    · exact .inr (.inr (hrec.strays_served hr hfull hstrays))
  case serve =>
    rintro a b q pos ⟨hrec, hstrays, hrep, hmodel, htokens, htraced⟩ -
    have hra := a.served q pos
    have hrb := b.served q pos
    rcases hrec.script_served hra with hlost | ⟨hns, output, hout, hscript⟩
    · exact .inl ⟨hrec.served hra, hlost⟩
    · obtain ⟨hb, hrep'⟩ := hrep.served hrb hscript
      refine .inr ⟨hb.trans hout.symm, hrec.served hra, hns, hrep', ?_, ?_, ?_⟩
      · rw [hra.backend_eq, hrb.backend_eq, hmodel]
      · rw [hra.backend_eq, hrb.backend_eq, htokens]
      · rw [hra.traced_eq, hrb.traced_eq, htraced]
  case calls =>
    intro r r' f args
    refine .callFunction (steady capacity script) (fun _ _ => trivial) (fun _ _ => trivial) ?_
      r r' f args
    rintro a b ⟨-, -, -, -, -, htraced⟩
    exact htraced

/-! ## Whole runs -/

/-- A run that keeps its answers goes on doing so to its end. -/
theorem Recording.execute (bound : Nat) (program : Node) {m : Machine}
    (h : Recording capacity m.surroundings) :
    Recording capacity (m.execute bound program).2.surroundings :=
  Machine.execute_invariant (fun h hq => h.quiet hq)
    (fun q pos h => h.served (Surroundings.served _ q pos))
    bound program h

/-- A new ledger keeps answers if its cache is on and has no time to live. -/
theorem recording_start {config : LedgerConfig} (henabled : config.cacheEnabled = true)
    (httl : config.cacheTtlSecs = none) (options : RunOptions) (session : String)
    (backend : Backend) (clock : Nat → Instant) :
    Recording config.maxCacheEntries
      (Machine.fresh options (Ledger.start session config) backend clock).surroundings := by
  constructor
  · exact henabled
  · show config.cacheTtlSecs.map _ = none
    rw [httl]
    rfl
  · rfl
  · exact .empty _ _
  · exact fun _ h => nomatch h

/-- A new ledger that takes over a bundle with room for it finds all its answers. -/
theorem replaying_load {s : Surroundings} (hs : Recording capacity s) {config : LedgerConfig}
    (henabled : config.cacheEnabled = true)
    (hroom : s.ledger.toBundle.cache.length ≤ config.maxCacheEntries) (session : String) :
    ∃ ledger, (Ledger.start session config).load s.ledger.toBundle = .ok ledger ∧
      ∀ options backend clock, Replaying s.ledger.cache.output?
        (Machine.fresh options ledger backend clock).surroundings := by
  refine ⟨_, if_pos rfl, fun options backend clock => ⟨henabled, ?_, rfl, fun _ h => nomatch h⟩⟩
  intro hash output ho
  -- the entries of the bundle are under different digests, their own ones
  have hkeys : s.ledger.toBundle.cache.map (·.inputHash) = s.ledger.cache.entries.keys := by
    show (List.map _ _).map _ = List.map _ _
    rw [List.map_map]
    exact List.map_congr_left fun p hp => hs.indexed.own p hp
  obtain ⟨e, he, rfl⟩ := Option.map_eq_some_iff.1 ho
  have hmem := Fields.mem_of_get? he
  obtain rfl : e.inputHash = hash := hs.indexed.own _ hmem
  refine (Cache.pinned_of_load s.ledger.toBundle.cache (Ledger.start session config).cache ?_ ?_).1
    e (List.mem_map.2 ⟨_, hmem, rfl⟩)
  · rw [hkeys]
    exact hs.indexed.inOrder.nodup_keys
  · rw [show (Ledger.start session config).cache.entries.length = 0 from rfl, Nat.zero_add]
    exact Nat.le_trans hroom (Nat.le_max_left _ _)

/-- Replay is exact.  Let a program run on a new ledger that keeps all answers, with room for as
many as there are different inputs, and let no call fail.  Run again on a new ledger that took over
the bundle of the first run and has room for it, with any backend of the same defaults and any
clock, the program prints the same lines and has the same outcome on the same heap, every call whose
result is kept is a hit, and the backend gets no request.

Inputs are told apart by their digests; nothing is assumed of these. -/
theorem replay_exact (bound : Nat) (program : Node) (options : RunOptions)
    (session₁ session₂ : String) (config₁ config₂ : LedgerConfig) (backend₁ backend₂ : Backend)
    (clock₁ clock₂ : Nat → Instant)
    (henabled₁ : config₁.cacheEnabled = true) (httl : config₁.cacheTtlSecs = none)
    (henabled₂ : config₂.cacheEnabled = true)
    (hmodel : backend₂.model = backend₁.model) (htokens : backend₂.maxTokens = backend₁.maxTokens)
    (outcome : Outcome) (last : Machine)
    (hrun : (Machine.fresh options (Ledger.start session₁ config₁) backend₁ clock₁).execute bound
      program = (outcome, last))
    (hroom₁ : last.ledger.keptInputs.dedup.length ≤ config₁.maxCacheEntries)
    (hsucceeded : ∀ n ∈ last.ledger.keptNodes, n.error = none)
    (hroom₂ : last.ledger.toBundle.cache.length ≤ config₂.maxCacheEntries) :
    ∃ ledger, (Ledger.start session₂ config₂).load last.ledger.toBundle = .ok ledger ∧
      ∃ last', (Machine.fresh options ledger backend₂ clock₂).execute bound program =
          (outcome, last') ∧
        last'.output = last.output ∧ last'.heap = last.heap ∧ last'.stats = last.stats ∧
        (∀ n ∈ last'.ledger.keptNodes, n.cacheHit = true) ∧ last'.requests = 0 := by
  let first := Machine.fresh options (Ledger.start session₁ config₁) backend₁ clock₁
  have hstart : Recording config₁.maxCacheEntries first.surroundings :=
    recording_start henabled₁ httl options session₁ backend₁ clock₁
  have hlast := hstart.execute bound program
  rw [hrun] at hlast
  obtain ⟨ledger, hload, hreplaying⟩ := replaying_load hlast henabled₂ hroom₂ session₂
  refine ⟨ledger, hload, ?_⟩
  -- the script that both runs follow is what the cache holds at the end of the first one
  let script := last.ledger.cache.output?
  let second := Machine.fresh options ledger backend₂ clock₂
  have hrelated : (lockstep config₁.maxCacheEntries script).related first.surroundings
      second.surroundings := by
    -- an empty cache does not stray
    refine ⟨hstart, ?_, hreplaying options backend₂ clock₂, hmodel, htokens, rfl⟩
    rintro ⟨hash, output, ho, -⟩
    exact nomatch ho
  have hlost : ¬(lockstep config₁.maxCacheEntries script).Lost
      (Run.sequence (exec bound) .null program.statements first) := by
    -- the three ways to be lost are what the hypotheses exclude
    rintro (⟨-, h⟩ | ⟨stop, m, -, h⟩)
    · rw [← Machine.surroundings_ended first, ← Machine.execute_eq, hrun] at h
      rcases h with ⟨n, hn, he⟩ | hfull | ⟨hash, output, ho, hne⟩
      · exact he (hsucceeded n hn)
      · exact absurd hfull (Nat.not_lt.2 hroom₁)
      · exact hne ho
    · exact h
  obtain ⟨t, hsecond, -, -, hrep, -⟩ := (sound _ script).execute hrelated
    (Watch.keeps_any bound program first _) hlost
  rw [hrun] at hsecond
  exact ⟨last.within t, hsecond, rfl, rfl, rfl, hrep.hits, hrep.requests⟩

/-! The hypotheses hold of a program that asks for one text. -/

/-- A program that prints one generated text. -/
def greeting : Node :=
  .program [.print [.primitive .infer [.text "Hello"] ⟨1, 7⟩]]

/-- A backend with one answer to every prompt. -/
def answering (answer : Except String String) : Backend where
  name := "fixed"
  model := "small"
  maxTokens := 64
  infer _ _ _ _ := answer
  embed _ _ := .error "no vectors"

/-- The program with a backend that answers. -/
def greetingRun : Outcome × Machine :=
  (Machine.fresh {} (Ledger.start "first" {}) (answering (.ok "Hi!")) fun n => ⟨n⟩).execute 4 greeting

/-- The second run of a greeting is answered from what the first one has recorded. -/
theorem replay_exact_greeting :
    ∃ ledger, (Ledger.start "second" { cacheTtlSecs := some 0 }).load
        greetingRun.2.ledger.toBundle = .ok ledger ∧
      ∃ last, (Machine.fresh {} ledger (answering (.error "offline")) fun n => ⟨5 * n⟩).execute 4
          greeting = (greetingRun.1, last) ∧
        last.output = #["Hi!"] ∧ last.requests = 0 := by
  obtain ⟨ledger, hload, last, hlast, hout, -, -, -, hrequests⟩ :=
    replay_exact 4 greeting {} "first" "second" {} { cacheTtlSecs := some 0 }
      (answering (.ok "Hi!")) (answering (.error "offline")) (fun n => ⟨n⟩) (fun n => ⟨5 * n⟩)
      rfl rfl rfl rfl rfl greetingRun.1 greetingRun.2 (by rw [greetingRun]) (by decide +kernel)
      (by decide +kernel) (by decide +kernel)
  -- what the first run has printed is computed
  have hprinted : greetingRun.2.output = #["Hi!"] := by decide +kernel
  exact ⟨ledger, hload, last, hlast, hout.trans hprinted, hrequests⟩

end BrailleScript.Replay
