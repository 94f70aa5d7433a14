import BrailleScript.Proofs.Machine.Request

/-!
# How a request is served

A request is found in the cache, or performed by the backend with success, or performed without.
`Served` lists these three cases with the surroundings they leave, and everything else about the
answers of the surroundings is derived from it.

## Key results

- `Surroundings.served`: the three cases are all there are
-/

namespace BrailleScript

/-- The digest under which the answer of a request is kept. -/
def Request.inputHash (q : Request) : String :=
  Trace.inputHash q.primitive.name q.args

/-- The call for a request has the request's digest. -/
@[simp] theorem Request.inputHash_call (q : Request) (pos : Pos) :
    (q.call pos).inputHash = q.inputHash := rfl

/-- Requests are made for cacheable primitives. -/
theorem Request.isCacheable_primitive (q : Request) : q.primitive.isCacheable = true := by
  cases q <;> rfl

namespace Surroundings

/-- What the cache has for a request, and the cache after the lookup. -/
def lookup (s : Surroundings) (q : Request) : Option CacheEntry × Cache :=
  if s.ledger.config.cacheEnabled then s.ledger.cache.get q.inputHash (s.clock s.readings).millis
  else (none, s.ledger.cache)

/-- The cache after an answer was given to a request that it did not have. -/
def stored (s : Surroundings) (q : Request) (pos : Pos) (output : Json) : Cache :=
  if s.ledger.config.cacheEnabled then
    (s.lookup q).2.put (Ledger.entryOf (q.call pos) (s.clock (s.readings + 2)) output)
  else (s.lookup q).2

/-- The ledger after the request was put to a cache that does not have it. -/
def opened (s : Surroundings) (q : Request) (pos : Pos) : Ledger :=
  (Ledger.openPending { s.ledger with cache := (s.lookup q).2 } Run.mainThread
    (s.clock s.readings) (q.call pos)).2

/-- What becomes of a request. -/
inductive Served (s : Surroundings) (q : Request) (pos : Pos) :
    Except Cause Json × Surroundings → Prop where
  /-- The cache has the answer. -/
  | hit (e : CacheEntry) (h : (s.lookup q).1 = some e) :
    Served s q pos
      (.ok e.output,
        { s with
          ledger := (Ledger.recordHit { s.ledger with cache := (s.lookup q).2 } Run.mainThread
            (s.clock s.readings) (q.call pos) e).2
          readings := s.readings + 1 })
  /-- The backend gives an answer. -/
  | done (output : Json) (requests : Nat) (latencyMs : Float) (h : (s.lookup q).1 = none)
      (hp : q.perform s.backend s.requests = (.ok output, requests)) :
    Served s q pos
      (.ok output,
        { s with
          ledger := (s.opened q pos).succeed Run.mainThread (s.clock (s.readings + 2)) latencyMs
            s.ledger.nextId (q.call pos) output
          requests
          readings := s.readings + 3 })
  /-- The backend does not. -/
  | failed (cause : Cause) (requests : Nat) (latencyMs : Float) (h : (s.lookup q).1 = none)
      (hp : q.perform s.backend s.requests = (.error cause, requests)) :
    Served s q pos
      (.error cause,
        { s with
          ledger := (s.opened q pos).fail Run.mainThread latencyMs s.ledger.nextId
            (Failure.text ⟨cause, none⟩)
          requests
          readings := s.readings + 3 })

/-- The call for a request is opened by a lookup in the surroundings. -/
theorem openCall_eq (s : Surroundings) (q : Request) (pos : Pos) :
    s.ledger.openCall Run.mainThread (s.clock s.readings) (q.call pos) =
      match (s.lookup q).1 with
      | some e =>
        Ledger.recordHit { s.ledger with cache := (s.lookup q).2 } Run.mainThread
          (s.clock s.readings) (q.call pos) e
      | none => (.pending s.ledger.nextId, s.opened q pos) := by
  have hkeeps : s.ledger.keeps (q.call pos).primitive = s.ledger.config.cacheEnabled := by
    show (q.primitive.isCacheable && _) = _
    rw [q.isCacheable_primitive, Bool.true_and]
  unfold Ledger.openCall opened lookup
  rw [hkeeps, Request.inputHash_call]
  cases s.ledger.config.cacheEnabled with
  | false => rfl
  | true =>
    -- both sides take the same lookup apart
    simp only [if_true]
    generalize s.ledger.cache.get q.inputHash (s.clock s.readings).millis = found
    obtain ⟨e, cache⟩ := found
    cases e <;> rfl

/-- Every request is served in one of the three ways. -/
theorem served (s : Surroundings) (q : Request) (pos : Pos) : s.Served q pos (s.serve q pos) := by
  unfold serve
  dsimp only
  rw [openCall_eq]
  -- the cache is asked first, and the executor only if it has nothing
  cases h : (s.lookup q).1 with
  | some e => exact .hit e h
  | none =>
    dsimp only
    cases hp : q.perform s.backend s.requests with
    | mk result requests =>
      cases result with
      | ok output => exact .done output requests _ h hp
      | error cause => exact .failed cause requests _ h hp

/-- The answer that was given is kept if the cache is on. -/
theorem cache_succeed (s : Surroundings) (q : Request) (pos : Pos) (latencyMs : Float)
    (output : Json) :
    ((s.opened q pos).succeed Run.mainThread (s.clock (s.readings + 2)) latencyMs
      s.ledger.nextId (q.call pos) output).cache = s.stored q pos output := by
  -- requests are of cacheable primitives only
  have hkeeps : ((s.opened q pos).close Run.mainThread s.ledger.nextId).keeps
      (q.call pos).primitive = s.ledger.config.cacheEnabled := by
    show (q.primitive.isCacheable && _) = _
    rw [q.isCacheable_primitive, Bool.true_and]
    rfl
  unfold Ledger.succeed stored
  dsimp only
  rw [hkeeps]
  rfl

/-! ## What stays -/

namespace Served

variable {s : Surroundings} {q : Request} {pos : Pos} {r : Except Cause Json × Surroundings}

/-- Serving a request leaves the backend. -/
theorem backend_eq (h : s.Served q pos r) : r.2.backend = s.backend := by
  cases h <;> rfl

/-- It leaves what was traced before. -/
theorem traced_eq (h : s.Served q pos r) : r.2.traced = s.traced := by
  cases h <;> rfl

end Served

end Surroundings

end BrailleScript
