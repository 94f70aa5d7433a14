import BrailleScript.Ledger

/-!
# Turns at a shared ledger

Threads take turns at one ledger in any order.  A call of a primitive takes two turns of its
thread, one that opens it and one that completes it, and any turns of any threads may come between
them.  Calls of one thread are nested: a thread completes the innermost call it is making.

Beside the ledger, `Shared` holds what each thread knows by itself: the calls it is making, with
the numbers they were opened under.

`Shared.Taken` lists the ways in which a turn can go, with the state it leaves in each.  A call that
is opened is answered from the cache or becomes pending; a call that is completed is the innermost
one of its thread; a bundle is loaded or refused.

## Key results

- `Shared.taken`: these are all the ways there are
-/

namespace BrailleScript

/-! ## Turns -/

/-- What a thread does in its turn. -/
inductive Turn where
  /-- Opens a call; the cache may answer it at once. -/
  | openCall (now : Instant) (c : Call)
  /-- Completes the innermost call of the thread with its output. -/
  | succeed (now : Instant) (latencyMs : Float) (output : Json)
  /-- Completes the innermost call of the thread with an error. -/
  | fail (latencyMs : Float) (error : String)
  | recordStep (now : Instant) (kind : String) (input output : Json)
  | markBoundary (now : Instant) (label : String) (domain : Domain)
  | load (bundle : Bundle)

/-- Whether the turn adds a node to the trace. -/
def Turn.addsNode : Turn → Bool
  | openCall .. | recordStep .. => true
  | succeed .. | fail .. | markBoundary .. | load _ => false

/-- Whether the turn completes a call. -/
def Turn.completes : Turn → Bool
  | succeed .. | fail .. => true
  | openCall .. | recordStep .. | markBoundary .. | load _ => false

/-- A ledger, and the calls that each thread is making, innermost first. -/
structure Shared where
  ledger : Ledger
  making : ThreadId → List (Nat × Call)

namespace Shared

/-- A new ledger before any turn. -/
def start (session : String) (config : LedgerConfig) : Shared :=
  ⟨.start session config, fun _ => []⟩

/-- The number of the innermost call that a thread is making. -/
def innermost (s : Shared) (thread : ThreadId) : Option Nat :=
  (s.making thread).head?.map (·.1)

/-- The number of the call that a turn completes. -/
def completed (s : Shared) (thread : ThreadId) (turn : Turn) : Option Nat :=
  if turn.completes then s.innermost thread else none

/-- The thread is making these calls now. -/
def setMaking (s : Shared) (thread : ThreadId) (calls : List (Nat × Call)) :
    ThreadId → List (Nat × Call) :=
  fun t => if t = thread then calls else s.making t

/-- One turn of a thread; a thread that makes no call cannot complete one. -/
def step (s : Shared) (thread : ThreadId) : Turn → Option Shared
  | .openCall now c =>
    match s.ledger.openCall thread now c with
    | (.hit .., l) => some { s with ledger := l }
    | (.pending id, l) => some ⟨l, s.setMaking thread ((id, c) :: s.making thread)⟩
  | .succeed now latencyMs output =>
    match s.making thread with
    | [] => none
    | (id, c) :: outer =>
      some ⟨s.ledger.succeed thread now latencyMs id c output, s.setMaking thread outer⟩
  | .fail latencyMs error =>
    match s.making thread with
    | [] => none
    | (id, _) :: outer => some ⟨s.ledger.fail thread latencyMs id error, s.setMaking thread outer⟩
  | .recordStep now kind input output =>
    some { s with ledger := (s.ledger.recordStep thread now kind input output).2 }
  | .markBoundary now label domain =>
    some { s with ledger := (s.ledger.markBoundary now label domain).2 }
  | .load bundle =>
    match s.ledger.load bundle with
    | .ok l => some { s with ledger := l }
    | .error _ => some s

/-- The turns of threads one after the other. -/
def run : List (ThreadId × Turn) → Shared → Option Shared
  | [], s => some s
  | (thread, turn) :: rest, s => (s.step thread turn).bind (run rest)

end Shared

/-! ## What a turn does -/

namespace Ledger

/-- What the cache has for a call, and the cache after it was asked. -/
def lookup (l : Ledger) (now : Instant) (c : Call) : Option CacheEntry × Cache :=
  if l.keeps c.primitive then l.cache.get c.inputHash now.millis else (none, l.cache)

/-- A call is opened by a lookup first, and as pending when that finds nothing. -/
theorem openCall_eq_lookup (l : Ledger) (thread : ThreadId) (now : Instant) (c : Call) :
    l.openCall thread now c =
      match (l.lookup now c).1 with
      | some e => recordHit { l with cache := (l.lookup now c).2 } thread now c e
      | none => openPending { l with cache := (l.lookup now c).2 } thread now c := by
  unfold openCall lookup
  split
  case isTrue =>
    generalize l.cache.get c.inputHash now.millis = found
    obtain ⟨e, cache⟩ := found
    cases e <;> rfl
  case isFalse => rfl

/-- Nothing is found for a call whose results are not kept. -/
theorem keeps_of_lookup {l : Ledger} {now : Instant} {c : Call} {e : CacheEntry}
    (h : (l.lookup now c).1 = some e) : l.keeps c.primitive = true := by
  unfold lookup at h
  split at h
  case isTrue hkeeps => exact hkeeps
  case isFalse => exact nomatch h

end Ledger

/-- The ways in which a turn of a thread can go, and what each of them leaves. -/
inductive Shared.Taken (s : Shared) (thread : ThreadId) : Turn → Shared → Prop where
  /-- The cache answers the call. -/
  | hit (now : Instant) (c : Call) (e : CacheEntry) (h : (s.ledger.lookup now c).1 = some e) :
    Taken s thread (.openCall now c)
      { s with
        ledger := (Ledger.recordHit { s.ledger with cache := (s.ledger.lookup now c).2 } thread now
          c e).2 }
  /-- The call must be made. -/
  | pending (now : Instant) (c : Call) (h : (s.ledger.lookup now c).1 = none) :
    Taken s thread (.openCall now c)
      ⟨(Ledger.openPending { s.ledger with cache := (s.ledger.lookup now c).2 } thread now c).2,
        s.setMaking thread ((s.ledger.nextId, c) :: s.making thread)⟩
  | succeeded (now : Instant) (latencyMs : Float) (output : Json) (id : Nat) (c : Call)
      (outer : List (Nat × Call)) (h : s.making thread = (id, c) :: outer) :
    Taken s thread (.succeed now latencyMs output)
      ⟨s.ledger.succeed thread now latencyMs id c output, s.setMaking thread outer⟩
  | failed (latencyMs : Float) (error : String) (id : Nat) (c : Call)
      (outer : List (Nat × Call)) (h : s.making thread = (id, c) :: outer) :
    Taken s thread (.fail latencyMs error)
      ⟨s.ledger.fail thread latencyMs id error, s.setMaking thread outer⟩
  | recorded (now : Instant) (kind : String) (input output : Json) :
    Taken s thread (.recordStep now kind input output)
      { s with ledger := (s.ledger.recordStep thread now kind input output).2 }
  | marked (now : Instant) (label : String) (domain : Domain) :
    Taken s thread (.markBoundary now label domain)
      { s with ledger := (s.ledger.markBoundary now label domain).2 }
  | loaded (bundle : Bundle) (h : bundle.version = Bundle.currentVersion) :
    Taken s thread (.load bundle)
      { s with
        ledger := { s.ledger with
          cache := bundle.cache.foldl Cache.putPinned s.ledger.cache
          imported := s.ledger.imported ++ bundle.trace.toArray } }
  | refused (bundle : Bundle) (h : bundle.version ≠ Bundle.currentVersion) :
    Taken s thread (.load bundle) s

/-- Every turn goes in one of these ways. -/
theorem Shared.taken {s s' : Shared} {thread : ThreadId} {turn : Turn}
    (h : s.step thread turn = some s') : s.Taken thread turn s' := by
  -- an opening asks the cache, an ending needs a call that is being made, and an import its version
  cases turn with
  | openCall now c =>
    rw [step, Ledger.openCall_eq_lookup] at h
    cases hfound : (s.ledger.lookup now c).1 with
    | some e =>
      rw [hfound] at h
      cases h
      exact .hit now c e hfound
    | none =>
      rw [hfound] at h
      cases h
      exact .pending now c hfound
  | succeed now latencyMs output =>
    rw [step] at h
    split at h
    case h_1 => cases h
    case h_2 id c outer hmaking =>
      cases h
      exact .succeeded now latencyMs output id c outer hmaking
  | fail latencyMs error =>
    rw [step] at h
    split at h
    case h_1 => cases h
    case h_2 id c outer hmaking =>
      cases h
      exact .failed latencyMs error id c outer hmaking
  | recordStep now kind input output =>
    cases h
    exact .recorded now kind input output
  | markBoundary now label domain =>
    cases h
    exact .marked now label domain
  | load bundle =>
    by_cases hversion : bundle.version = Bundle.currentVersion
    · rw [step, Ledger.load, if_pos hversion] at h
      cases h
      exact .loaded bundle hversion
    · rw [step, Ledger.load, if_neg hversion] at h
      cases h
      exact .refused bundle hversion

end BrailleScript
