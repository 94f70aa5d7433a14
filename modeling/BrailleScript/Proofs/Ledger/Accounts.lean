import Mathlib
import BrailleScript.Proofs.Ledger.Trace
import BrailleScript.Proofs.Ledger.Turns

/-!
# The counters of a ledger

A ledger counts calls, hits, misses, errors and tokens as it goes, in the turn that opens a call and
in the turn that completes it.  The same numbers can be read off the trace afterwards.  To say which
nodes they are read off, the turns are told once more by what became of each node: its `Fate`, which
is settled when the node is added or when its call is completed.

## Key results

- `Shared.Booked.append`, `Shared.Booked.complete`: a node is added, a call is completed
- `Shared.Booked.step`, `Shared.Booked.run`: nodes show their fates and counters count them, in
  every order of turns
- `accounts_match_trace`: the counters against the nodes of the trace
-/

namespace BrailleScript

/-! ## Fates -/

/-- What became of the call that a node was added for. -/
inductive Fate where
  /-- There was no call: the node records a finished step. -/
  | noted
  /-- The cache answered. -/
  | answered (c : Call)
  /-- The call is being made. -/
  | pending (c : Call)
  | succeeded (c : Call) (output : Json)
  | failed (c : Call) (error : String)

namespace Fate

/-- The call that a node was made for. -/
def call? : Fate → Option Call
  | noted => none
  | answered c | pending c | succeeded c _ | failed c _ => some c

/-- The node was added for a call. -/
def isCall (f : Fate) : Bool :=
  f.call?.isSome

/-- Was the call answered from the cache? -/
def isAnswered : Fate → Bool
  | answered _ => true
  | _ => false

/-- Has the call succeeded? -/
def hasSucceeded : Fate → Bool
  | succeeded .. => true
  | _ => false

/-- The node was added for a call that had to be made, of a primitive whose results are kept. -/
def isMiss : Fate → Bool
  | pending c | succeeded c _ | failed c _ => c.primitive.isCacheable
  | noted | answered _ => false

/-- The error that the call has failed with. -/
def error? : Fate → Option String
  | failed _ error => some error
  | _ => none

/-- The tokens that the call was charged for. -/
def tokens? : Fate → Option TokenCounts
  | succeeded c output => c.tokens output
  | _ => none

/-- What a node shows of its fate. -/
structure Shown (f : Fate) (n : TraceNode) : Prop where
  cacheHit : n.cacheHit = f.isAnswered
  error : n.error = f.error?
  tokenCounts : n.tokenCounts = f.tokens?
  primitive : ∀ c, f.call? = some c → n.primitive = some c.primitive.name

/-- A call is a miss when it is kept in the trace without a hit. -/
theorem Shown.isMiss_eq {f : Fate} {n : TraceNode} (h : f.Shown n) :
    f.isMiss = (f.isCall && n.isKept && !n.cacheHit) := by
  -- the name in a node is that of the call
  have hkept (c : Call) (hc : f.call? = some c) : n.isKept = c.primitive.isCacheable := by
    rw [TraceNode.isKept, h.primitive c hc]
    simp [Primitive.ofName?_name]
  cases f with
  | noted => rfl
  | answered c => simp [isMiss, h.cacheHit, isAnswered]
  | pending c => simp [isMiss, isCall, call?, hkept c rfl, h.cacheHit, isAnswered]
  | succeeded c output => simp [isMiss, isCall, call?, hkept c rfl, h.cacheHit, isAnswered]
  | failed c error => simp [isMiss, isCall, call?, hkept c rfl, h.cacheHit, isAnswered]

/-- Tokens are counted for text generation that has succeeded. -/
theorem Shown.isSome_tokenCounts {f : Fate} {n : TraceNode} (h : f.Shown n) :
    n.tokenCounts.isSome = true ↔
      f.hasSucceeded = true ∧ n.cacheHit = false ∧ n.primitive = some Primitive.infer.name := by
  rw [h.tokenCounts, h.cacheHit]
  cases f with
  | succeeded c output =>
    have hname := h.primitive c rfl
    rw [hname]
    -- of all primitives only one makes text
    cases hp : c.primitive <;>
      simp [tokens?, Call.tokens, hasSucceeded, isAnswered, Primitive.isTextGenerating,
        Primitive.name, hp]
  | noted | answered | pending | failed => simp [tokens?, hasSucceeded]

end Fate

namespace Shared

/-- The fates of all nodes after a turn, given those before it. -/
def fatesAfter (s : Shared) (thread : ThreadId) (turn : Turn) (fates : List Fate) : List Fate :=
  match turn with
  | .openCall now c =>
    match (s.ledger.openCall thread now c).1 with
    | .hit .. => fates ++ [.answered c]
    | .pending _ => fates ++ [.pending c]
  | .succeed _ _ output =>
    match s.making thread with
    | [] => fates
    | (id, c) :: _ => fates.set (id - 1) (.succeeded c output)
  | .fail _ error =>
    match s.making thread with
    | [] => fates
    | (id, c) :: _ => fates.set (id - 1) (.failed c error)
  | .recordStep .. => fates ++ [.noted]
  | .markBoundary .. | .load _ => fates

/-- The fates of all nodes after some turns, given those before them. -/
def fates (before : List Fate) : List (ThreadId × Turn) → Shared → List Fate
  | [], _ => before
  | (thread, turn) :: rest, s =>
    match s.step thread turn with
    | some s' => fates (s.fatesAfter thread turn before) rest s'
    | none => before

end Shared

/-! ## Counters -/

/-- What a ledger counts. -/
inductive Counter where
  | calls | hits | misses | errors | tokensIn | tokensOut

/-- The state of a counter. -/
def Counter.count (k : Counter) (s : LedgerStats) : Nat :=
  match k with
  | .calls => s.calls
  | .hits => s.cacheHits
  | .misses => s.cacheMisses
  | .errors => s.errors
  | .tokensIn => s.tokensIn
  | .tokensOut => s.tokensOut

/-- What a fate adds to a counter; misses count while the cache is on. -/
def Fate.adds (cacheEnabled : Bool) (k : Counter) (f : Fate) : Nat :=
  match k with
  | .calls => f.isCall.toNat
  | .hits => f.isAnswered.toNat
  | .misses => (f.isMiss && cacheEnabled).toNat
  | .errors => f.error?.isSome.toNat
  | .tokensIn => (f.tokens?.map (·.input)).getD 0
  | .tokensOut => (f.tokens?.map (·.output)).getD 0

section Sums

variable {α : Type}

/-- Replacing an item of a list replaces its part in a sum. -/
private theorem sum_map_set (f : α → Nat) {l : List α} {i : Nat} {a : α} (h : l[i]? = some a)
    (b : α) : ((l.set i b).map f).sum + f a = (l.map f).sum + f b := by
  induction l generalizing i with
  | nil => simp at h
  | cons x l ih =>
    cases i with
    | zero =>
      obtain rfl : x = a := by simpa using h
      simp only [List.set_cons_zero, List.map_cons, List.sum_cons]
      omega
    | succ i =>
      have hrest := ih (by simpa using h)
      simp only [List.set_cons_succ, List.map_cons, List.sum_cons]
      omega

/-- Counting by zeros and ones counts what is true. -/
private theorem sum_map_toNat (p : α → Bool) (l : List α) :
    (l.map fun a => (p a).toNat).sum = (l.map p).count true := by
  induction l with
  | nil => rfl
  | cons a l ih =>
    rw [List.map_cons, List.sum_cons, ih, List.map_cons, List.count_cons, Nat.add_comm]
    cases p a <;> rfl

/-- The two ways of counting agree. -/
private theorem count_map_eq_countP (p : α → Bool) (l : List α) :
    (l.map p).count true = l.countP p := by
  rw [List.count, List.countP_map]
  exact List.countP_congr (by simp)

end Sums

/-! ## Completed nodes -/

/-- The node of a call once the call has succeeded. -/
def TraceNode.succeeded (config : LedgerConfig) (latencyMs : Float) (c : Call) (output : Json)
    (n : TraceNode) : TraceNode :=
  { n with
    outputHash := some (Trace.contentHash output)
    truncatedOutput := some (Text.shorten config.truncateLen output.display)
    latencyMs
    tokenCounts := c.tokens output
    estimatedCost := ((c.tokens output).map (TokenCounts.cost config)).getD 0 }

/-- The node of a call once the call has failed. -/
def TraceNode.failed (latencyMs : Float) (error : String) (n : TraceNode) : TraceNode :=
  { n with latencyMs, error := some error }

/-- A call that succeeds changes its own node. -/
theorem Ledger.trace_succeed_eq (l : Ledger) (thread : ThreadId) (now : Instant)
    (latencyMs : Float) (id : Nat) (c : Call) (output : Json) :
    (l.succeed thread now latencyMs id c output).trace =
      l.trace.modify (id - 1) (TraceNode.succeeded l.config latencyMs c output) :=
  rfl

/-- So does a call that fails. -/
theorem Ledger.trace_fail_eq (l : Ledger) (thread : ThreadId) (latencyMs : Float) (id : Nat)
    (error : String) : (l.fail thread latencyMs id error).trace =
      l.trace.modify (id - 1) (TraceNode.failed latencyMs error) :=
  rfl

/-! ## Nodes show their fates and counters count them -/

/-- The fates tell the state of a shared ledger: its nodes show them, its counters count them, and
the calls that threads are making are those that are pending, each made by one thread once. -/
structure Shared.Booked (fates : List Fate) (s : Shared) : Prop where
  length : fates.length = s.ledger.trace.size
  shown : ∀ (i : Nat) (f : Fate) (n : TraceNode), fates[i]? = some f →
    s.ledger.trace[i]? = some n → f.Shown n
  made : ∀ t, ∀ p ∈ s.making t, 0 < p.1 ∧ fates[p.1 - 1]? = some (.pending p.2)
  once : ∀ t, ((s.making t).map (·.1)).Nodup
  apart : ∀ t t', t ≠ t' → ∀ p ∈ s.making t, ∀ p' ∈ s.making t', p.1 ≠ p'.1
  counted : ∀ k : Counter, k.count s.ledger.stats =
    (fates.map (Fate.adds s.ledger.config.cacheEnabled k)).sum

namespace Shared.Booked

variable {fates : List Fate} {s s' : Shared} {thread : ThreadId} {turn : Turn}

/-- At the start nothing is booked. -/
theorem start (session : String) (config : LedgerConfig) : Booked [] (.start session config) where
  length := rfl
  shown i f n hf := by simp at hf
  made t p hp := absurd hp List.not_mem_nil
  once t := List.nodup_nil
  apart t t' _ p hp := absurd hp List.not_mem_nil
  counted k := by cases k <;> rfl

/-- The nodes of the calls that are being made are among those with a fate. -/
theorem le_length (h : Booked fates s) {t : ThreadId} {p : Nat × Call} (hp : p ∈ s.making t) :
    p.1 ≤ fates.length := by
  obtain ⟨hpos, hpending⟩ := h.made t p hp
  have := (List.getElem?_eq_some_iff.1 hpending).1
  omega

/-- A node is added, and at most one thread begins a call, which the node is for. -/
theorem append (h : Booked fates s) (thread : ThreadId) {f : Fate} {n : TraceNode} (hshown : f.Shown n)
    (htrace : s'.ledger.trace = s.ledger.trace.push n)
    (hconfig : s'.ledger.config = s.ledger.config)
    (hcount : ∀ k : Counter, k.count s'.ledger.stats =
      k.count s.ledger.stats + f.adds s.ledger.config.cacheEnabled k)
    (hmaking : ∀ t, s'.making t = s.making t ∨ t = thread ∧ ∃ c, f = .pending c ∧
      s'.making t = (s.ledger.nextId, c) :: s.making t) :
    Booked (fates ++ [f]) s' := by
  have hlength := h.length
  have hold {t : ThreadId} {p : Nat × Call} (hp : p ∈ s.making t) :
      0 < p.1 ∧ (fates ++ [f])[p.1 - 1]? = some (.pending p.2) := by
    obtain ⟨hpos, hpending⟩ := h.made t p hp
    have := h.le_length hp
    exact ⟨hpos, by rw [List.getElem?_append_left (by omega), hpending]⟩
  -- the number of the new node is greater than those of all calls that are being made
  have hnew {t : ThreadId} {p : Nat × Call} (hp : p ∈ s.making t) : p.1 ≠ s.ledger.nextId := by
    have := h.le_length hp
    rw [Ledger.nextId]
    omega
  constructor
  case length => rw [List.length_append, List.length_singleton, htrace, Array.size_push, hlength]
  case shown =>
    intro i g m hg hm
    rw [htrace, Array.getElem?_push] at hm
    split at hm
    case isTrue hi =>
      obtain rfl := Option.some.inj hm
      rw [hi, ← hlength, List.getElem?_concat_length] at hg
      obtain rfl := Option.some.inj hg
      exact hshown
    case isFalse hi =>
      have hlt := (Array.getElem?_eq_some_iff.1 hm).1
      rw [List.getElem?_append_left (by omega)] at hg
      exact h.shown i g m hg hm
  case made =>
    intro t p hp
    obtain hsame | ⟨-, c, rfl, hbegun⟩ := hmaking t
    · rw [hsame] at hp
      exact hold hp
    · rw [hbegun] at hp
      rcases List.mem_cons.1 hp with rfl | hp
      · refine ⟨by simp [Ledger.nextId], ?_⟩
        simp [Ledger.nextId, ← hlength]
      · exact hold hp
  case once =>
    intro t
    obtain hsame | ⟨-, c, -, hbegun⟩ := hmaking t
    · rw [hsame]
      exact h.once t
    · rw [hbegun]
      refine List.nodup_cons.2 ⟨fun hmem => ?_, h.once t⟩
      obtain ⟨p, hp, heq⟩ := List.mem_map.1 hmem
      exact hnew hp heq
  case apart =>
    have hcases {u : ThreadId} {q : Nat × Call} (hq : q ∈ s'.making u) :
        (u = thread ∧ q.1 = s.ledger.nextId) ∨ q ∈ s.making u := by
      obtain hsame | ⟨hu, c, -, hbegun⟩ := hmaking u
      · exact .inr (hsame ▸ hq)
      · rw [hbegun] at hq
        rcases List.mem_cons.1 hq with rfl | hq
        · exact .inl ⟨hu, rfl⟩
        · exact .inr hq
    intro t t' hne p hp p' hp'
    rcases hcases hp with ⟨rfl, hid⟩ | hp <;> rcases hcases hp' with ⟨rfl, hid'⟩ | hp'
    · exact absurd rfl hne
    · rw [hid]
      exact (hnew hp').symm
    · rw [hid']
      exact hnew hp
    · exact h.apart t t' hne p hp p' hp'
  case counted =>
    intro k
    rw [hcount, h.counted, hconfig, List.map_append, List.sum_append]
    simp

/-- The innermost call of a thread is completed. -/
theorem complete (h : Booked fates s) {f : Fate} {id : Nat} {c : Call}
    {outer : List (Nat × Call)} (hbefore : s.making thread = (id, c) :: outer)
    {g : TraceNode → TraceNode} (htrace : s'.ledger.trace = s.ledger.trace.modify (id - 1) g)
    (hshown : ∀ n, (Fate.pending c).Shown n → f.Shown (g n))
    (hconfig : s'.ledger.config = s.ledger.config)
    (hcount : ∀ k : Counter, k.count s'.ledger.stats +
      (Fate.pending c).adds s.ledger.config.cacheEnabled k =
        k.count s.ledger.stats + f.adds s.ledger.config.cacheEnabled k)
    (hmaking : s'.making = s.setMaking thread outer) : Booked (fates.set (id - 1) f) s' := by
  have hlength := h.length
  obtain ⟨hpos, hpending⟩ : 0 < id ∧ fates[id - 1]? = some (.pending c) :=
    h.made thread (id, c) (hbefore ▸ .head _)
  have honce := h.once thread
  rw [hbefore, List.map_cons, List.nodup_cons] at honce
  -- calls that are still being made were being made before, under other numbers
  have hstill {t : ThreadId} {p : Nat × Call} (hp : p ∈ s'.making t) :
      p ∈ s.making t ∧ p.1 ≠ id := by
    rw [hmaking, setMaking] at hp
    split at hp
    case isTrue ht =>
      subst ht
      refine ⟨hbefore ▸ .tail _ hp, fun heq => honce.1 ?_⟩
      exact List.mem_map.2 ⟨p, hp, heq⟩
    case isFalse ht =>
      exact ⟨hp, h.apart t thread ht p hp (id, c) (hbefore ▸ .head _)⟩
  constructor
  case length => rw [List.length_set, htrace, Array.size_modify, hlength]
  case shown =>
    intro i f' n hf hn
    rw [htrace, Array.getElem?_modify] at hn
    by_cases hi : id - 1 = i
    · subst hi
      rw [if_pos rfl] at hn
      obtain ⟨old, hold, rfl⟩ := Option.map_eq_some_iff.1 hn
      have hlt := (List.getElem?_eq_some_iff.1 hpending).1
      rw [List.getElem?_set_self hlt] at hf
      obtain rfl := Option.some.inj hf
      exact hshown old (h.shown _ _ _ hpending hold)
    · rw [if_neg hi] at hn
      rw [List.getElem?_set_ne hi] at hf
      exact h.shown i f' n hf hn
  case made =>
    intro t p hp
    obtain ⟨hmem, hne⟩ := hstill hp
    obtain ⟨hpos', hpending'⟩ := h.made t p hmem
    exact ⟨hpos', by rw [List.getElem?_set_ne (by omega), hpending']⟩
  case once =>
    intro t
    rw [hmaking, setMaking]
    split
    · exact honce.2
    · exact h.once t
  case apart =>
    intro t t' hne p hp p' hp'
    exact h.apart t t' hne p (hstill hp).1 p' (hstill hp').1
  case counted =>
    intro k
    have hset := sum_map_set (Fate.adds s.ledger.config.cacheEnabled k) hpending f
    have hbooks := h.counted k
    have hturn := hcount k
    rw [hconfig]
    omega

/-- What can be seen of fates is seen of them beside the nodes that show them. -/
theorem map_zip (h : Booked fates s) {β : Type} {φ : Fate → β} {χ : Fate × TraceNode → β}
    (hshown : ∀ f n, f.Shown n → φ f = χ (f, n)) :
    fates.map φ = (fates.zip s.ledger.trace.toList).map χ := by
  have hlength := h.length
  -- place by place
  apply List.ext_getElem
  · simp [hlength]
  · intro i hf hzip
    have hi : i < s.ledger.trace.size := by simpa [hlength] using hf
    rw [List.getElem_map, List.getElem_map, List.getElem_zip]
    apply hshown
    exact h.shown i _ _ (List.getElem?_eq_getElem _) (Array.getElem?_eq_getElem hi)

/-- What is seen of the nodes alone. -/
theorem map_eq (h : Booked fates s) {β : Type} {φ : Fate → β} {ψ : TraceNode → β}
    (hshown : ∀ f n, f.Shown n → φ f = ψ n) : fates.map φ = s.ledger.trace.toList.map ψ := by
  have hlength : s.ledger.trace.toList.length ≤ fates.length := by
    rw [h.length, Array.length_toList]
  have hzip : fates.map φ = (fates.zip s.ledger.trace.toList).map (ψ ∘ Prod.snd) :=
    h.map_zip hshown
  rw [hzip, ← List.map_map, List.map_snd_zip hlength]

/-- A turn that touches neither the trace nor the counters nor the calls of threads. -/
theorem quiet (h : Booked fates s) (htrace : s'.ledger.trace = s.ledger.trace)
    (hconfig : s'.ledger.config = s.ledger.config) (hstats : s'.ledger.stats = s.ledger.stats)
    (hmaking : s'.making = s.making) : Booked fates s' where
  length := by rw [htrace, h.length]
  shown := by rw [htrace]; exact h.shown
  made := by rw [hmaking]; exact h.made
  once := by rw [hmaking]; exact h.once
  apart := by rw [hmaking]; exact h.apart
  counted := by rw [hstats, hconfig]; exact h.counted

/-- One turn: every way it can go leaves the books in order. -/
theorem step (h : Booked fates s) (hstep : s.step thread turn = some s') :
    Booked (s.fatesAfter thread turn fates) s' := by
  -- a call appends its fate, an ending completes the fate of the innermost call, and the rest is
  -- quiet
  cases Shared.taken hstep with
  | hit now c e hfound =>
    have hfate : s.fatesAfter thread (.openCall now c) fates = fates ++ [.answered c] := by
      rw [fatesAfter, Ledger.openCall_eq_lookup, hfound]
      rfl
    rw [hfate]
    refine h.append thread ?_ rfl rfl (fun k => ?_) fun _ => .inl rfl
    · exact ⟨rfl, rfl, rfl, fun c' hc => by obtain rfl := Option.some.inj hc; rfl⟩
    · cases k <;> rfl
  | pending now c hfound =>
    have hfate : s.fatesAfter thread (.openCall now c) fates = fates ++ [.pending c] := by
      rw [fatesAfter, Ledger.openCall_eq_lookup, hfound]
      rfl
    rw [hfate]
    refine h.append thread ?_ rfl rfl (fun k => ?_) fun t => ?_
    · exact ⟨rfl, rfl, rfl, fun c' hc => by obtain rfl := Option.some.inj hc; rfl⟩
    · cases k with
      | misses =>
        show _ +
            (if (c.primitive.isCacheable && s.ledger.config.cacheEnabled) = true then 1 else 0) =
          _ + (c.primitive.isCacheable && s.ledger.config.cacheEnabled).toNat
        cases c.primitive.isCacheable && s.ledger.config.cacheEnabled <;> rfl
      | _ => rfl
    · show s.setMaking thread ((s.ledger.nextId, c) :: s.making thread) t = _ ∨ _
      rw [setMaking]
      split
      -- only the thread that has taken the turn has one more call in the making
      case isTrue ht => exact .inr ⟨ht, c, rfl, ht ▸ if_pos rfl⟩
      case isFalse => exact .inl rfl
  | succeeded now latencyMs output id c outer hbefore =>
    have hfate : s.fatesAfter thread (.succeed now latencyMs output) fates =
        fates.set (id - 1) (.succeeded c output) := by
      rw [fatesAfter, hbefore]
    rw [hfate]
    refine h.complete hbefore (s.ledger.trace_succeed_eq ..) (fun n hn => ?_) rfl (fun k => ?_) rfl
    · exact ⟨hn.cacheHit, hn.error, rfl, hn.primitive⟩
    · cases k <;> rfl
  | failed latencyMs error id c outer hbefore =>
    have hfate : s.fatesAfter thread (.fail latencyMs error) fates =
        fates.set (id - 1) (.failed c error) := by
      rw [fatesAfter, hbefore]
    rw [hfate]
    refine h.complete hbefore (s.ledger.trace_fail_eq ..) (fun n hn => ?_) rfl (fun k => ?_) rfl
    · exact ⟨hn.cacheHit, rfl, hn.tokenCounts, hn.primitive⟩
    · cases k <;> rfl
  | recorded now kind input output =>
    refine h.append thread ?_ rfl rfl (fun k => ?_) fun _ => .inl rfl
    · exact ⟨rfl, rfl, rfl, fun c hc => nomatch hc⟩
    · cases k <;> rfl
  | marked now label domain => exact h.quiet rfl rfl rfl rfl
  | loaded bundle _ => exact h.quiet rfl rfl rfl rfl
  | refused bundle _ => exact h

/-- Every run keeps the books. -/
theorem run (h : Booked fates s) {turns : List (ThreadId × Turn)}
    (hrun : Shared.run turns s = some s') : Booked (Shared.fates fates turns s) s' := by
  -- the fates so far are those of the nodes so far
  induction turns generalizing s fates with
  | nil =>
    cases hrun
    exact h
  | cons turn rest ih =>
    obtain ⟨s₁, hstep, hrest⟩ := Option.bind_eq_some_iff.1 hrun
    rw [Shared.fates, hstep]
    exact ih (h.step hstep) hrest

end Shared.Booked

/-- No run changes the settings. -/
theorem Shared.config_run {turns : List (ThreadId × Turn)} {s s' : Shared}
    (h : Shared.run turns s = some s') : s'.ledger.config = s.ledger.config := by
  induction turns generalizing s with
  | nil =>
    cases h
    rfl
  | cons turn rest ih =>
    obtain ⟨thread, turn⟩ := turn
    obtain ⟨s₁, hstep, hrest⟩ := Option.bind_eq_some_iff.1 h
    rw [ih hrest]
    cases Shared.taken hstep <;> rfl

/-! ## Every state that threads can reach -/

/-- Whatever turns any number of threads take at a new ledger, in any order.  Each node of the trace
has its fate.  Calls are the nodes that were added for a call, hits the nodes that are marked as
such, errors the nodes that carry one; misses are, while the cache is on, the nodes added for calls
of cacheable primitives that are no hits, and none while it is off.  Tokens are those of the nodes,
and the nodes that have any are those of calls of text generation that have succeeded and were no
hits. -/
theorem accounts_match_trace {session : String} {config : LedgerConfig}
    {turns : List (ThreadId × Turn)} {s : Shared}
    (h : Shared.run turns (.start session config) = some s) :
    let fates := Shared.fates [] turns (.start session config)
    let nodes := s.ledger.trace.toList
    let stats := s.ledger.stats
    fates.length = nodes.length ∧
    stats.calls = fates.countP (·.isCall) ∧
    stats.cacheHits = nodes.countP (·.cacheHit) ∧
    stats.cacheMisses =
      (if config.cacheEnabled then
        (fates.zip nodes).countP fun (f, n) => f.isCall && n.isKept && !n.cacheHit
      else 0) ∧
    stats.errors = nodes.countP (·.error.isSome) ∧
    stats.tokensIn = (nodes.map fun n => (n.tokenCounts.map (·.input)).getD 0).sum ∧
    stats.tokensOut = (nodes.map fun n => (n.tokenCounts.map (·.output)).getD 0).sum ∧
    ∀ (i : Nat) (f : Fate) (n : TraceNode), fates[i]? = some f → nodes[i]? = some n →
      (n.tokenCounts.isSome = true ↔
        f.hasSucceeded = true ∧ n.cacheHit = false ∧ n.primitive = some Primitive.infer.name) := by
  have hbooked := (Shared.Booked.start session config).run h
  have hconfig : s.ledger.config = config := Shared.config_run h
  intro fates nodes stats
  have hlength : fates.length = nodes.length := by
    simpa [nodes] using hbooked.length
  -- each counter is a sum over the fates, and what a fate says its node shows
  refine ⟨hlength, ?calls, ?hits, ?misses, ?errors, ?tokensIn, ?tokensOut, ?tokens⟩
  case calls =>
    calc stats.calls = (fates.map fun f => f.isCall.toNat).sum := hbooked.counted .calls
      _ = fates.countP (·.isCall) := by rw [sum_map_toNat Fate.isCall, count_map_eq_countP]
  case hits =>
    calc stats.cacheHits = (fates.map fun f => f.isAnswered.toNat).sum := hbooked.counted .hits
      _ = (fates.map Fate.isAnswered).count true := sum_map_toNat ..
      _ = (nodes.map fun n => n.cacheHit).count true :=
        congrArg _ (hbooked.map_eq fun f n hshown => hshown.cacheHit.symm)
      _ = nodes.countP (·.cacheHit) := count_map_eq_countP ..
  case misses =>
    have hzip : fates.map Fate.isMiss = (fates.zip nodes).map fun (f, n) =>
        f.isCall && n.isKept && !n.cacheHit :=
      hbooked.map_zip fun f n hshown => hshown.isMiss_eq
    have hcounted : stats.cacheMisses =
        (fates.map fun f => (f.isMiss && config.cacheEnabled).toNat).sum :=
      hconfig ▸ hbooked.counted .misses
    -- misses count nothing while the cache is off
    cases henabled : config.cacheEnabled with
    | false => simpa [henabled] using hcounted
    | true =>
      calc stats.cacheMisses = (fates.map fun f => f.isMiss.toNat).sum := by
            simpa [henabled] using hcounted
        _ = (fates.map Fate.isMiss).count true := sum_map_toNat ..
        _ = _ := by rw [hzip, count_map_eq_countP, if_pos rfl]
  case errors =>
    calc stats.errors = (fates.map fun f => f.error?.isSome.toNat).sum := hbooked.counted .errors
      _ = (fates.map fun f => f.error?.isSome).count true := sum_map_toNat ..
      _ = (nodes.map fun n => n.error.isSome).count true :=
        congrArg _ (hbooked.map_eq fun f n hshown => by rw [hshown.error])
      _ = nodes.countP (·.error.isSome) := count_map_eq_countP ..
  case tokensIn =>
    refine (hbooked.counted .tokensIn).trans (congrArg List.sum ?_)
    exact hbooked.map_eq fun f n hshown => by rw [hshown.tokenCounts]; rfl
  case tokensOut =>
    refine (hbooked.counted .tokensOut).trans (congrArg List.sum ?_)
    exact hbooked.map_eq fun f n hshown => by rw [hshown.tokenCounts]; rfl
  case tokens =>
    intro i f n hf hn
    exact (hbooked.shown i f n hf (by simpa [nodes] using hn)).isSome_tokenCounts

/-- Two threads ask the same, and the second is answered by the cache; then a call inside another
one fails, a step that is no call is recorded under the name of a primitive, and an empty bundle is
loaded while a last call is pending. -/
def officeHours : List (ThreadId × Turn) :=
  [ (1, .openCall default { primitive := .infer, args := .array [.text "greet"] }),
    (1, .succeed default 0 (.text "hello")),
    (2, .openCall default { primitive := .infer, args := .array [.text "greet"] }),
    (1, .openCall default { primitive := .pipeCompose, args := .array [.text "greet"] }),
    (1, .openCall default { primitive := .embed, args := .array [.text "greet"] }),
    (1, .fail 0 "closed"),
    (1, .succeed default 0 .null),
    (2, .recordStep default "infer" .null .null),
    (2, .load ⟨Bundle.currentVersion, "", [], []⟩),
    (2, .openCall default { primitive := .infer, args := .array [] }) ]

/-- Hits, misses, an error and tokens over several threads. -/
theorem accounts_match_trace_officeHours :
    ∃ s, Shared.run officeHours (.start "" {}) = some s ∧
      (Shared.fates [] officeHours (.start "" {})).countP (·.isCall) = 5 ∧
      s.ledger.trace.toList.countP (·.cacheHit) = 1 ∧
      s.ledger.stats.cacheMisses = 3 ∧
      s.ledger.trace.toList.countP (·.error.isSome) = 1 ∧
      (s.ledger.trace.toList.map fun n => (n.tokenCounts.map (·.input)).getD 0).sum = 2 ∧
      (s.ledger.trace.toList.map fun n => (n.tokenCounts.map (·.output)).getD 0).sum = 2 := by
  -- the run is computed, and its counters compared
  have hcounts : (Shared.run officeHours (.start "" {})).map (fun s =>
      [Counter.calls, .hits, .misses, .errors, .tokensIn, .tokensOut].map
        (·.count s.ledger.stats)) = some [5, 1, 3, 1, 2, 2] := by
    decide +kernel
  obtain ⟨s, hrun, hlist⟩ := Option.map_eq_some_iff.1 hcounts
  simp only [List.map_cons, List.cons.injEq, Counter.count] at hlist
  obtain ⟨hcalls, hhits, hmisses, herrors, hin, hout, -⟩ := hlist
  obtain ⟨-, hcalls', hhits', -, herrors', hin', hout', -⟩ := accounts_match_trace hrun
  exact ⟨s, hrun, hcalls'.symm.trans hcalls, hhits'.symm.trans hhits, hmisses,
    herrors'.symm.trans herrors, hin'.symm.trans hin, hout'.symm.trans hout⟩

end BrailleScript
