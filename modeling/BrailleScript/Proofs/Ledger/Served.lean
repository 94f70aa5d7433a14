import BrailleScript.Proofs.Json.Canonical
import BrailleScript.Proofs.Ledger.Cache
import BrailleScript.Proofs.Ledger.Trace
import BrailleScript.Proofs.Ledger.Turns
import BrailleScript.Proofs.Machine.Request

/-!
# What callers are given

Threads put calls to a shared ledger, and what a call of a cacheable primitive comes to is a matter
of the primitive and its arguments alone: its executor, where it is run, returns the same each time.
Then callers are given just that, whether the cache answers or the executor is run.

A result is kept under a digest of the primitive and of the canonical text of the arguments.  The
text determines the arguments, so what remains to be assumed is that no two of the texts that occur
have one digest.

## Key results

- `Call.eq_of_keyText_eq`: the text of a key determines primitive and arguments
- `Shared.Faithful.step`: every turn keeps the entries of the cache right
- `served_correctly`: what callers are given, in every state that threads can reach
- `Run.observe_reply`, `Run.closing_reply`: a program that makes a call goes on with the reply
-/

namespace BrailleScript

/-! ## Keys -/

/-- The text of which the digest of a call is taken. -/
def Call.keyText (c : Call) : String :=
  c.primitive.name ++ "\x00" ++ c.args.compact

/-- The name of a primitive is told apart from what follows it, and so are the arguments. -/
theorem Call.eq_of_keyText_eq {c c' : Call} (hargs : c.args.isFinite = true)
    (hargs' : c'.args.isFinite = true) (h : c.keyText = c'.keyText) :
    c.primitive = c'.primitive ∧ c.args = c'.args := by
  -- a zero stands behind the name, and no name has one
  have hname (p : Primitive) : ∀ a ∈ p.name.toList, (a != '\x00') = true := by
    cases p <;> simp [Primitive.name]
  have hzero (cs : List Char) : ∀ a ∈ ('\x00' :: cs).head?, (a != '\x00') = false := by
    rintro a ⟨⟩
    rfl
  have hchars := congrArg String.toList h
  unfold keyText at hchars
  simp only [String.toList_append, List.append_assoc] at hchars
  obtain ⟨hnames, hrest⟩ := Decimal.append_inj_of_all (hname c.primitive) (hname c'.primitive)
    (hzero _) (hzero _) hchars
  have hprimitive : some c.primitive = some c'.primitive := by
    rw [← Primitive.ofName?_name, ← Primitive.ofName?_name, String.toList_inj.1 hnames]
  have htexts : c.args.compact = c'.args.compact := String.toList_inj.1 (List.cons.inj hrest).2
  exact ⟨Option.some.inj hprimitive, Json.compact_inj hargs hargs' htexts⟩

/-- Calls that are told apart by their digests. -/
structure Call.Apart (used : Call → Prop) : Prop where
  /-- The arguments are JSON values, in which all numbers are finite. -/
  finite : ∀ c, used c → c.args.isFinite = true
  /-- The digests of different texts do not collide. -/
  digests : ∀ c c', used c → used c' →
    Digest.hexOfText c.keyText = Digest.hexOfText c'.keyText → c.keyText = c'.keyText

/-- Calls that are used and share a digest are of one primitive with the same arguments. -/
theorem Call.Apart.eq_of_inputHash_eq {used : Call → Prop} (h : Call.Apart used) {c c' : Call}
    (hc : used c) (hc' : used c') (hhash : c.inputHash = c'.inputHash) :
    c.primitive = c'.primitive ∧ c.args = c'.args :=
  Call.eq_of_keyText_eq (h.finite c hc) (h.finite c' hc') (h.digests c c' hc hc' hhash)

/-! ## Moves -/

/-- What a thread does in its turn, as callers see it; errors are of any type. -/
inductive Move (ε : Type) where
  /-- Puts a call to the ledger. -/
  | intercept (now : Instant) (c : Call)
  /-- The executor of the innermost call of the thread returns. -/
  | returned (now : Instant) (latencyMs : Float) (result : Except ε Json)
  | recordStep (now : Instant) (kind : String) (input output : Json)
  | markBoundary (now : Instant) (label : String) (domain : Domain)

variable {ε : Type}

/-- The turn at the ledger, which records the text of an error. -/
def Move.turn (text : ε → String) : Move ε → Turn
  | intercept now c => .openCall now c
  | returned now latencyMs (.ok output) => .succeed now latencyMs output
  | returned _ latencyMs (.error e) => .fail latencyMs (text e)
  | recordStep now kind input output => .recordStep now kind input output
  | markBoundary now label domain => .markBoundary now label domain

/-- Was the call answered from the cache? -/
def Opening.isHit : Opening → Bool
  | hit .. => true
  | pending _ => false

namespace Shared

/-- The call that comes to its end in a turn, and what its caller is given: what the cache has, or
what the executor has returned. -/
def reply? (s : Shared) (thread : ThreadId) : Move ε → Option (Call × Except ε Json)
  | .intercept now c =>
    match (s.ledger.openCall thread now c).1 with
    | .hit output _ => some (c, .ok output)
    | .pending _ => none
  | .returned _ _ result => (s.making thread).head?.map fun p => (p.2, result)
  | .recordStep .. | .markBoundary .. => none

/-- A move in which calls of cacheable primitives are among those that are used, and the executor of
such a call returns what the call comes to. -/
def Lawful (g : Primitive → Json → Except ε Json) (used : Call → Prop) (s : Shared)
    (thread : ThreadId) : Move ε → Prop
  | .intercept _ c => c.primitive.isCacheable = true → used c
  | .returned _ _ result => ∀ p ∈ (s.making thread).head?, p.2.primitive.isCacheable = true →
    result = g p.2.primitive p.2.args
  | .recordStep .. | .markBoundary .. => True

/-- A state that threads can reach from a new ledger by lawful moves, in any order and at any
times. -/
inductive Reached (g : Primitive → Json → Except ε Json) (text : ε → String) (used : Call → Prop)
    (session : String) (config : LedgerConfig) : Shared → Prop where
  | start : Reached g text used session config (.start session config)
  | move {s s' : Shared} (thread : ThreadId) (move : Move ε)
      (h : Reached g text used session config s) (hlawful : s.Lawful g used thread move)
      (hstep : s.step thread (move.turn text) = some s') : Reached g text used session config s'

/-- All that the cache has is right, and the calls that are being made are among those used. -/
structure Faithful (g : Primitive → Json → Except ε Json) (used : Call → Prop) (s : Shared) :
    Prop where
  entries : ∀ p ∈ s.ledger.cache.entries, ∃ c, used c ∧ p.1 = c.inputHash ∧
    g c.primitive c.args = .ok p.2.output ∧ p.2.outputHash = Trace.contentHash p.2.output
  made : ∀ t, ∀ p ∈ s.making t, p.2.primitive.isCacheable = true → used p.2

/-- The calls that a thread is making when the innermost one has come to its end. -/
theorem mem_of_mem_outer {s : Shared} {thread t : ThreadId} {id : Nat} {c : Call}
    {outer : List (Nat × Call)} (h : s.making thread = (id, c) :: outer) {p : Nat × Call}
    (hp : p ∈ s.setMaking thread outer t) : p ∈ s.making t := by
  unfold setMaking at hp
  split at hp
  case isTrue ht =>
    rw [ht, h]
    exact .tail _ hp
  case isFalse => exact hp

namespace Faithful

variable {g : Primitive → Json → Except ε Json} {used : Call → Prop} {text : ε → String}
  {s s' : Shared} {thread : ThreadId}

/-- At the start the ledger is faithful. -/
theorem start (session : String) (config : LedgerConfig) :
    Faithful g used (.start session config) where
  entries _ hp := absurd hp List.not_mem_nil
  made _ _ hp := absurd hp List.not_mem_nil

/-- Looking something up leaves the entries right. -/
theorem lookup (h : Faithful g used s) {now : Instant} {c : Call} {p : String × CacheEntry}
    (hp : p ∈ (s.ledger.lookup now c).2.entries) : ∃ c, used c ∧ p.1 = c.inputHash ∧
      g c.primitive c.args = .ok p.2.output ∧ p.2.outputHash = Trace.contentHash p.2.output := by
  unfold Ledger.lookup at hp
  split at hp
  · obtain ⟨e, _, _, he, hp⟩ := Cache.mem_get hp
    rw [hp]
    exact h.entries (p.1, e) he
  · exact h.entries p hp

/-- What is found is what the call comes to. -/
theorem found (h : Faithful g used s) (happart : Call.Apart used) {now : Instant} {c : Call}
    (hc : used c) {e : CacheEntry} (he : (s.ledger.lookup now c).1 = some e) :
    g c.primitive c.args = .ok e.output ∧ e.outputHash = Trace.contentHash e.output := by
  have hkeeps := Ledger.keeps_of_lookup he
  rw [Ledger.lookup, if_pos hkeeps] at he
  obtain ⟨kept, _, _, hkept, rfl⟩ := Cache.mem_of_get he
  -- the entry was kept for a call with the same digest, which is the same call
  obtain ⟨c', hc', hkey, hresult, hcontent⟩ := h.entries _ hkept
  obtain ⟨hprimitive, hargs⟩ := happart.eq_of_inputHash_eq hc hc' hkey
  rw [hprimitive, hargs]
  exact ⟨hresult, hcontent⟩

/-- A call that comes to an error has no entry. -/
theorem not_contains (h : Faithful g used s) (happart : Call.Apart used) {c : Call} (hc : used c)
    {e : ε} (he : g c.primitive c.args = .error e) :
    s.ledger.cache.contains c.inputHash = false := by
  rw [Cache.contains, Option.isSome_eq_false_iff, Option.isNone_iff_eq_none]
  by_contra hne
  obtain ⟨kept, hkept⟩ := Option.ne_none_iff_exists'.1 hne
  -- an entry under its digest would be an answer to it
  obtain ⟨c', hc', hkey, hresult, -⟩ := h.entries _ (Fields.mem_of_get? hkept)
  obtain ⟨hprimitive, hargs⟩ := happart.eq_of_inputHash_eq hc hc' hkey
  rw [hprimitive, hargs, hresult] at he
  cases he

/-- A turn that adds nothing to the cache and opens no call. -/
theorem quiet (h : Faithful g used s) (hcache : s'.ledger.cache = s.ledger.cache)
    (hmaking : ∀ t, ∀ p ∈ s'.making t, p ∈ s.making t) : Faithful g used s' where
  entries := by
    rw [hcache]
    exact h.entries
  made t p hp := h.made t p (hmaking t p hp)

/-- Every lawful move keeps the cache right. -/
theorem step (h : Faithful g used s) {move : Move ε} (hlawful : s.Lawful g used thread move)
    (hstep : s.step thread (move.turn text) = some s') : Faithful g used s' := by
  cases move with
  | intercept now c =>
    cases Shared.taken hstep with
    | hit _ _ e hfound => exact ⟨fun p hp => h.lookup hp, h.made⟩
    | pending _ _ hfound =>
      refine ⟨fun p hp => h.lookup hp, fun t p hp => ?_⟩
      simp only [setMaking] at hp
      split at hp
      case isTrue ht =>
        rcases List.mem_cons.1 hp with rfl | hp
        · exact hlawful
        · exact h.made thread p hp
      case isFalse => exact h.made t p hp
  | returned now latencyMs result =>
    cases result with
    | ok output =>
      cases Shared.taken hstep with
      | succeeded _ _ _ id c outer hmaking =>
        refine ⟨fun p hp => ?_, fun t p hp => h.made t p (mem_of_mem_outer hmaking hp)⟩
        have hcache : (s.ledger.succeed thread now latencyMs id c output).cache =
            if s.ledger.keeps c.primitive then s.ledger.cache.put (Ledger.entryOf c now output)
            else s.ledger.cache := rfl
        rw [hcache] at hp
        split at hp
        case isFalse => exact h.entries p hp
        case isTrue hkeeps =>
          rcases Cache.mem_put hp with rfl | hp
          · -- the new entry holds what the executor has returned
            have hcacheable : c.primitive.isCacheable = true := (Bool.and_eq_true_iff.1 hkeeps).1
            have hresult := hlawful (id, c) (by rw [hmaking]; rfl) hcacheable
            exact ⟨c, h.made thread (id, c) (hmaking ▸ .head _) hcacheable, rfl, hresult.symm, rfl⟩
          · exact h.entries p hp
    | error e =>
      cases Shared.taken hstep with
      | failed _ _ id c outer hmaking =>
        exact h.quiet rfl fun t p hp => mem_of_mem_outer hmaking hp
  | recordStep now kind input output =>
    cases Shared.taken hstep
    exact h.quiet rfl fun _ _ hp => hp
  | markBoundary now label domain =>
    cases Shared.taken hstep
    exact h.quiet rfl fun _ _ hp => hp

/-- In every state that can be reached the cache is right. -/
theorem of_reached {session : String} {config : LedgerConfig}
    (h : Reached g text used session config s) : Faithful g used s := by
  induction h with
  | start => exact .start session config
  | move thread move _ hlawful hstep ih => exact ih.step hlawful hstep

end Faithful

end Shared

/-! ## Every state that threads can reach -/

/-- In every state that threads can reach by moves in any order and at any times, in which executors
of cacheable primitives return what `g` says: whatever move comes next, the caller of such a
primitive whose call comes to its end is given what `g` says, be it an output or an error.  If the
cache answers, no call is made, and the node that is added has the digest of that output's canonical
text; otherwise
the call is made.  A call that comes to an error has no entry in the cache afterwards. -/
theorem served_correctly {g : Primitive → Json → Except ε Json} {text : ε → String}
    {used : Call → Prop} (happart : Call.Apart used) {session : String} {config : LedgerConfig}
    {s s' : Shared} (hs : Shared.Reached g text used session config s) {thread : ThreadId}
    {move : Move ε} (hlawful : s.Lawful g used thread move)
    (hstep : s.step thread (move.turn text) = some s') :
    (∀ c result, s.reply? thread move = some (c, result) → c.primitive.isCacheable = true →
      result = g c.primitive c.args) ∧
    (∀ now c, move = .intercept now c →
      match (s.ledger.openCall thread now c).1 with
      | .hit output node =>
        s'.making = s.making ∧ s'.ledger.trace = s.ledger.trace.push node ∧
          node.cacheHit = true ∧ g c.primitive c.args = .ok output ∧
          node.outputHash = some (Digest.hexOfText output.compact)
      | .pending id => s'.making = s.setMaking thread ((id, c) :: s.making thread)) ∧
    ∀ c e, used c → g c.primitive c.args = .error e →
      s'.ledger.cache.contains c.inputHash = false := by
  have hfaithful := Shared.Faithful.of_reached hs
  -- an answer of the cache was kept for a call with the same digest, and so for the same call
  have hhit {now : Instant} {c : Call} {e : CacheEntry} (hmove : move = .intercept now c)
      (hfound : (s.ledger.lookup now c).1 = some e) :
      g c.primitive c.args = .ok e.output ∧ e.outputHash = Trace.contentHash e.output := by
    subst hmove
    have hcacheable := (Bool.and_eq_true_iff.1 (Ledger.keeps_of_lookup hfound)).1
    exact hfaithful.found happart (hlawful hcacheable) hfound
  refine ⟨?replies, ?openings, ?errors⟩
  case replies =>
    intro c result hreply hcacheable
    -- only the opening of a call and the return of an executor give a reply
    cases move with
    | intercept now c' =>
      rw [Shared.reply?, Ledger.openCall_eq_lookup] at hreply
      cases hfound : (s.ledger.lookup now c').1 with
      | none =>
        rw [hfound] at hreply
        cases hreply
      | some e =>
        rw [hfound] at hreply
        cases hreply
        exact (hhit rfl hfound).1.symm
    | returned now latencyMs result' =>
      obtain ⟨p, hp, hpair⟩ := Option.map_eq_some_iff.1 hreply
      cases hpair
      exact hlawful p hp hcacheable
    | recordStep => cases hreply
    | markBoundary => cases hreply
  case openings =>
    rintro now c rfl
    cases Shared.taken hstep with
    | hit _ _ e hfound =>
      obtain ⟨hresult, hcontent⟩ := hhit rfl hfound
      rw [Ledger.openCall_eq_lookup, hfound]
      exact ⟨rfl, rfl, rfl, hresult, congrArg some hcontent⟩
    | pending _ _ hfound =>
      rw [Ledger.openCall_eq_lookup, hfound]
      rfl
  case errors =>
    intro c e hc he
    exact (hfaithful.step hlawful hstep).not_contains happart hc he

/-- A backend that knows one greeting. -/
def greeter : Primitive → Json → Except String Json
  | .infer, .array [.text "greet"] => .ok (.text "hello")
  | _, _ => .error "closed"

/-- A call that asks for a greeting. -/
def greetCall : Call := { primitive := .infer, args := .array [.text "greet"] }

/-- A call that asks for its embedding. -/
def embedCall : Call := { primitive := .embed, args := .array [.text "greet"] }

/-- The calls of the witness below. -/
def greeterCalls (c : Call) : Prop := c = greetCall ∨ c = embedCall

/-- One thread asks for the greeting while another asks for something else in vain, and then for the
greeting too. -/
theorem served_correctly_greeting :
    ∃ s s' output node, Shared.Reached greeter id greeterCalls "" {} s ∧
      s.step 2 (.openCall default greetCall) = some s' ∧
      (s.ledger.openCall 2 default greetCall).1 = .hit output node ∧
      s'.making = s.making ∧ greeter .infer greetCall.args = .ok output ∧
      node.outputHash = some (Digest.hexOfText output.compact) ∧
      s'.ledger.cache.contains embedCall.inputHash = false := by
  have happart : Call.Apart greeterCalls := by
    have hne : Digest.hexOfText greetCall.keyText ≠ Digest.hexOfText embedCall.keyText := by
      decide +kernel
    constructor
    · rintro c (rfl | rfl) <;> rfl
    · rintro c c' (rfl | rfl) (rfl | rfl) h
      · rfl
      · exact absurd h hne
      · exact absurd h.symm hne
      · rfl
  -- the second thread opens and fails while the call of the first is in the making
  have h₀ : Shared.Reached greeter id greeterCalls "" {} (.start "" {}) := .start
  have h₁ := h₀.move 1 (.intercept default greetCall) (fun _ => .inl rfl) rfl
  have h₂ := h₁.move 2 (.intercept default embedCall) (fun _ => .inr rfl) rfl
  have h₃ := h₂.move 2 (.returned default 0 (.error "closed")) (by rintro p ⟨⟩ _; rfl) rfl
  have h₄ := h₃.move 1 (.returned default 0 (.ok (.text "hello"))) (by rintro p ⟨⟩ _; rfl) rfl
  obtain ⟨s, hs, hhit⟩ : ∃ s, Shared.Reached greeter id greeterCalls "" {} s ∧
      (s.ledger.openCall 2 default greetCall).1.isHit = true := ⟨_, h₄, by decide +kernel⟩
  obtain ⟨s', hstep⟩ : ∃ s', s.step 2 (.openCall default greetCall) = some s' := by
    rw [Shared.step]
    split <;> exact ⟨_, rfl⟩
  have hlawful : s.Lawful greeter greeterCalls 2 (.intercept default greetCall) :=
    fun _ => .inl rfl
  obtain ⟨-, hopenings, herrors⟩ := served_correctly happart hs hlawful hstep
  have hopening := hopenings default greetCall rfl
  cases hopen : (s.ledger.openCall 2 default greetCall).1 with
  | pending id =>
    rw [hopen] at hhit
    cases hhit
  | hit output node =>
    rw [hopen] at hopening
    obtain ⟨hmaking, -, -, hresult, hcontent⟩ := hopening
    exact ⟨s, s', output, node, hs, hstep, hopen, hmaking, hresult, hcontent,
      herrors embedCall "closed" (.inr rfl) rfl⟩

/-! ## Programs as callers -/

namespace Run

variable {α : Type} {s : Shared}

/-- A program that puts a call to the ledger makes a move.  It goes on with the reply, or with its
executor if there is none yet. -/
theorem observe_reply {m : Machine} (hledger : s.ledger = m.ledger) (c : Call) (replay : Json → α)
    (executor : Run (α × Json)) :
    let move : Move Failure := .intercept (m.clock m.readings) c
    ∃ s', s.step mainThread (move.turn Failure.text) = some s' ∧
      ((∃ output, s.reply? mainThread move = some (c, .ok output) ∧
          observe c replay executor m =
            .ok (replay output) { m with ledger := s'.ledger, readings := m.readings + 1 }) ∨
        s.reply? mainThread move = none ∧ ∃ id, s'.making mainThread = (id, c) :: s.making mainThread ∧
          observe c replay executor m =
            closing (m.clock (m.readings + 1)) id c executor
              { m with ledger := s'.ledger, readings := m.readings + 2 }) := by
  intro move
  rw [observe_apply]
  simp only [move, Move.turn, Shared.step, Shared.reply?, hledger]
  rcases m.ledger.openCall mainThread (m.clock m.readings) c with ⟨opening, ledger⟩
  -- a hit is the reply, and otherwise the executor is run
  cases opening with
  | hit output node => exact ⟨_, rfl, .inl ⟨output, rfl, rfl⟩⟩
  | pending id => exact ⟨_, rfl, .inr ⟨rfl, id, by simp [Shared.setMaking], rfl⟩⟩

/-- When the executor of a call returns, the program makes a move, and goes on with the reply. -/
theorem closing_reply {m m' : Machine} (hledger : s.ledger = m'.ledger) {id : Nat} {c : Call}
    {outer : List (Nat × Call)} (hmaking : s.making mainThread = (id, c) :: outer) (started : Instant)
    (executor : Run (α × Json)) :
    let now := m'.clock m'.readings
    let returned : Except Failure Json → Move Failure := .returned now (started.millisTo now)
    (∀ a output, executor m = .ok (a, output) m' →
      s.reply? mainThread (returned (.ok output)) = some (c, .ok output) ∧
      ∃ s', s.step mainThread ((returned (.ok output)).turn Failure.text) = some s' ∧
        closing started id c executor m =
          .ok a { m' with ledger := s'.ledger, readings := m'.readings + 1 }) ∧
    ∀ f, executor m = .error (.failed f) m' →
      s.reply? mainThread (returned (.error f)) = some (c, .error f) ∧
      ∃ s', s.step mainThread ((returned (.error f)).turn Failure.text) = some s' ∧
        closing started id c executor m =
          .error (.failed f) { m' with ledger := s'.ledger, readings := m'.readings + 1 } := by
  intro now returned
  simp only [returned, Shared.reply?, Move.turn, Shared.step, hmaking, hledger]
  -- an executor that ends has succeeded or failed
  constructor
  · intro a output hexecutor
    refine ⟨rfl, _, rfl, ?_⟩
    unfold closing
    simp only [hexecutor]
    rfl
  · intro f hexecutor
    refine ⟨rfl, _, rfl, ?_⟩
    unfold closing
    simp only [hexecutor]
    rfl

end Run

end BrailleScript
