import Mathlib.Logic.Relation
import BrailleScript.Proofs.Ledger.Turns

/-!
# A ledger shared by threads

Whatever turns threads take at one ledger, in any order, its trace and its stacks of open calls stay
intact.  `Shared` keeps the calls that each thread is making beside the ledger, whose own stacks play
no part in that, so it can be compared with them.

## Key results

- `Intact.step`, `Intact.run`: the ledger keeps its trace and its stacks intact in every order of
  turns
- `Shared.step_node`: a turn changes no node but the one of the call it completes
- `Shared.parentId_run`: the parent of a node is settled when the node is added
- `Intact.acyclic`: no node is above itself
- `trace_integrity`: numbers, parents and stacks in every state that threads can reach
-/

namespace BrailleScript

/-! ## Stacks of open calls -/

namespace Ledger

/-- Dropping the stack of one thread leaves the others. -/
theorem lookup_filter_ne (openCalls : List (ThreadId × List Nat)) (thread t : ThreadId) :
    (openCalls.filter (·.1 != thread)).lookup t =
      if t = thread then none else openCalls.lookup t := by
  induction openCalls with
  | nil => simp
  | cons p rest ih =>
    obtain ⟨u, stack⟩ := p
    by_cases hu : u = thread
    · rw [List.filter_cons_of_neg (by simpa using hu), ih, List.lookup_cons]
      split
      · rfl
      · next ht =>
        have hne : (t == u) = false := beq_eq_false_iff_ne.2 (hu ▸ ht)
        rw [hne]
    · rw [List.filter_cons_of_pos (by simpa using hu), List.lookup_cons, List.lookup_cons, ih]
      by_cases ht : t = u
      · subst ht
        simp [hu]
      · rw [beq_eq_false_iff_ne.2 ht]

/-- What is found under a thread once the calls of a thread are replaced. -/
theorem lookup_setStack (openCalls : List (ThreadId × List Nat)) (thread t : ThreadId)
    (stack : List Nat) :
    (setStack thread stack openCalls).lookup t =
      if t = thread then (if stack = [] then none else some stack) else openCalls.lookup t := by
  have hothers := lookup_filter_ne openCalls thread t
  unfold setStack
  -- a thread without calls has no stack at all
  by_cases hs : stack = []
  · simp [hs, hothers]
  · by_cases ht : t = thread
    · simp [hs, ht]
    · have : (t == thread) = false := by simpa using ht
      simp [hs, ht, List.lookup_cons, this, hothers]

/-- The innermost call is closed by taking it off. -/
theorem closeIn_head (id : Nat) (stack : List Nat) : closeIn id (id :: stack) = stack := by
  simp [closeIn]

/-! ## Completed nodes -/

/-- A call that succeeds completes the node at its place and nothing else of the trace. -/
theorem trace_succeed (l : Ledger) (thread : ThreadId) (now : Instant) (latencyMs : Float)
    (id : Nat) (c : Call) (output : Json) :
    ∃ f : TraceNode → TraceNode,
      (l.succeed thread now latencyMs id c output).trace = l.trace.modify (id - 1) f ∧
      (∀ n, (f n).id = n.id) ∧ ∀ n, (f n).parentId = n.parentId :=
  ⟨fun n => { n with
      outputHash := some (Trace.contentHash output)
      truncatedOutput := some (Text.shorten l.config.truncateLen output.display)
      latencyMs
      tokenCounts := c.tokens output
      estimatedCost := ((c.tokens output).map (TokenCounts.cost l.config)).getD 0 },
    rfl, fun _ => rfl, fun _ => rfl⟩

/-- So does a call that fails. -/
theorem trace_fail (l : Ledger) (thread : ThreadId) (latencyMs : Float) (id : Nat)
    (error : String) :
    ∃ f : TraceNode → TraceNode,
      (l.fail thread latencyMs id error).trace = l.trace.modify (id - 1) f ∧
      (∀ n, (f n).id = n.id) ∧ ∀ n, (f n).parentId = n.parentId :=
  ⟨fun n => { n with latencyMs, error := some error }, rfl, fun _ => rfl, fun _ => rfl⟩

end Ledger

/-! ## What every turn keeps -/

/-- The trace and the stacks of a shared ledger are as they should be. -/
structure Shared.Intact (s : Shared) : Prop where
  /-- Nodes are numbered from one. -/
  numbered : ∀ (i : Nat) (n : TraceNode), s.ledger.trace[i]? = some n → n.id = i + 1
  /-- Parents come first. -/
  parent_lt : ∀ n ∈ s.ledger.trace, ∀ p, n.parentId = some p → p < n.id
  /-- The ledger has an entry exactly for the threads that are making calls, with their numbers. -/
  lookup : ∀ t, s.ledger.openCalls.lookup t =
    if s.making t = [] then none else some ((s.making t).map (·.1))
  /-- The calls that threads are making have nodes. -/
  made : ∀ t, ∀ p ∈ s.making t, 0 < p.1 ∧ p.1 ≤ s.ledger.trace.size

/-- How a turn may change the trace: it adds a node under the innermost call of its thread, or it
completes the node of that call, or it leaves the trace alone. -/
inductive Shared.TraceChange (s : Shared) (thread : ThreadId) (turn : Turn) (s' : Shared) : Prop where
  | added (n : TraceNode) (hturn : turn.addsNode = true ∧ turn.completes = false)
      (htrace : s'.ledger.trace = s.ledger.trace.push n)
      (hid : n.id = s.ledger.nextId) (hparent : n.parentId = s.ledger.innermost thread)
  | completed (id : Nat) (f : TraceNode → TraceNode)
      (hturn : turn.addsNode = false ∧ turn.completes = true)
      (hinnermost : s.innermost thread = some id)
      (htrace : s'.ledger.trace = s.ledger.trace.modify (id - 1) f)
      (hid : ∀ n, (f n).id = n.id) (hparent : ∀ n, (f n).parentId = n.parentId)
  | kept (hturn : turn.addsNode = false ∧ turn.completes = false)
      (htrace : s'.ledger.trace = s.ledger.trace)

/-- What a turn does to the calls of threads, in the ledger and beside it. -/
inductive Shared.CallsChange (s : Shared) (thread : ThreadId) (turn : Turn) (s' : Shared) : Prop where
  | opened (now : Instant) (c : Call) (hturn : turn = .openCall now c)
      (hsize : s'.ledger.trace.size = s.ledger.trace.size + 1)
      (hmaking : s'.making = s.setMaking thread ((s.ledger.nextId, c) :: s.making thread))
      (hopen : s'.ledger.openCalls = Ledger.setStack thread
        (s.ledger.nextId :: s.ledger.stack thread) s.ledger.openCalls)
  | closed (id : Nat) (c : Call) (outer : List (Nat × Call)) (hturn : turn.completes = true)
      (hbefore : s.making thread = (id, c) :: outer)
      (hmaking : s'.making = s.setMaking thread outer)
      (hopen : s'.ledger.openCalls = Ledger.setStack thread
        (Ledger.closeIn id (s.ledger.stack thread)) s.ledger.openCalls)
  | kept (hmaking : s'.making = s.making) (hopen : s'.ledger.openCalls = s.ledger.openCalls)

namespace Shared

variable {s s' : Shared} {thread : ThreadId} {turn : Turn}

/-- The innermost call of a thread is the first of those it is making. -/
theorem innermost_eq {id : Nat} {c : Call} {outer : List (Nat × Call)}
    (h : s.making thread = (id, c) :: outer) : s.innermost thread = some id := by
  rw [innermost, h]
  rfl

/-- Everything that a turn can do. -/
theorem step_cases (h : s.step thread turn = some s') :
    TraceChange s thread turn s' ∧ CallsChange s thread turn s' := by
  cases taken h with
  | hit now c e hfound =>
    -- a call that the cache answers is not open afterwards
    exact ⟨.added _ ⟨rfl, rfl⟩ rfl rfl rfl, .kept rfl rfl⟩
  | pending now c hfound =>
    exact ⟨.added _ ⟨rfl, rfl⟩ rfl rfl rfl, .opened now c rfl (Array.size_push _) rfl rfl⟩
  | succeeded now latencyMs output id c outer hmaking =>
    obtain ⟨f, htrace, hid, hparent⟩ := s.ledger.trace_succeed thread now latencyMs id c output
    exact ⟨.completed id f ⟨rfl, rfl⟩ (innermost_eq hmaking) htrace hid hparent,
      .closed id c outer rfl hmaking rfl rfl⟩
  | failed latencyMs error id c outer hmaking =>
    obtain ⟨f, htrace, hid, hparent⟩ := s.ledger.trace_fail thread latencyMs id error
    exact ⟨.completed id f ⟨rfl, rfl⟩ (innermost_eq hmaking) htrace hid hparent,
      .closed id c outer rfl hmaking rfl rfl⟩
  | recorded now kind input output =>
    exact ⟨.added _ ⟨rfl, rfl⟩ rfl rfl rfl, .kept rfl rfl⟩
  | marked | loaded | refused => exact ⟨.kept ⟨rfl, rfl⟩ rfl, .kept rfl rfl⟩

/-- A turn changes the length of the trace by the node it adds. -/
theorem size_step (h : s.step thread turn = some s') :
    s'.ledger.trace.size = s.ledger.trace.size + if turn.addsNode then 1 else 0 := by
  obtain ⟨n, hturn, ht, -, -⟩ | ⟨id, f, hturn, -, ht, -, -⟩ | ⟨hturn, ht⟩ := (step_cases h).1
  · rw [ht, hturn.1, Array.size_push, if_pos rfl]
  · rw [ht, hturn.1, Array.size_modify]
    rfl
  · rw [ht, hturn.1]
    rfl

end Shared

namespace Shared.Intact

variable {s s' : Shared} {thread : ThreadId} {turn : Turn}

/-- At the start everything is intact. -/
theorem start (session : String) (config : LedgerConfig) : Intact (.start session config) where
  numbered i n h := by
    have : (#[] : Array TraceNode)[i]? = some n := h
    simp at this
  parent_lt n hn := by
    have : n ∈ (#[] : Array TraceNode) := hn
    simp at this
  lookup t := rfl
  made t p hp := absurd hp List.not_mem_nil

/-- The ledger's stack of a thread holds the numbers of the calls that the thread is making. -/
theorem stack_eq (h : Intact s) (t : ThreadId) :
    s.ledger.stack t = (s.making t).map (·.1) := by
  rw [Ledger.stack, h.lookup t]
  split
  · next hnil => rw [hnil]; rfl
  · rfl

/-- The parent that the ledger gives to a new node is the innermost call of the thread. -/
theorem innermost_eq (h : Intact s) (t : ThreadId) : s.ledger.innermost t = s.innermost t := by
  rw [Ledger.innermost, h.stack_eq, List.head?_map, Shared.innermost]

/-- An innermost call has the number of a node. -/
theorem innermost_le (h : Intact s) {t : ThreadId} {id : Nat} (hid : s.innermost t = some id) :
    0 < id ∧ id ≤ s.ledger.trace.size := by
  rw [Shared.innermost, Option.map_eq_some_iff] at hid
  obtain ⟨p, hp, rfl⟩ := hid
  exact h.made t p (List.mem_of_mem_head? hp)

/-- One turn keeps the numbers of the nodes. -/
theorem numbered_step (h : Intact s) (hstep : s.step thread turn = some s') (i : Nat)
    (n : TraceNode) (hn : s'.ledger.trace[i]? = some n) : n.id = i + 1 := by
  -- a new node takes the next number, and a changed one keeps its own
  obtain ⟨new, -, ht, hid, -⟩ | ⟨id, f, -, -, ht, hid, -⟩ | ⟨-, ht⟩ := (Shared.step_cases hstep).1
  · rw [ht, Array.getElem?_push] at hn
    split at hn
    · next hi =>
      cases hn
      rw [hid, hi, Ledger.nextId]
    · exact h.numbered i n hn
  · rw [ht, Array.getElem?_modify] at hn
    split at hn
    · obtain ⟨old, hold, rfl⟩ := Option.map_eq_some_iff.1 hn
      rw [hid]
      exact h.numbered i old hold
    · exact h.numbered i n hn
  · rw [ht] at hn
    exact h.numbered i n hn

/-- One turn keeps parents in front of their children. -/
theorem parent_lt_step (h : Intact s) (hstep : s.step thread turn = some s') (n : TraceNode)
    (hn : n ∈ s'.ledger.trace) (p : Nat) (hp : n.parentId = some p) : p < n.id := by
  obtain ⟨new, -, ht, hid, hparent⟩ | ⟨id, f, -, -, ht, hid, hparent⟩ | ⟨-, ht⟩ :=
    (Shared.step_cases hstep).1
  · rw [ht, Array.mem_push] at hn
    rcases hn with hn | rfl
    · exact h.parent_lt n hn p hp
    · -- the innermost call has a node already, and the new node comes behind it
      rw [hparent, h.innermost_eq] at hp
      have := (h.innermost_le hp).2
      rw [hid, Ledger.nextId]
      omega
  · rw [ht] at hn
    obtain ⟨i, hi⟩ := Array.mem_iff_getElem?.1 hn
    rw [Array.getElem?_modify] at hi
    split at hi
    · obtain ⟨old, hold, rfl⟩ := Option.map_eq_some_iff.1 hi
      rw [hparent] at hp
      rw [hid]
      exact h.parent_lt old (Array.mem_of_getElem? hold) p hp
    · exact h.parent_lt n (Array.mem_of_getElem? hi) p hp
  · rw [ht] at hn
    exact h.parent_lt n hn p hp

/-- One turn keeps the ledger's stacks in step with the threads. -/
theorem lookup_step (h : Intact s) (hstep : s.step thread turn = some s') (t : ThreadId) :
    s'.ledger.openCalls.lookup t =
      if s'.making t = [] then none else some ((s'.making t).map (·.1)) := by
  obtain ⟨now, c, -, -, hmaking, hopen⟩ | ⟨id, c, outer, -, hbefore, hmaking, hopen⟩ | ⟨hmaking, hopen⟩ :=
    (Shared.step_cases hstep).2
  · rw [hopen, Ledger.lookup_setStack, hmaking, Shared.setMaking, h.stack_eq]
    split
    · simp
    · exact h.lookup t
  · -- the call that is closed is the innermost one, so the calls around it stay open
    have hstack : Ledger.closeIn id (s.ledger.stack thread) = outer.map (·.1) := by
      rw [h.stack_eq, hbefore, List.map_cons]
      exact Ledger.closeIn_head id _
    rw [hopen, Ledger.lookup_setStack, hmaking, Shared.setMaking, hstack]
    split
    · simp only [List.map_eq_nil_iff]
    · exact h.lookup t
  · rw [hopen, hmaking]
    exact h.lookup t

/-- One turn keeps the nodes of the calls that are being made. -/
theorem made_step (h : Intact s) (hstep : s.step thread turn = some s') (t : ThreadId)
    (p : Nat × Call) (hp : p ∈ s'.making t) : 0 < p.1 ∧ p.1 ≤ s'.ledger.trace.size := by
  have hsize := Shared.size_step hstep
  have hold (hp : p ∈ s.making t) : 0 < p.1 ∧ p.1 ≤ s'.ledger.trace.size := by
    have := h.made t p hp
    omega
  -- an opening makes the newest node, and the end of a call takes one away
  obtain ⟨now, c, -, hgrown, hmaking, -⟩ | ⟨id, c, outer, -, hbefore, hmaking, -⟩ | ⟨hmaking, -⟩ :=
    (Shared.step_cases hstep).2
  · rw [hmaking, Shared.setMaking] at hp
    split at hp
    · next ht =>
      subst ht
      rcases List.mem_cons.1 hp with rfl | hp
      · rw [hgrown, Ledger.nextId]
        omega
      · exact hold hp
    · exact hold hp
  · rw [hmaking, Shared.setMaking] at hp
    split at hp
    · next ht =>
      subst ht
      exact hold (hbefore ▸ List.mem_cons_of_mem _ hp)
    · exact hold hp
  · rw [hmaking] at hp
    exact hold hp

/-- Every turn keeps everything intact. -/
theorem step (h : Intact s) (hstep : s.step thread turn = some s') : Intact s' where
  numbered := h.numbered_step hstep
  parent_lt := h.parent_lt_step hstep
  lookup := h.lookup_step hstep
  made := h.made_step hstep

/-- So does every run. -/
theorem run (h : Intact s) {turns : List (ThreadId × Turn)} (hrun : Shared.run turns s = some s') :
    Intact s' := by
  induction turns generalizing s with
  | nil =>
    cases hrun
    exact h
  | cons turn rest ih =>
    obtain ⟨s₁, hstep, hrest⟩ := Option.bind_eq_some_iff.1 hrun
    exact ih (h.step hstep) hrest

end Shared.Intact

namespace Shared

variable {s s' : Shared} {thread : ThreadId} {turn : Turn}

/-- A turn changes no node but the one of the call it completes. -/
theorem step_node (hs : Intact s) (h : s.step thread turn = some s') {i : Nat}
    (hi : i < s.ledger.trace.size) (hne : s.completed thread turn ≠ some (i + 1)) :
    s'.ledger.trace[i]? = s.ledger.trace[i]? := by
  obtain ⟨n, -, ht, -, -⟩ | ⟨id, f, hturn, hid, ht, -, -⟩ | ⟨-, ht⟩ := (step_cases h).1
  · rw [ht, Array.getElem?_push, if_neg (by omega)]
  · -- the node at the place of the completed call is the one with its number
    have hpos := (hs.innermost_le hid).1
    rw [completed, hturn.2, if_pos rfl, hid] at hne
    rw [ht, Array.getElem?_modify, if_neg]
    intro heq
    apply hne
    rw [← heq]
    congr 1
    omega
  · rw [ht]

/-- A node keeps its parent in every turn. -/
theorem parentId_step (h : s.step thread turn = some s') {i : Nat} {n : TraceNode}
    (hn : s.ledger.trace[i]? = some n) :
    ∃ n', s'.ledger.trace[i]? = some n' ∧ n'.parentId = n.parentId := by
  -- a turn pushes a node, changes one in place, or leaves the trace alone
  obtain ⟨new, -, ht, -, -⟩ | ⟨id, f, -, -, ht, -, hparent⟩ | ⟨-, ht⟩ := (step_cases h).1
  · have hi : i < s.ledger.trace.size := (Array.getElem?_eq_some_iff.1 hn).1
    refine ⟨n, ?_, rfl⟩
    rw [ht, Array.getElem?_push, if_neg (by omega), hn]
  · rw [ht, Array.getElem?_modify, hn]
    split
    · exact ⟨f n, rfl, hparent n⟩
    · exact ⟨n, rfl, rfl⟩
  · exact ⟨n, by rw [ht, hn], rfl⟩

/-- A node keeps its parent in every run. -/
theorem parentId_run {turns : List (ThreadId × Turn)} (h : run turns s = some s') {i : Nat}
    {n : TraceNode} (hn : s.ledger.trace[i]? = some n) :
    ∃ n', s'.ledger.trace[i]? = some n' ∧ n'.parentId = n.parentId := by
  induction turns generalizing s n with
  | nil =>
    cases h
    exact ⟨n, hn, rfl⟩
  | cons turn rest ih =>
    obtain ⟨s₁, hstep, hrest⟩ := Option.bind_eq_some_iff.1 h
    obtain ⟨n₁, hn₁, hp₁⟩ := parentId_step hstep hn
    obtain ⟨n', hn', hp'⟩ := ih hrest hn₁
    exact ⟨n', hn', hp'.trans hp₁⟩

/-- A node is added under the innermost call of its thread. -/
theorem parentId_added (hs : Intact s) (h : s.step thread turn = some s')
    (hadds : turn.addsNode = true) :
    ∃ n, s'.ledger.trace[s.ledger.trace.size]? = some n ∧ n.parentId = s.innermost thread := by
  -- only the first way adds a node
  obtain ⟨n, -, ht, -, hparent⟩ | ⟨id, f, hturn, -, -, -, -⟩ | ⟨hturn, -⟩ := (step_cases h).1
  · refine ⟨n, ?_, hparent.trans (hs.innermost_eq thread)⟩
    rw [ht, Array.getElem?_push, if_pos rfl]
  · rw [hturn.1] at hadds
    cases hadds
  · rw [hturn.1] at hadds
    cases hadds

/-- A call is made under the number of the node that was added for it, unless the cache answered
it. -/
theorem making_openCall {now : Instant} {c : Call}
    (h : s.step thread (.openCall now c) = some s') :
    s'.making thread = s.making thread ∨
      s'.making thread = (s.ledger.trace.size + 1, c) :: s.making thread := by
  -- of the three ways the second one ends a call, and does not open it
  obtain ⟨now', c', hturn, -, hmaking, -⟩ | ⟨-, -, -, hturn, -, -, -⟩ | ⟨hmaking, -⟩ :=
    (step_cases h).2
  · cases hturn
    right
    rw [hmaking, setMaking, if_pos rfl, Ledger.nextId]
  · cases hturn
  · exact .inl (by rw [hmaking])

end Shared

/-- Every link of an intact trace goes from a smaller number to a greater one. -/
theorem Shared.Intact.edge_lt {s : Shared} (h : Intact s) {p c : Nat}
    (he : (p, c) ∈ Trace.edges s.ledger.trace.toList) : p < c := by
  rw [Trace.edges, List.mem_filterMap] at he
  obtain ⟨n, hn, hedge⟩ := he
  obtain ⟨q, hq, hpair⟩ := Option.map_eq_some_iff.1 hedge
  cases hpair
  exact h.parent_lt n (Array.mem_toList_iff.1 hn) p hq

/-- So no node is above itself. -/
theorem Shared.Intact.acyclic {s : Shared} (h : Intact s) (a : Nat) :
    ¬Relation.TransGen (fun p c => (p, c) ∈ Trace.edges s.ledger.trace.toList) a a := by
  -- numbers grow along the links
  have hlt {a b : Nat}
      (hab : Relation.TransGen (fun p c => (p, c) ∈ Trace.edges s.ledger.trace.toList) a b) :
      a < b := by
    induction hab with
    | single he => exact h.edge_lt he
    | tail _ he ih => exact Nat.lt_trans ih (h.edge_lt he)
  exact fun ha => Nat.lt_irrefl a (hlt ha)

/-! ## Every state that threads can reach -/

/-- Whatever turns any number of threads take at a new ledger, in any order: nodes are numbered from
one; parents come before their children and the links between nodes have no cycle; the ledger's
stack of a thread holds exactly the calls the thread is making, and there is none for a thread that
makes no call.  Whatever turn comes next, it adds at most one node, under the innermost call of its
thread, where that node stays in all that follows; a call is made under the number of the node that
was added for it; and of the nodes that are there a turn changes none but the one of the call it
completes. -/
theorem trace_integrity {session : String} {config : LedgerConfig}
    {turns : List (ThreadId × Turn)} {s : Shared}
    (h : Shared.run turns (.start session config) = some s) :
    (∀ (i : Nat) (n : TraceNode), s.ledger.trace[i]? = some n → n.id = i + 1) ∧
    (∀ n ∈ s.ledger.trace, ∀ p, n.parentId = some p → p < n.id) ∧
    (∀ a, ¬Relation.TransGen (fun p c => (p, c) ∈ Trace.edges s.ledger.trace.toList) a a) ∧
    (∀ t, s.ledger.openCalls.lookup t =
      if s.making t = [] then none else some ((s.making t).map (·.1))) ∧
    (∀ t turn s', s.step t turn = some s' →
      s'.ledger.trace.size = s.ledger.trace.size + (if turn.addsNode then 1 else 0) ∧
      (∀ i < s.ledger.trace.size, s.completed t turn ≠ some (i + 1) →
        s'.ledger.trace[i]? = s.ledger.trace[i]?) ∧
      (∀ now c, turn = .openCall now c → s'.making t = s.making t ∨
        s'.making t = (s.ledger.trace.size + 1, c) :: s.making t) ∧
      (turn.addsNode = true → ∀ later s'', Shared.run later s' = some s'' →
        ∃ n, s''.ledger.trace[s.ledger.trace.size]? = some n ∧ n.parentId = s.innermost t)) := by
  have hs : s.Intact := (Shared.Intact.start session config).run h
  refine ⟨hs.numbered, hs.parent_lt, hs.acyclic, hs.lookup, fun t turn s' hstep => ?_⟩
  refine ⟨Shared.size_step hstep, fun i hi hne => Shared.step_node hs hstep hi hne, ?_, ?_⟩
  · rintro now c rfl
    exact Shared.making_openCall hstep
  · intro hadds later s'' hlater
    -- the node is there after the turn, and stays under its parent
    obtain ⟨n, hn, hparent⟩ := Shared.parentId_added hs hstep hadds
    obtain ⟨n', hn', hparent'⟩ := Shared.parentId_run hlater hn
    exact ⟨n', hn', hparent'.trans hparent⟩

/-- Two threads: the first composes a pipeline and asks inside it while the second asks on its own
account; the second is done before the call inside the pipeline is. -/
def rendezvous : List (ThreadId × Turn) :=
  [ (1, .openCall default { primitive := .pipeCompose, args := .array [.text "nested"] }),
    (1, .openCall default { primitive := .infer, args := .array [.text "nested"] }),
    (2, .openCall default { primitive := .infer, args := .array [.text "top"] }),
    (2, .succeed default 0 (.text "seen top")),
    (1, .succeed default 0 (.text "seen nested")) ]

/-- Two threads take turns with calls inside each other, one of which fails. -/
theorem trace_integrity_rendezvous :
    ∃ s, Shared.run rendezvous (.start "" { cacheEnabled := false }) = some s ∧
      s.ledger.trace.toList.map (fun n => (n.id, n.parentId)) =
        [(1, none), (2, some 1), (3, none)] ∧
      s.ledger.openCalls.lookup 1 = some [1] ∧ s.ledger.openCalls.lookup 2 = none ∧
      ∀ a, ¬Relation.TransGen (fun p c => (p, c) ∈ Trace.edges s.ledger.trace.toList) a a := by
  have hsome : (Shared.run rendezvous (.start "" { cacheEnabled := false })).isSome = true := rfl
  have hrun := (Option.some_get hsome).symm
  exact ⟨_, hrun, rfl, rfl, rfl, (trace_integrity hrun).2.2.1⟩

end BrailleScript
