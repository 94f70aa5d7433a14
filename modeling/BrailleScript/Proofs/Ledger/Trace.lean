import BrailleScript.Ledger

/-!
# The nodes of calls whose results are kept

Which calls of a run could be answered from the cache, with which inputs, and how they ended, is
read off the trace.  Nodes are appended and completed, never removed, and completing a node leaves
its primitive, its input and whether it was a hit as they are.

## Key results

- `Ledger.keptNodes_openPending`, `Ledger.keptNodes_recordHit`: opening a call adds its node
- `Ledger.map_keptNodes_succeed`, `Ledger.map_keptNodes_fail`: closing one adds nothing
- `Ledger.keptNodes_recordStep`: a step that is no call of a primitive does not count
-/

namespace BrailleScript

/-- Whether a node records a call of a primitive whose results are kept. -/
def TraceNode.isKept (n : TraceNode) : Bool :=
  n.primitive.any fun name => (Primitive.ofName? name).any (·.isCacheable)

/-- Something about nodes that completing them does not change. -/
def TraceNode.Lasting {γ : Type} (g : TraceNode → γ) : Prop :=
  ∀ {n n' : TraceNode}, n'.inputHash = n.inputHash → n'.cacheHit = n.cacheHit → g n' = g n

namespace Ledger

/-- The nodes of the calls whose results are kept. -/
def keptNodes (l : Ledger) : List TraceNode :=
  l.trace.toList.filter (·.isKept)

/-- The digests of the inputs of these calls. -/
def keptInputs (l : Ledger) : List String :=
  l.keptNodes.map (·.inputHash)

/-- Some of these calls failed. -/
def HasFailed (l : Ledger) : Prop :=
  ∃ n ∈ l.keptNodes, n.error ≠ none

end Ledger

/-- A primitive is found by its name. -/
theorem Primitive.ofName?_name (p : Primitive) : Primitive.ofName? p.name = some p := by
  cases p <;> decide

/-- The names of steps are those of no primitive. -/
theorem Primitive.ofName?_call (s : String) : Primitive.ofName? ("call:" ++ s) = none := by
  unfold ofName?
  rw [List.find?_eq_none]
  intro p _ h
  -- the name of no primitive begins with a `c`
  have hchars : p.name.toList.head? = some 'c' := by
    rw [eq_of_beq h, String.toList_append]
    rfl
  cases p <;> exact absurd hchars (by decide)

/-- The node of a call is kept when its primitive is cacheable. -/
theorem Call.isKept_node (c : Call) (config : LedgerConfig) (id : Nat) (parent : Option Nat)
    (now : Instant) : (c.node config id parent now).isKept = c.primitive.isCacheable := by
  simp [TraceNode.isKept, Call.node, Primitive.ofName?_name]

/-! ## Completing nodes -/

/-- Changing one node without changing what `g` sees of kept nodes. -/
private theorem map_filter_modify {γ : Type} {f : TraceNode → TraceNode} (g : TraceNode → γ)
    (hk : ∀ n, (f n).isKept = n.isKept) (hg : ∀ n, g (f n) = g n) (i : Nat)
    (nodes : List TraceNode) :
    ((nodes.modify i f).filter (·.isKept)).map g = (nodes.filter (·.isKept)).map g := by
  induction nodes generalizing i with
  | nil => cases i <;> rfl
  | cons n nodes ih =>
    cases i with
    | zero =>
      rw [List.modify_zero_cons, List.filter_cons, List.filter_cons, hk]
      split
      · rw [List.map_cons, List.map_cons, hg]
      · rfl
    | succ i =>
      rw [List.modify_succ_cons, List.filter_cons, List.filter_cons]
      split
      · rw [List.map_cons, List.map_cons, ih]
      · exact ih i

/-- A change that keeps errors leaves a kept node with an error. -/
private theorem exists_error_modify {f : TraceNode → TraceNode}
    (hk : ∀ n, (f n).isKept = n.isKept) (hf : ∀ n, n.error ≠ none → (f n).error ≠ none) (i : Nat)
    (nodes : List TraceNode) (h : ∃ n ∈ nodes.filter (·.isKept), n.error ≠ none) :
    ∃ n ∈ (nodes.modify i f).filter (·.isKept), n.error ≠ none := by
  obtain ⟨n, hn, he⟩ := h
  obtain ⟨hmem, hkept⟩ := List.mem_filter.1 hn
  obtain ⟨j, hj⟩ := List.mem_iff_getElem?.1 hmem
  -- the failed node stands where it stood, changed or not
  have hj' : (nodes.modify i f)[j]? = some (if i = j then f n else n) := by
    rw [List.getElem?_modify, hj]
    rfl
  refine ⟨if i = j then f n else n, List.mem_filter.2 ⟨List.mem_of_getElem? hj', ?_⟩, ?_⟩
  · split
    · rw [hk]
      exact hkept
    · exact hkept
  · split
    · exact hf n he
    · exact he

namespace Ledger

variable (l : Ledger) (thread : ThreadId) (now : Instant) (latencyMs : Float) (id : Nat) (c : Call)

/-! ## What the operations do to the nodes -/

/-- Opening a call adds its node to the kept ones, if it is kept. -/
theorem keptNodes_openPending : (l.openPending thread now c).2.keptNodes =
    l.keptNodes ++
      if c.primitive.isCacheable then [c.node l.config l.nextId (l.innermost thread) now] else [] := by
  show (l.trace.push _).toList.filter _ = _
  rw [Array.toList_push, List.filter_append, List.filter_cons, List.filter_nil, Call.isKept_node]
  rfl

/-- The node of a hit is that of its call, marked as a hit. -/
theorem keptNodes_recordHit (e : CacheEntry) (hc : c.primitive.isCacheable = true) :
    ∃ n, (l.recordHit thread now c e).2.keptNodes = l.keptNodes ++ [n] ∧
      n.inputHash = c.inputHash ∧ n.cacheHit = true := by
  refine ⟨{ c.node l.config l.nextId (l.innermost thread) now with
    outputHash := some e.outputHash
    truncatedOutput := some (Text.shorten l.config.truncateLen e.output.display)
    cacheHit := true }, ?_, rfl, rfl⟩
  show (l.trace.push _).toList.filter _ = _
  rw [Array.toList_push, List.filter_append, List.filter_cons, List.filter_nil, if_pos]
  · rfl
  · exact (c.isKept_node l.config l.nextId (l.innermost thread) now).trans hc

/-- A call that succeeds changes nothing that lasts. -/
theorem map_keptNodes_succeed {γ : Type} {g : TraceNode → γ} (hg : TraceNode.Lasting g)
    (output : Json) :
    (l.succeed thread now latencyMs id c output).keptNodes.map g = l.keptNodes.map g := by
  show ((l.trace.modify (id - 1) _).toList.filter _).map g = _
  rw [Array.toList_modify]
  apply map_filter_modify g
  · exact fun _ => rfl
  · exact fun _ => hg rfl rfl

/-- Nor does one that fails. -/
theorem map_keptNodes_fail {γ : Type} {g : TraceNode → γ} (hg : TraceNode.Lasting g)
    (error : String) :
    (l.fail thread latencyMs id error).keptNodes.map g = l.keptNodes.map g := by
  show ((l.trace.modify (id - 1) _).toList.filter _).map g = _
  rw [Array.toList_modify]
  apply map_filter_modify g
  · exact fun _ => rfl
  · exact fun _ => hg rfl rfl

/-- A failure stays after a call that succeeds. -/
theorem HasFailed.succeed {l : Ledger} (h : l.HasFailed) (output : Json) :
    (l.succeed thread now latencyMs id c output).HasFailed := by
  unfold HasFailed keptNodes Ledger.succeed
  rw [Array.toList_modify]
  apply exists_error_modify
  · exact fun _ => rfl
  · exact fun _ he => he
  · exact h

/-- It stays after another failure. -/
theorem HasFailed.fail {l : Ledger} (h : l.HasFailed) (error : String) :
    (l.fail thread latencyMs id error).HasFailed := by
  unfold HasFailed keptNodes Ledger.fail
  rw [Array.toList_modify]
  apply exists_error_modify
  · exact fun _ => rfl
  · exact fun _ _ => Option.some_ne_none _
  · exact h

/-- A call of this kind that was just opened and now fails. -/
theorem hasFailed_fail (error : String) (hc : c.primitive.isCacheable = true) :
    ((l.openPending thread now c).2.fail thread latencyMs l.nextId error).HasFailed := by
  -- the node that was opened is the last one
  have hlast : (l.trace.push (c.node l.config l.nextId (l.innermost thread) now))[l.nextId - 1]? =
      some (c.node l.config l.nextId (l.innermost thread) now) := by
    simp [nextId]
  refine ⟨{ c.node l.config l.nextId (l.innermost thread) now with
    latencyMs, error := some error }, List.mem_filter.2 ⟨?_, ?_⟩, Option.some_ne_none _⟩
  · rw [Array.mem_toList_iff]
    refine Array.mem_of_getElem? (i := l.nextId - 1) ?_
    show ((l.trace.push _).modify (l.nextId - 1) _)[l.nextId - 1]? = _
    rw [Array.getElem?_modify, hlast]
    simp
  · exact (c.isKept_node l.config l.nextId (l.innermost thread) now).trans hc

/-- A recorded step is none of the kept nodes. -/
theorem keptNodes_recordStep (name : String) (input output : Json) :
    (l.recordStep thread now ("call:" ++ name) input output).2.keptNodes = l.keptNodes := by
  show (l.trace.push _).toList.filter _ = _
  rw [Array.toList_push, List.filter_append, List.filter_cons, List.filter_nil, if_neg]
  · exact List.append_nil _
  · simp [TraceNode.isKept, Primitive.ofName?_call]

end Ledger

end BrailleScript
