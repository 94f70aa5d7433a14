import Mathlib.Data.Set.Card
import BrailleScript.Proofs.Ledger.Threads

/-!
# The trace log tells what happened

A log is made from the nodes of a trace and from the boundaries, which are kept apart; a boundary
knows the last node before it.  Beside it stands the chronicle of a run: what the turns of threads
added, in the order in which they added it, with no look at what a boundary knows.  The log lists
the same in the same order, and indents a node by the number of its ancestors.

## Key results

- `Trace.marks_logItems`: where each boundary is placed behind its node, the log keeps the order
- `Trace.nodes_logItems`: nodes are indented by the number of their ancestors
- `Shared.chronicle_run`: the chronicle of a run, against the trace and the boundaries it leaves
- `Trace.prints_text`: what a line of the log looks like
- `log_tells_chronicle`: the log in every state that threads can reach
-/

namespace BrailleScript

/-- What a line of a log stands for: a node, by its number, or a boundary. -/
inductive Mark where
  | node (id : Nat)
  | boundary (b : Boundary)

namespace Mark

/-- The numbers of the nodes that are listed. -/
def nodes : List Mark → List Nat
  | [] => []
  | node id :: rest => id :: nodes rest
  | boundary _ :: rest => nodes rest

/-- The boundaries that are listed. -/
def boundaries : List Mark → List Boundary
  | [] => []
  | node _ :: rest => boundaries rest
  | boundary b :: rest => b :: boundaries rest

/-- Numbers of nodes rise, and each boundary knows the node that is last before it; `last` is the
last node before all of these. -/
def Placed : (last : Option Nat) → List Mark → Prop
  | _, [] => True
  | last, node id :: rest => (∀ n ∈ last, n < id) ∧ Placed (some id) rest
  | last, boundary b :: rest => b.afterNode = last ∧ Placed last rest

end Mark

namespace LogItem

/-- The mark that an item of the log stands for. -/
def mark : LogItem → Mark
  | node _ n => .node n.id
  | boundary b => .boundary b

/-- The node of a line, with the depth it is indented by. -/
def node? : LogItem → Option (Nat × TraceNode)
  | node depth n => some (depth, n)
  | boundary _ => none

/-- The boundary that it shows, if it is one. -/
def boundary? : LogItem → Option Boundary
  | node .. => none
  | boundary b => some b

end LogItem

/-! ## Boundaries -/

namespace Trace

/-- What is marked behind a node knows that node or a later one. -/
theorem not_isDue_of_placed {id last : Nat} {marks : List Mark} (h : Mark.Placed (some last) marks)
    (hlt : id < last) : ∀ b ∈ Mark.boundaries marks, isDue id b = false := by
  -- the last node only grows along the marks
  induction marks generalizing last with
  | nil => exact fun b hb => nomatch hb
  | cons m rest ih =>
    cases m with
    | node next =>
      obtain ⟨hnext, hrest⟩ := h
      have := hnext last rfl
      exact ih hrest (by omega)
    | boundary b =>
      obtain ⟨hafter, hrest⟩ := h
      rw [Mark.boundaries]
      intro b' hb'
      rcases List.mem_cons.1 hb' with rfl | hb'
      · simp [isDue, hafter, hlt]
      · exact ih hrest hlt b' hb'

/-- Behind a node, every boundary knows a node to stand after. -/
theorem afterNode_of_placed {last : Nat} {marks : List Mark} (h : Mark.Placed (some last) marks) :
    ∀ b ∈ Mark.boundaries marks, b.afterNode.isNone = false := by
  -- from the first node on there is one to stand after
  induction marks generalizing last with
  | nil => exact fun b hb => nomatch hb
  | cons m rest ih =>
    cases m with
    | node next => exact ih h.2
    | boundary b =>
      obtain ⟨hafter, hrest⟩ := h
      rw [Mark.boundaries]
      intro b' hb'
      rcases List.mem_cons.1 hb' with rfl | hb'
      · rw [hafter]
        rfl
      · exact ih hrest b' hb'

/-- Where nothing fits, nothing is taken and nothing dropped. -/
private theorem takeWhile_of_none {α : Type} {p : α → Bool} {l : List α} (h : ∀ a ∈ l, p a = false) :
    l.takeWhile p = [] ∧ l.dropWhile p = l := by
  cases l with
  | nil => exact ⟨rfl, rfl⟩
  | cons a l =>
    have ha : ¬p a = true := by simp [h a List.mem_cons_self]
    exact ⟨List.takeWhile_cons_of_neg ha, List.dropWhile_cons_of_neg ha⟩

/-- Behind a node the log lists what is marked behind it. -/
theorem marks_logFrom {id : Nat} {marks : List Mark} (h : Mark.Placed (some id) marks)
    (depths : List (Nat × Nat)) {nodes : List TraceNode}
    (hnodes : nodes.map (·.id) = Mark.nodes marks) :
    ((Mark.boundaries marks).takeWhile (isDue id)).map Mark.boundary ++
      (logFrom depths nodes ((Mark.boundaries marks).dropWhile (isDue id))).map LogItem.mark =
        marks := by
  induction marks generalizing id depths nodes with
  | nil =>
    obtain rfl : nodes = [] := List.map_eq_nil_iff.1 hnodes
    rfl
  | cons m rest ih =>
    cases m with
    | node next =>
      obtain ⟨hnext, hrest⟩ := h
      rw [Mark.nodes] at hnodes
      obtain ⟨n, nodes, rfl, rfl, hnodes'⟩ := List.map_eq_cons_iff.1 hnodes
      -- nothing that is still to come is due at the node before
      obtain ⟨htake, hdrop⟩ := takeWhile_of_none (not_isDue_of_placed hrest (hnext id rfl))
      have hlater := ih hrest ((n.id, depthOf depths n) :: depths) hnodes'
      rw [Mark.boundaries, htake, hdrop, List.map_nil, List.nil_append, logFrom]
      simp only [List.map_cons, List.map_append, List.map_map, List.cons_append]
      congr 1
    | boundary b =>
      obtain ⟨hafter, hrest⟩ := h
      have hdue : isDue id b = true := by simp [isDue, hafter]
      have hlater := ih hrest depths hnodes
      rw [Mark.boundaries, List.takeWhile_cons_of_pos hdue, List.dropWhile_cons_of_pos hdue, List.map_cons,
        List.cons_append, hlater]

/-- The log lists nodes and boundaries in the order of the marks that place them. -/
theorem marks_logItems {marks : List Mark} (h : Mark.Placed none marks) {nodes : List TraceNode}
    (hnodes : nodes.map (·.id) = Mark.nodes marks) :
    (logItems nodes (Mark.boundaries marks)).map LogItem.mark = marks := by
  rw [logItems, List.map_append, List.map_map]
  induction marks with
  | nil =>
    obtain rfl : nodes = [] := List.map_eq_nil_iff.1 hnodes
    rfl
  | cons m rest ih =>
    cases m with
    | node id =>
      obtain ⟨-, hrest⟩ := h
      rw [Mark.nodes] at hnodes
      obtain ⟨n, nodes, rfl, rfl, hnodes'⟩ := List.map_eq_cons_iff.1 hnodes
      -- nothing was marked before the first node that is still to come
      obtain ⟨htake, hdrop⟩ := takeWhile_of_none (afterNode_of_placed hrest)
      have hlater := marks_logFrom hrest [(n.id, depthOf [] n)] hnodes'
      rw [Mark.boundaries, htake, hdrop, List.map_nil, List.nil_append, logFrom]
      simp only [List.map_cons, List.map_append, List.map_map, List.cons_append]
      congr 1
    | boundary b =>
      obtain ⟨hafter, hrest⟩ := h
      simp only [Mark.boundaries, List.takeWhile_cons, List.dropWhile_cons, hafter,
        Option.isNone_none, ↓reduceIte, List.map_cons, List.cons_append]
      exact congrArg (Mark.boundary b :: ·) (ih hrest hnodes)

/-! ## Depths -/

/-- The nodes above a node, by their numbers. -/
def ancestors (nodes : List TraceNode) (id : Nat) : Set Nat :=
  {a | Relation.TransGen (fun p c => (p, c) ∈ edges nodes) a id}

/-- Nodes are numbered from one, and their parents are among the nodes before them. -/
structure Grown (nodes : List TraceNode) : Prop where
  numbered : ∀ i n, nodes[i]? = some n → n.id = i + 1
  parent_lt : ∀ n ∈ nodes, ∀ p, n.parentId = some p → 0 < p ∧ p < n.id

namespace Grown

variable {nodes : List TraceNode}

/-- No two nodes share a number. -/
theorem eq_of_id (h : Grown nodes) {n m : TraceNode} (hn : n ∈ nodes) (hm : m ∈ nodes)
    (hid : n.id = m.id) : n = m := by
  obtain ⟨i, hi⟩ := List.mem_iff_getElem?.1 hn
  obtain ⟨j, hj⟩ := List.mem_iff_getElem?.1 hm
  -- a number is the place and one more
  have hij : i = j := by
    have := h.numbered i n hi
    have := h.numbered j m hj
    omega
  rw [hij, hj] at hi
  exact (Option.some.inj hi).symm

/-- The nodes are numbered from one. -/
theorem ids_eq (h : Grown nodes) : nodes.map (·.id) = List.range' 1 nodes.length := by
  apply List.ext_getElem (by simp)
  intro i hi hi'
  rw [List.length_map] at hi
  have := h.numbered i nodes[i] (List.getElem?_eq_getElem hi)
  rw [List.getElem_map, List.getElem_range', this]
  omega

/-- The only link to a node comes from its parent. -/
theorem edge_iff (h : Grown nodes) {n : TraceNode} (hn : n ∈ nodes) {a : Nat} :
    (a, n.id) ∈ edges nodes ↔ n.parentId = some a := by
  rw [edges, List.mem_filterMap]
  constructor
  · rintro ⟨m, hm, hedge⟩
    obtain ⟨p, hp, hpair⟩ := Option.map_eq_some_iff.1 hedge
    rw [Prod.mk.injEq] at hpair
    obtain ⟨rfl, hid⟩ := hpair
    -- the node below the link is the only one with its number
    rw [← h.eq_of_id hm hn hid, hp]
  · intro hparent
    exact ⟨n, hn, by rw [hparent]; rfl⟩

/-- Ancestors have smaller numbers. -/
theorem ancestors_lt (h : Grown nodes) {a id : Nat} (ha : a ∈ ancestors nodes id) : a < id := by
  -- each link leads to a greater number
  have hedge : ∀ p c, (p, c) ∈ edges nodes → p < c := by
    intro p c he
    rw [edges, List.mem_filterMap] at he
    obtain ⟨n, hn, hedge⟩ := he
    obtain ⟨q, hq, hpair⟩ := Option.map_eq_some_iff.1 hedge
    cases hpair
    exact (h.parent_lt n hn p hq).2
  induction ha with
  | single he => exact hedge _ _ he
  | tail _ he ih => exact Nat.lt_trans ih (hedge _ _ he)

/-- There are finitely many of them. -/
theorem finite_ancestors (h : Grown nodes) (id : Nat) : (ancestors nodes id).Finite :=
  (Set.finite_lt_nat id).subset fun _ ha => h.ancestors_lt ha

/-- A node without a parent has none. -/
theorem ancestors_root (h : Grown nodes) {n : TraceNode} (hn : n ∈ nodes)
    (hparent : n.parentId = none) : ancestors nodes n.id = ∅ := by
  refine Set.eq_empty_of_forall_notMem fun a ha => ?_
  obtain ⟨b, -, hedge⟩ := Relation.TransGen.tail'_iff.1 ha
  rw [h.edge_iff hn, hparent] at hedge
  cases hedge

/-- Above a node are its parent and what is above that. -/
theorem ancestors_child (h : Grown nodes) {n : TraceNode} (hn : n ∈ nodes) {p : Nat}
    (hparent : n.parentId = some p) : ancestors nodes n.id = insert p (ancestors nodes p) := by
  ext a
  have hedge : ∀ b, (b, n.id) ∈ edges nodes ↔ b = p := by
    intro b
    rw [h.edge_iff hn, hparent, Option.some.injEq, eq_comm]
  rw [Set.mem_insert_iff]
  constructor
  · intro ha
    -- the last edge of a path to the node comes from its only parent
    obtain ⟨b, hab, hb⟩ := Relation.TransGen.tail'_iff.1 ha
    obtain rfl := (hedge b).1 hb
    exact (Relation.reflTransGen_iff_eq_or_transGen.1 hab).imp Eq.symm id
  · intro ha
    have hap := Relation.reflTransGen_iff_eq_or_transGen.2 (ha.imp Eq.symm id)
    exact Relation.TransGen.tail'_iff.2 ⟨p, hap, (hedge p).2 rfl⟩

/-- A node has one ancestor more than its parent. -/
theorem ncard_child (h : Grown nodes) {n : TraceNode} (hn : n ∈ nodes) {p : Nat}
    (hparent : n.parentId = some p) :
    (ancestors nodes n.id).ncard = (ancestors nodes p).ncard + 1 := by
  rw [h.ancestors_child hn hparent]
  refine Set.ncard_insert_of_notMem (fun hself => ?_) (h.finite_ancestors p)
  exact Nat.lt_irrefl p (h.ancestors_lt hself)

end Grown

/-- A node with the number of its ancestors. -/
noncomputable def withDepth (all : List TraceNode) (n : TraceNode) : Nat × TraceNode :=
  ((ancestors all n.id).ncard, n)

/-- Boundaries are no nodes. -/
theorem node?_boundaries (boundaries : List Boundary) :
    (boundaries.map LogItem.boundary).filterMap LogItem.node? = [] := by
  rw [List.filterMap_map]
  exact List.filterMap_eq_nil_iff.2 fun _ _ => rfl

/-- The log lists the nodes, each with the number of its ancestors, where that number is known of the
nodes before. -/
theorem nodes_logFrom {before nodes : List TraceNode} (h : Grown (before ++ nodes))
    {depths : List (Nat × Nat)} (hdepths : ∀ m ∈ before,
      depths.lookup m.id = some (ancestors (before ++ nodes) m.id).ncard)
    (boundaries : List Boundary) :
    (logFrom depths nodes boundaries).filterMap LogItem.node? =
      nodes.map (withDepth (before ++ nodes)) := by
  induction nodes generalizing before depths boundaries with
  | nil => exact node?_boundaries boundaries
  | cons n nodes ih =>
    have hn : n ∈ before ++ n :: nodes := List.mem_append_right _ List.mem_cons_self
    have hid : n.id = before.length + 1 := h.numbered before.length n (by simp)
    have hdepth : depthOf depths n = (ancestors (before ++ n :: nodes) n.id).ncard := by
      cases hparent : n.parentId with
      | none =>
        rw [h.ancestors_root hn hparent, Set.ncard_empty, depthOf, hparent]
        rfl
      | some p =>
        obtain ⟨hpos, hlt⟩ := h.parent_lt n hn p hparent
        -- the parent is the node with its number, and that one stands before
        have hplace : p - 1 < before.length := by omega
        have hm : (before ++ n :: nodes)[p - 1]? = some before[p - 1] := by
          rw [List.getElem?_append_left hplace, List.getElem?_eq_getElem hplace]
        have hp : before[p - 1].id = p := by
          rw [h.numbered _ _ hm]
          omega
        have hlookup := hdepths _ (List.getElem_mem hplace)
        rw [hp] at hlookup
        rw [h.ncard_child hn hparent, depthOf, hparent, Option.bind_some, hlookup]
    have hall : before ++ n :: nodes = (before ++ [n]) ++ nodes := by simp
    rw [logFrom]
    simp only [List.filterMap_cons, List.filterMap_append, LogItem.node?, List.cons_append]
    rw [node?_boundaries, List.nil_append, List.map_cons, withDepth, hdepth]
    refine congrArg _ ?_
    rw [hall]
    refine ih (hall ▸ h) (fun m hm => ?_) _
    rw [List.mem_append, List.mem_singleton] at hm
    rcases hm with hm | rfl
    · have hne : m.id ≠ n.id := by
        obtain ⟨i, hi⟩ := List.mem_iff_getElem?.1 hm
        have hi' : i < before.length := (List.getElem?_eq_some_iff.1 hi).1
        have := h.numbered i m (by rw [List.getElem?_append_left hi', hi])
        omega
      rw [List.lookup_cons, beq_eq_false_iff_ne.2 hne, ← hall]
      exact hdepths m hm
    · rw [List.lookup_cons_self]

/-- Nodes are indented by the number of their ancestors. -/
theorem nodes_logItems {nodes : List TraceNode} (h : Grown nodes) (boundaries : List Boundary) :
    (logItems nodes boundaries).filterMap LogItem.node? = nodes.map (withDepth nodes) := by
  rw [logItems, List.filterMap_append, node?_boundaries, List.nil_append]
  exact @nodes_logFrom [] nodes h [] (fun m hm => nomatch hm) _

end Trace

/-! ## The chronicle of a run -/

namespace Shared

/-- What came to the trace and to the boundaries between two states. -/
def added (s s' : Shared) : List Mark :=
  (s'.ledger.trace.toList.drop s.ledger.trace.size).map (fun n => Mark.node n.id) ++
    (s'.ledger.boundaries.toList.drop s.ledger.boundaries.size).map Mark.boundary

/-- What the turns of threads added one after the other. -/
def chronicle : List (ThreadId × Turn) → Shared → List Mark
  | [], _ => []
  | (thread, turn) :: rest, s =>
    match s.step thread turn with
    | none => []
    | some s' => s.added s' ++ chronicle rest s'

/-- The numbers of the nodes. -/
def ids (s : Shared) : List Nat :=
  s.ledger.trace.toList.map (·.id)

/-- A turn adds one node, or one boundary that knows the last node, or nothing. -/
inductive Adds (s s' : Shared) : List Mark → Prop where
  | node (id : Nat) (hids : s'.ids = s.ids ++ [id]) (hid : id = s.ids.length + 1)
      (hboundaries : s'.ledger.boundaries = s.ledger.boundaries) : Adds s s' [.node id]
  | boundary (b : Boundary) (hids : s'.ids = s.ids) (hafter : b.afterNode = s.ids.getLast?)
      (hboundaries : s'.ledger.boundaries = s.ledger.boundaries.push b) : Adds s s' [.boundary b]
  | nothing (hids : s'.ids = s.ids) (hboundaries : s'.ledger.boundaries = s.ledger.boundaries) :
    Adds s s' []

variable {s s' : Shared} {thread : ThreadId} {turn : Turn}

/-- A node that is pushed is the mark that is added. -/
theorem added_of_push {n : TraceNode} (htrace : s'.ledger.trace = s.ledger.trace.push n)
    (hid : n.id = s.ledger.nextId) (hboundaries : s'.ledger.boundaries = s.ledger.boundaries) :
    Adds s s' (s.added s') := by
  -- the trace has one node more, and no boundary
  have hadded : s.added s' = [.node n.id] := by
    rw [added, htrace, hboundaries]
    simp
  rw [hadded]
  refine .node n.id ?_ ?_ hboundaries
  · rw [ids, htrace, Array.toList_push, List.map_append]
    rfl
  · rw [hid, Ledger.nextId, ids, List.length_map, Array.length_toList]

/-- Changing a node without its number adds no mark. -/
theorem added_of_modify {id : Nat} {f : TraceNode → TraceNode}
    (htrace : s'.ledger.trace = s.ledger.trace.modify id f) (hid : ∀ n, (f n).id = n.id)
    (hboundaries : s'.ledger.boundaries = s.ledger.boundaries) : Adds s s' (s.added s') := by
  have hadded : s.added s' = [] := by
    rw [added, htrace, hboundaries]
    simp
  rw [hadded]
  refine .nothing ?_ hboundaries
  rw [ids, ids, htrace, Array.toList_modify]
  -- the numbers stay, place by place
  apply List.ext_getElem?
  intro i
  rw [List.getElem?_map, List.getElem?_map, List.getElem?_modify]
  cases s.ledger.trace.toList[i]? with
  | none => rfl
  | some n =>
    split
    · exact congrArg some (hid n)
    · rfl

/-- Changing neither nodes nor boundaries adds none. -/
theorem added_of_eq (htrace : s'.ledger.trace = s.ledger.trace)
    (hboundaries : s'.ledger.boundaries = s.ledger.boundaries) : Adds s s' (s.added s') := by
  have hadded : s.added s' = [] := by
    rw [added, htrace, hboundaries]
    simp
  rw [hadded]
  exact .nothing (by rw [ids, ids, htrace]) hboundaries

/-- A boundary that is pushed behind the last node is the mark that is added. -/
theorem added_of_mark {b : Boundary} (htrace : s'.ledger.trace = s.ledger.trace)
    (hafter : b.afterNode = s.ledger.trace.back?.map (·.id))
    (hboundaries : s'.ledger.boundaries = s.ledger.boundaries.push b) :
    Adds s s' (s.added s') := by
  have hadded : s.added s' = [.boundary b] := by
    rw [added, htrace, hboundaries]
    simp
  rw [hadded]
  refine .boundary b (by rw [ids, ids, htrace]) ?_ hboundaries
  rw [hafter, ids, List.getLast?_map, Array.getLast?_toList]

/-- What a turn adds. -/
theorem adds (h : s.step thread turn = some s') : Adds s s' (s.added s') := by
  cases taken h with
  | hit now c e => exact added_of_push rfl rfl rfl
  | pending now c => exact added_of_push rfl rfl rfl
  | succeeded now latencyMs output id c outer =>
    obtain ⟨f, htrace, hid, -⟩ := s.ledger.trace_succeed thread now latencyMs id c output
    exact added_of_modify htrace hid rfl
  | failed latencyMs error id c outer =>
    obtain ⟨f, htrace, hid, -⟩ := s.ledger.trace_fail thread latencyMs id error
    exact added_of_modify htrace hid rfl
  | recorded now kind input output => exact added_of_push rfl rfl rfl
  | marked now label domain => exact added_of_mark rfl rfl rfl
  | loaded bundle => exact added_of_eq rfl rfl
  | refused bundle => exact added_of_eq rfl rfl

/-- Numbers go up to the number of nodes. -/
theorem Intact.le_of_mem_ids (hs : s.Intact) {n : Nat} (hn : n ∈ s.ids) : n ≤ s.ids.length := by
  obtain ⟨i, hi⟩ := List.mem_iff_getElem?.1 hn
  rw [ids, List.getElem?_map, Array.getElem?_toList] at hi
  obtain ⟨node, hnode, rfl⟩ := Option.map_eq_some_iff.1 hi
  have hlt : i < s.ledger.trace.size := (Array.getElem?_eq_some_iff.1 hnode).1
  rw [hs.numbered i node hnode, ids, List.length_map, Array.length_toList]
  exact hlt

/-- The chronicle has the nodes and the boundaries that a run adds, in an order in which each
boundary knows the last node before it. -/
theorem chronicle_run (hs : s.Intact) {turns : List (ThreadId × Turn)}
    (h : run turns s = some s') :
    s'.ids = s.ids ++ Mark.nodes (chronicle turns s) ∧
      s'.ledger.boundaries.toList =
        s.ledger.boundaries.toList ++ Mark.boundaries (chronicle turns s) ∧
      Mark.Placed s.ids.getLast? (chronicle turns s) := by
  -- the marks of the first turn stand in front of those of the others
  induction turns generalizing s with
  | nil =>
    cases h
    exact ⟨(List.append_nil _).symm, (List.append_nil _).symm, trivial⟩
  | cons turn rest ih =>
    obtain ⟨thread, turn⟩ := turn
    obtain ⟨s₁, hstep, hrest⟩ := Option.bind_eq_some_iff.1 h
    obtain ⟨hids, hboundaries, hplaced⟩ := ih (hs.step hstep) hrest
    have hchronicle : chronicle ((thread, turn) :: rest) s = s.added s₁ ++ chronicle rest s₁ := by
      rw [chronicle, hstep]
    have hadds := adds hstep
    rw [hchronicle]
    generalize s.added s₁ = marks at hadds
    -- a turn adds a node, a boundary or nothing
    cases hadds with
    | node id hids₁ hid hboundaries₁ =>
      rw [hids₁, List.getLast?_append, List.getLast?_singleton, Option.some_or] at hplaced
      refine ⟨?_, ?_, ?_, hplaced⟩
      · rw [hids, hids₁, List.append_assoc]
        rfl
      · rw [hboundaries, hboundaries₁]
        rfl
      · intro n hn
        have := hs.le_of_mem_ids (List.mem_of_getLast? hn)
        omega
    | boundary b hids₁ hafter hboundaries₁ =>
      rw [hids₁] at hplaced
      refine ⟨?_, ?_, hafter, hplaced⟩
      · rw [hids, hids₁]
        rfl
      · rw [hboundaries, hboundaries₁, Array.toList_push, List.append_assoc]
        rfl
    | nothing hids₁ hboundaries₁ =>
      rw [hids₁] at hplaced
      exact ⟨by rw [hids, hids₁]; rfl, by rw [hboundaries, hboundaries₁]; rfl, hplaced⟩

/-! ## Parents -/

/-- A turn gives a new node a parent that has a number. -/
theorem parent_pos_step (hs : s.Intact) (h : s.step thread turn = some s')
    (hpos : ∀ n ∈ s.ledger.trace, ∀ p, n.parentId = some p → 0 < p) :
    ∀ n ∈ s'.ledger.trace, ∀ p, n.parentId = some p → 0 < p := by
  intro n hn p hp
  -- a turn pushes a node, changes one in place, or leaves the trace alone
  obtain ⟨new, -, ht, -, hparent⟩ | ⟨id, f, -, -, ht, -, hparent⟩ | ⟨-, ht⟩ := (step_cases h).1
  · rw [ht, Array.mem_push] at hn
    rcases hn with hn | rfl
    · exact hpos n hn p hp
    · rw [hparent, hs.innermost_eq] at hp
      exact (hs.innermost_le hp).1
  · rw [ht] at hn
    obtain ⟨i, hi⟩ := Array.mem_iff_getElem?.1 hn
    rw [Array.getElem?_modify] at hi
    split at hi
    · obtain ⟨old, hold, rfl⟩ := Option.map_eq_some_iff.1 hi
      rw [hparent] at hp
      exact hpos old (Array.mem_of_getElem? hold) p hp
    · exact hpos n (Array.mem_of_getElem? hi) p hp
  · rw [ht] at hn
    exact hpos n hn p hp

/-- In every run, parents have positive numbers. -/
theorem parent_pos_run (hs : s.Intact) {turns : List (ThreadId × Turn)}
    (h : run turns s = some s') (hpos : ∀ n ∈ s.ledger.trace, ∀ p, n.parentId = some p → 0 < p) :
    ∀ n ∈ s'.ledger.trace, ∀ p, n.parentId = some p → 0 < p := by
  induction turns generalizing s with
  | nil =>
    cases h
    exact hpos
  | cons turn rest ih =>
    obtain ⟨s₁, hstep, hrest⟩ := Option.bind_eq_some_iff.1 h
    exact ih (hs.step hstep) hrest (parent_pos_step hs hstep hpos)

/-- The trace of a new ledger grows node by node under nodes that are there. -/
theorem grown_run {session : String} {config : LedgerConfig} {turns : List (ThreadId × Turn)}
    (h : run turns (.start session config) = some s) : Trace.Grown s.ledger.trace.toList := by
  have hstart : (start session config).Intact := .start session config
  have hs := hstart.run h
  -- there is no node at the start
  have hpos := parent_pos_run hstart h fun n hn => by
    have : n ∈ (#[] : Array TraceNode) := hn
    simp at this
  refine ⟨fun i n hn => hs.numbered i n ?_, fun n hn p hp => ?_⟩
  · rwa [Array.getElem?_toList] at hn
  · rw [Array.mem_toList_iff] at hn
    exact ⟨hpos n hn p hp, hs.parent_lt n hn p hp⟩

end Shared

/-! ## Lines -/

namespace Trace

/-- The word for how a call went. -/
inductive StatusWord (n : TraceNode) : String → Prop
  | error (herror : n.error ≠ none) : StatusWord n "error"
  | hit (herror : n.error = none) (hhit : n.cacheHit = true) : StatusWord n "hit"
  | miss (herror : n.error = none) (hhit : n.cacheHit = false) : StatusWord n "miss"

/-- What comes of a call: an error, or an output if there is one. -/
inductive OutcomeText (n : TraceNode) : String → Prop
  | error {reason} (herror : n.error = some reason) : OutcomeText n (" !! " ++ reason)
  | output {output} (herror : n.error = none) (houtput : n.truncatedOutput = some output) :
    OutcomeText n (" -> " ++ Text.quoted output)
  | nothing (herror : n.error = none) (houtput : n.truncatedOutput = none) : OutcomeText n ""

/-- The line for what was added.  That of a node has two spaces for each of its ancestors, its number,
what was called, in which domain and how it went, the time with one digit, the cost with six, the input,
and what came of it.  That of a boundary has its label and domain. -/
inductive Prints (nodes : List TraceNode) : Mark → String → Prop
  | node {n : TraceNode} {status outcome : String} (hn : n ∈ nodes) (hstatus : StatusWord n status)
    (houtcome : OutcomeText n outcome) :
    Prints nodes (.node n.id)
      (String.ofList (List.replicate (2 * (ancestors nodes n.id).ncard) ' ') ++ "#" ++ toString n.id ++
        " " ++ n.primitive.getD "-" ++ " " ++ n.domain.name ++ " " ++ status ++
        " " ++ Decimal.fixed 1 n.latencyMs ++ "ms $" ++ Decimal.fixed 6 n.estimatedCost ++
        " " ++ Text.quoted n.truncatedInput ++ outcome ++ "\n")
  | boundary {b : Boundary} :
    Prints nodes (.boundary b) ("-- " ++ b.label ++ " [" ++ b.domain.name ++ "] --\n")

/-- The status of a node is the word for it. -/
theorem statusWord (n : TraceNode) : StatusWord n (LogItem.status n) := by
  unfold LogItem.status
  cases herror : n.error with
  | some reason => exact .error (by rw [herror]; exact Option.some_ne_none _)
  | none =>
    cases hhit : n.cacheHit with
    | true => exact .hit herror hhit
    | false => exact .miss herror hhit

/-- The outcome of a node is the text for it. -/
theorem outcomeText (n : TraceNode) : OutcomeText n (LogItem.outcome n) := by
  unfold LogItem.outcome
  cases herror : n.error with
  | some reason => exact .error herror
  | none =>
    cases houtput : n.truncatedOutput with
    | some output => exact .output herror houtput
    | none => exact .nothing herror houtput

/-- What a line of the log looks like, if its node is indented by the number of its ancestors. -/
theorem prints_text {nodes : List TraceNode} {item : LogItem}
    (h : ∀ p ∈ item.node?, p.2 ∈ nodes ∧ p.1 = (ancestors nodes p.2.id).ncard) :
    Prints nodes item.mark item.text := by
  cases item with
  | boundary b => exact .boundary
  | node depth n =>
    obtain ⟨hn, hdepth⟩ := h (depth, n) rfl
    -- the depth in the log is the number of ancestors
    obtain rfl : depth = (ancestors nodes n.id).ncard := hdepth
    have hline := Prints.node hn (statusWord n) (outcomeText n)
    simp only [LogItem.text, LogItem.nodeText, String.intercalate_cons_cons, String.intercalate_singleton,
      String.append_assoc] at hline ⊢
    exact hline

end Trace

/-! ## The log -/

/-- The boundaries of the log are those of its marks. -/
theorem LogItem.boundaries_mark (items : List LogItem) :
    items.filterMap LogItem.boundary? = Mark.boundaries (items.map LogItem.mark) := by
  induction items with
  | nil => rfl
  | cons item rest ih =>
    cases item with
    | node depth n => exact ih
    | boundary b => exact congrArg (b :: ·) ih

/-- In every state that threads can reach, the log consists of lines for nodes and boundaries.  They
stand in the order in which the turns added them, so that each boundary is behind the node that was
last when it was marked and before the next one.  Each node of the trace is listed once, in the order
of the numbers, and indented by the number of its ancestors, and each boundary once, in the order
in which they were marked. -/
theorem log_tells_chronicle {session : String} {config : LedgerConfig}
    {turns : List (ThreadId × Turn)} {s : Shared}
    (h : Shared.run turns (.start session config) = some s) :
    let nodes := s.ledger.trace.toList
    let items := Trace.logItems nodes s.ledger.boundaries.toList
    (∃ lines, s.ledger.log = String.join lines ∧
      List.Forall₂ (Trace.Prints nodes) (Shared.chronicle turns (.start session config)) lines) ∧
      s.ledger.log = String.join (items.map LogItem.text) ∧
      items.map LogItem.mark = Shared.chronicle turns (.start session config) ∧
      items.filterMap LogItem.node? =
        nodes.map (fun n => ((Trace.ancestors nodes n.id).ncard, n)) ∧
      nodes.map (·.id) = List.range' 1 nodes.length ∧
      items.filterMap LogItem.boundary? = s.ledger.boundaries.toList := by
  intro nodes items
  have hgrown : Trace.Grown nodes := Shared.grown_run h
  obtain ⟨hids, hboundaries, hplaced⟩ := Shared.chronicle_run (.start session config) h
  -- the log merges nodes and boundaries again, in the order in which they were placed
  have hmarks : items.map LogItem.mark = Shared.chronicle turns (.start session config) := by
    show (Trace.logItems nodes s.ledger.boundaries.toList).map LogItem.mark = _
    rw [hboundaries]
    exact Trace.marks_logItems hplaced hids
  have hnodes : items.filterMap LogItem.node? =
      nodes.map (fun n => ((Trace.ancestors nodes n.id).ncard, n)) := Trace.nodes_logItems hgrown _
  refine ⟨⟨items.map LogItem.text, rfl, ?_⟩, rfl, hmarks, hnodes, hgrown.ids_eq, ?_⟩
  · -- line by line, each item prints its own mark
    rw [← hmarks, List.forall₂_map_left_iff, List.forall₂_map_right_iff, List.forall₂_same]
    intro item hitem
    refine Trace.prints_text fun p hp => ?_
    have hmem : p ∈ items.filterMap LogItem.node? := List.mem_filterMap.2 ⟨item, hitem, hp⟩
    rw [hnodes] at hmem
    obtain ⟨n, hn, rfl⟩ := List.mem_map.1 hmem
    exact ⟨hn, rfl⟩
  · rw [LogItem.boundaries_mark, hmarks, hboundaries]
    rfl

/-- A pipeline that asks once and fails, while another thread notes a step; boundaries are marked
before all of it, inside and behind. -/
def failedPipeline : List (ThreadId × Turn) :=
  [ (1, .markBoundary default "begin" .hybrid),
    (1, .openCall default { primitive := .pipeCompose, args := .array [.text "seed"] }),
    (1, .openCall default { primitive := .infer, args := .array [.text "seed"] }),
    (2, .markBoundary default "inside" .stochastic),
    (2, .recordStep default "call:f" (.array []) .null),
    (1, .fail 0 "no answer"),
    (1, .fail 0 "no answer"),
    (2, .markBoundary default "end" .deterministic) ]

/-- Its log: the request stands one level inside the pipeline, and boundaries where they were marked. -/
def failedPipelineLog : String :=
  "-- begin [hybrid] --\n" ++
  "#1 pipeCompose hybrid error 0.0ms $0.000000 \"[\\\"seed\\\"]\" !! no answer\n" ++
  "  #2 infer stochastic error 0.0ms $0.000000 \"[\\\"seed\\\"]\" !! no answer\n" ++
  "-- inside [stochastic] --\n" ++
  "#3 call:f deterministic miss 0.0ms $0.000000 \"[]\" -> \"null\"\n" ++
  "-- end [deterministic] --\n"

/-- The log of a pipeline with a call inside that fails, between two boundaries. -/
theorem log_tells_chronicle_failedPipeline :
    ∃ s, Shared.run failedPipeline (.start "" { cacheEnabled := false }) = some s ∧
      s.ledger.log = failedPipelineLog ∧
      (Trace.logItems s.ledger.trace.toList s.ledger.boundaries.toList).map LogItem.mark =
        [ .boundary ⟨"begin", .hybrid, none, (default : Instant).timestamp⟩, .node 1, .node 2,
          .boundary ⟨"inside", .stochastic, some 2, (default : Instant).timestamp⟩, .node 3,
          .boundary ⟨"end", .deterministic, some 3, (default : Instant).timestamp⟩ ] ∧
      s.ledger.trace.toList.map (fun n => (Trace.ancestors s.ledger.trace.toList n.id).ncard) =
        [0, 1, 0] := by
  have hsome : (Shared.run failedPipeline (.start "" { cacheEnabled := false })).isSome = true := rfl
  have hrun := (Option.some_get hsome).symm
  obtain ⟨-, -, hmarks, hnodes, -, -⟩ := log_tells_chronicle hrun
  -- the run is computed, and its log compared with the text
  have hlog : (Shared.run failedPipeline (.start "" { cacheEnabled := false })).map (·.ledger.log) =
      some failedPipelineLog := by decide +kernel
  refine ⟨_, hrun, Option.some.inj ((congrArg (Option.map _) hrun).symm.trans hlog), hmarks, ?_⟩
  have hdepths := congrArg (List.map (·.1)) hnodes
  rw [List.map_map] at hdepths
  exact hdepths.symm

end BrailleScript
