import BrailleScript.Backend.DryRun
import BrailleScript.Machine.Execution
import BrailleScript.Proofs.Heap.Shown
import BrailleScript.Proofs.Machine.Surroundings
import BrailleScript.Proofs.Node.Writer

/-!
# Putting an entry into a map

The text of the key is made while the map is held.  So an assignment to an item of a map is in
conflict with itself just where the text of the key shows the map, be it that the key is the map or
that the map is somewhere inside the key.  Under every other key the value is stored, and nothing
else changes.

## Key results

- `Run.setItem_map`: what becomes of an entry
- `Run.setItem_conflict`: the assignments that end in a conflict
- `eval_assign_entry`: an assignment expression, after its parts were evaluated
-/

namespace BrailleScript

namespace Run

variable {ref : Nat} {key v : Value} {m : Machine}

/-- Setting an item of a map stores it under the text of the key, unless that text reads the map
itself. -/
theorem setItem_map (ref : Nat) (key v : Value) (m : Machine) :
    setItem (.map ref) key v m =
      if m.heap.textReads (.map ref) key then .error .conflict m
      else .ok () { m with heap := m.heap.setEntry ref (m.heap.text key) v } := by
  unfold setItem
  change (if m.heap.textReads (.map ref) key = true then throwThe Stop .conflict
    else update (·.setEntry ref (m.heap.text key) v) : Run Unit) m = _
  split <;> rfl

/-- An item assignment ends in a conflict just where it is made to a map and the text of the key shows
that map. -/
theorem setItem_conflict {object index : Value} {m' : Machine} :
    setItem object index v m = .error .conflict m' ↔
      m' = m ∧ ∃ ref, object = .map ref ∧ m.heap.Shows index (.map ref) := by
  constructor
  case mp =>
    intro h
    -- only the assignment to a map takes the text of its index while the map is held
    by_cases hmap : ∃ ref, object = .map ref
    · obtain ⟨ref, rfl⟩ := hmap
      rw [setItem_map] at h
      split at h
      case isTrue hreads =>
        cases h
        exact ⟨rfl, ref, rfl, Heap.textReads_iff.1 hreads⟩
      case isFalse => cases h
    · unfold setItem at h
      split at h
      case h_1 ref x =>
        rw [bind_of_ok (show (get : Run Machine) m = .ok m m from rfl)] at h
        cases hslot : slot? x (m.heap.items ref).size with
        | none =>
          simp only [hslot] at h
          cases h
        | some i =>
          simp only [hslot] at h
          cases h
      case h_2 ref => exact absurd ⟨ref, rfl⟩ hmap
      case h_3 => cases h
  case mpr =>
    rintro ⟨rfl, ref, rfl, hshows⟩
    rw [setItem_map, if_pos (Heap.textReads_iff.2 hshows)]

/-- The entry is in conflict with its key, and nothing has changed. -/
theorem setItem_of_shows (h : m.heap.Shows key (.map ref)) (v : Value) :
    setItem (.map ref) key v m = .error .conflict m :=
  setItem_conflict.2 ⟨rfl, ref, rfl, h⟩

/-- The entry is stored under the text of its key. -/
theorem setItem_of_not_shows (h : ¬m.heap.Shows key (.map ref)) (href : ref < m.heap.maps.size)
    (v : Value) :
    ∃ heap, setItem (.map ref) key v m = .ok () { m with heap } ∧
      m.heap.Stores ref (m.heap.text key) v heap := by
  rw [setItem_map, if_neg fun hr => h (Heap.textReads_iff.1 hr)]
  exact ⟨_, rfl, Heap.stores_setEntry href _ v⟩

end Run

/-- An assignment to an item of a map, after its value, the map and the key were evaluated: if the
text of the key shows the map, it ends in a conflict; otherwise it gives the value, which is then in
the map under the text that the key had, and all other keys, containers and variables, the output
and the counters are as before. -/
theorem eval_assign_entry {bound : Nat} {value object index : Node} {m₀ m₁ m₂ m : Machine}
    {v key : Value} {ref : Nat} (hvalue : eval bound value m₀ = .ok v m₁)
    (hobject : eval bound object m₁ = .ok (.map ref) m₂)
    (hindex : eval bound index m₂ = .ok key m) (href : ref < m.heap.maps.size) (pos pos' : Pos) :
    (m.heap.Shows key (.map ref) →
      eval (bound + 1) (.assign (.index object index pos') value pos) m₀ = .error .conflict m) ∧
    (¬m.heap.Shows key (.map ref) →
      ∃ heap, eval (bound + 1) (.assign (.index object index pos') value pos) m₀ =
          .ok v { m with heap } ∧
        m.heap.Stores ref (m.heap.text key) v heap) := by
  have hassign : eval (bound + 1) (.assign (.index object index pos') value pos) m₀ =
      (do Run.located pos (Run.assignTo (eval bound) (.index object index pos') v); return v :
        Run Value) m₁ :=
    Run.bind_of_ok hvalue
  -- the target's parts are evaluated after the value, and then the item is set
  have htarget : Run.assignTo (eval bound) (.index object index pos') v m₁ =
      Run.setItem (.map ref) key v m :=
    (Run.bind_of_ok hobject).trans (Run.bind_of_ok hindex)
  rw [hassign]
  constructor
  · intro hshows
    refine Run.bind_of_error ?_
    rw [Run.located, htarget, Run.setItem_of_shows hshows]
  · -- the text of the key reads other containers only, so the map is free to be changed
    intro hshows
    obtain ⟨heap, hset, hstores⟩ := Run.setItem_of_not_shows hshows href v
    refine ⟨heap, (Run.bind_of_ok (a := ()) ?_).trans rfl, hstores⟩
    rw [Run.located, htarget, hset]

/-- A new map and a text as the key. -/
theorem eval_assign_entry_newMap :
    let m := Machine.fresh {} (Ledger.start "sample" {}) (.dryRun "small" 64) fun n => ⟨n⟩
    let made := (m.heap.newMap []).2
    ∃ heap, eval 2 (.assign (.index (.map []) (.text "k") .start) (.bool true) .start) m =
        .ok (.bool true) { m with heap } ∧
      made.Stores 0 "k" (.bool true) heap := by
  intro m made
  -- a text shows no container
  have hnot : ¬made.Shows (.text "k") (.map 0) := by
    rintro ⟨c, hc, -⟩
    cases hc
  have hvalue : eval 1 (.bool true) m = .ok (.bool true) m := rfl
  have hobject : eval 1 (.map []) m = .ok (.map 0) { m with heap := made } := rfl
  have hindex : eval 1 (.text "k") { m with heap := made } =
      .ok (.text "k") { m with heap := made } := rfl
  exact (eval_assign_entry hvalue hobject hindex Nat.one_pos .start .start).2 hnot

/-- A map with an item under an array that holds it. -/
def heldKey : Node :=
  let m := Node.identifier "m" .start
  .program
    [.declare "m" (some (.map [])) false .start,
     .assign (.index m (.array [m]) .start) (.number 1) .start]

set_option maxRecDepth 1024 in
/-- The program can be written, and every run that has room enough ends in a conflict. -/
theorem execute_heldKey :
    parse heldKey.written = .ok heldKey ∧
      ∀ bound, 4 ≤ bound → ((Machine.fresh {} (Ledger.start "sample" {}) (.dryRun "small" 64)
        fun n => ⟨n⟩).execute bound heldKey).1 = .conflict := by
  refine ⟨rfl, fun bound hbound => ?_⟩
  obtain ⟨k, rfl⟩ : ∃ k, bound = k + 4 := ⟨bound - 4, by omega⟩
  rfl

end BrailleScript
