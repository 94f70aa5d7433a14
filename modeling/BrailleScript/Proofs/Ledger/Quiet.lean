import BrailleScript.Proofs.Ledger.Trace

/-!
# Quiet changes of a ledger

Most of what a run does to its ledger is quiet: it adds nodes and boundaries to the record or
completes them, and leaves the cache alone.  The nodes of calls whose results are kept stay as
they were, but for errors that are added to them.

## Key results

- `Quiet.cache_eq`, `Quiet.config_eq`: the cache and the settings stay
- `Quiet.map_keptNodes`, `Quiet.hasFailed`: so does what matters of the kept nodes
-/

namespace BrailleScript

/-- A call whose results are never kept does not look into the cache. -/
theorem Ledger.openCall_eq_openPending (l : Ledger) (thread : ThreadId) (now : Instant) {c : Call}
    (h : c.primitive.isCacheable = false) :
    l.openCall thread now c = l.openPending thread now c := by
  unfold openCall keeps
  rw [h]
  rfl

/-- A change of the ledger that leaves its cache alone. -/
inductive Ledger.Quiet (l : Ledger) : Ledger → Prop where
  | same : Quiet l l
  | opened (thread : ThreadId) (now : Instant) (c : Call) (h : c.primitive.isCacheable = false) :
    Quiet l (l.openCall thread now c).2
  | succeeded (thread : ThreadId) (now : Instant) (latencyMs : Float) (id : Nat) (c : Call)
      (output : Json) (h : c.primitive.isCacheable = false) :
    Quiet l (l.succeed thread now latencyMs id c output)
  | failed (thread : ThreadId) (latencyMs : Float) (id : Nat) (error : String) :
    Quiet l (l.fail thread latencyMs id error)
  | recorded (thread : ThreadId) (now : Instant) (name : String) (input output : Json) :
    Quiet l (l.recordStep thread now ("call:" ++ name) input output).2
  | marked (now : Instant) (label : String) (domain : Domain) :
    Quiet l (l.markBoundary now label domain).2

namespace Ledger.Quiet

variable {l l' : Ledger}

/-- A quiet change leaves the cache. -/
theorem cache_eq (h : l.Quiet l') : l'.cache = l.cache := by
  cases h with
  | opened thread now c h => rw [openCall_eq_openPending l thread now h]; rfl
  | succeeded thread now latencyMs id c output h =>
    unfold succeed keeps
    dsimp only
    rw [h]
    rfl
  | _ => rfl

/-- It leaves the settings. -/
theorem config_eq (h : l.Quiet l') : l'.config = l.config := by
  cases h with
  | opened thread now c h => rw [openCall_eq_openPending l thread now h]; rfl
  | _ => rfl

/-- It leaves what lasts of the kept nodes. -/
theorem map_keptNodes {γ : Type} {g : TraceNode → γ} (hg : TraceNode.Lasting g)
    (h : l.Quiet l') : l'.keptNodes.map g = l.keptNodes.map g := by
  cases h with
  | same | marked => rfl
  | opened thread now c h =>
    -- the node that is added is not one of a kept call
    rw [openCall_eq_openPending l thread now h, keptNodes_openPending, h]
    exact congrArg _ (List.append_nil _)
  | succeeded thread now latencyMs id c output h => exact l.map_keptNodes_succeed _ _ _ _ _ hg _
  | failed thread latencyMs id error => exact l.map_keptNodes_fail _ _ _ hg _
  | recorded thread now name input output => rw [keptNodes_recordStep]

/-- It leaves their inputs. -/
theorem keptInputs_eq (h : l.Quiet l') : l'.keptInputs = l.keptInputs :=
  h.map_keptNodes fun hash _ => hash

/-- It takes no failure back. -/
theorem hasFailed (h : l.Quiet l') (hf : l.HasFailed) : l'.HasFailed := by
  cases h with
  | same | marked => exact hf
  | opened thread now c h =>
    obtain ⟨n, hn, he⟩ := hf
    refine ⟨n, ?_, he⟩
    rw [openCall_eq_openPending l thread now h, keptNodes_openPending]
    exact List.mem_append_left _ hn
  | succeeded thread now latencyMs id c output h => exact hf.succeed _ _ _ _ _ _
  | failed thread latencyMs id error => exact hf.fail _ _ _ _
  | recorded thread now name input output =>
    unfold HasFailed
    rw [keptNodes_recordStep]
    exact hf

end Ledger.Quiet

end BrailleScript
