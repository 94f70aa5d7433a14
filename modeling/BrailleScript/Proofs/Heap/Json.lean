import BrailleScript.Proofs.Machine.Surroundings

/-!
# Which values have a JSON form

`toJson` fails in one way only: with a value that contains itself.  So it is described by whether
a value has a JSON form (`hasJson`) and by that form (`jsonForm`).

## Key results

- `Heap.jsonWithin_error`: the one failure of a walk over a value
- `Run.json_apply`, `Run.mapM_json_apply`: serializing one or several values in a machine
-/

namespace BrailleScript

namespace Heap

/-- A list that fails does so in the one way that its entries can. -/
private theorem mapM_error {α β : Type} {f : α → Except Cause β} {c : Cause}
    (hf : ∀ a d, f a = .error d → d = c) (l : List α) (d : Cause) (h : l.mapM f = .error d) :
    d = c := by
  induction l with
  | nil => exact nomatch h
  | cons a l ih =>
    rw [List.mapM_cons] at h
    -- the first item that fails decides
    cases ha : f a with
    | error e =>
      rw [ha] at h
      cases h
      exact hf a d ha
    | ok b =>
      cases hl : l.mapM f with
      | error e =>
        rw [ha, hl] at h
        cases h
        exact ih hl
      | ok bs =>
        rw [ha, hl] at h
        exact nomatch h

/-- Changing the result changes no failure. -/
private theorem error_of_map_error {α β : Type} {f : α → β} {x : Except Cause α} {c : Cause}
    (h : x.map f = .error c) : x = .error c := by
  cases x with
  | ok a => exact nomatch h
  | error d =>
    cases h
    rfl

/-- A walk over a value fails only because the value contains itself. -/
theorem jsonWithin_error (h : Heap) (depth : Nat) (within : List Container) (v : Value) (c : Cause)
    (hc : h.jsonWithin depth within v = .error c) : c = .selfContaining .serialize := by
  -- the containers that are open grow as the walk goes down, so they are generalized
  induction depth generalizing within v c with
  | zero => cases v <;> simp_all [jsonWithin]
  | succ depth ih =>
    cases v with
    | array ref =>
      rw [jsonWithin] at hc
      split at hc
      · exact (Except.error.inj hc).symm
      · exact mapM_error (fun v d hd => ih _ v d hd) _ c (error_of_map_error hc)
    | map ref =>
      rw [jsonWithin] at hc
      split at hc
      · exact (Except.error.inj hc).symm
      · exact mapM_error (fun p d hd => ih _ p.2 d (error_of_map_error hd)) _ c
          (error_of_map_error hc)
    | object ref cls =>
      rw [jsonWithin] at hc
      split at hc
      · exact (Except.error.inj hc).symm
      · exact mapM_error (fun p d hd => ih _ p.2 d (error_of_map_error hd)) _ c
          (error_of_map_error hc)
    | _ => simp [jsonWithin] at hc

/-- Whether a value has a JSON form. -/
def hasJson (h : Heap) (v : Value) : Bool :=
  match h.toJson v with
  | .ok _ => true
  | .error _ => false

/-- The JSON form of a value that has one. -/
def jsonForm (h : Heap) (v : Value) : Json :=
  match h.toJson v with
  | .ok j => j
  | .error _ => .null

/-- A value is serialized as its JSON form where it has one, and fails for its cycles otherwise. -/
theorem toJson_eq (h : Heap) (v : Value) :
    h.toJson v =
      if h.hasJson v then .ok (h.jsonForm v) else .error (.selfContaining .serialize) := by
  unfold hasJson jsonForm
  cases hv : h.toJson v with
  | ok j => rfl
  | error c => rw [jsonWithin_error h _ _ v c hv]; rfl

end Heap

namespace Run

/-- How serializing a value that contains itself stops a run. -/
def unserializable : Stop :=
  .failed ⟨.selfContaining .serialize, none⟩

/-- Serializing reads the heap and changes nothing. -/
theorem json_apply (v : Value) (m : Machine) :
    json v m = if m.heap.hasJson v then .ok (m.heap.jsonForm v) m else .error unserializable m := by
  show ofExcept (m.heap.toJson v) m = _
  rw [m.heap.toJson_eq]
  split <;> rfl

/-- Serializing many values succeeds when all of them have JSON forms. -/
theorem mapM_json_apply (vs : List Value) (m : Machine) :
    vs.mapM json m =
      if vs.all m.heap.hasJson then .ok (vs.map m.heap.jsonForm) m
      else .error unserializable m := by
  induction vs with
  | nil => rfl
  | cons v vs ih =>
    rw [List.mapM_cons]
    have hv := json_apply v m
    -- the first value without a form fails for all, and serializing changes nothing on the way
    cases hh : m.heap.hasJson v with
    | false =>
      rw [hh] at hv
      rw [bind_of_error hv]
      simp [hh]
    | true =>
      rw [hh] at hv
      rw [bind_of_ok hv]
      cases hr : vs.all m.heap.hasJson with
      | false =>
        rw [hr] at ih
        rw [bind_of_error ih]
        simp [hh, hr]
      | true =>
        rw [hr] at ih
        rw [bind_of_ok ih]
        simp only [List.all_cons, hh, hr, Bool.and_self, ↓reduceIte, List.map_cons]
        rfl

end Run

end BrailleScript
