import Mathlib.Data.List.Perm.Subperm
import BrailleScript.Heap.Equality
import BrailleScript.Heap.Json
import BrailleScript.Scope

/-!
# Walks over values end

Writing and serializing values go down through containers, which may contain themselves.
A walk never enters a container twice on one path, and there are only so many containers with
anything in them, so the bound that a walk carries is never what ends it: with any larger bound the
walk gives the same.  Likewise a walk outward through scopes ends because parents come first.

## Key results

- `walk_induction`: going down while the path consists of distinct members of a list
- `Heap.textWithin_eq`, `Heap.readsWithin_eq`, `Heap.jsonWithin_eq`: larger bounds change nothing
- `Scopes.findFrom_eq`: neither do more steps outward
-/

namespace BrailleScript

/-! ## Walks with room -/

/-- A walk that stands inside the distinct members `within` of `all` can go down to all others. -/
structure Room {κ : Type} (all within : List κ) (depth : Nat) : Prop where
  nodup : within.Nodup
  subset : within ⊆ all
  length_lt : all.length < within.length + depth

namespace Room

variable {κ : Type} {all within : List κ} {depth : Nat}

/-- At the start of a walk there is room when it may go deeper than there are containers. -/
theorem start (hd : all.length < depth) : Room all [] depth :=
  ⟨.nil, List.nil_subset _, by simpa using hd⟩

/-- Where there is room the walk may go on. -/
theorem exists_succ (hroom : Room all within depth) : ∃ d, depth = d + 1 := by
  have hle := (hroom.nodup.subperm hroom.subset).length_le
  have hlt := hroom.length_lt
  exact ⟨depth - 1, by omega⟩

/-- Going inside of a container leaves room for the others. -/
theorem inside {k : κ} (hroom : Room all within (depth + 1)) (hin : k ∉ within) (hk : k ∈ all) :
    Room all (k :: within) depth where
  nodup := List.nodup_cons.2 ⟨hin, hroom.nodup⟩
  subset := List.cons_subset.2 ⟨hk, hroom.subset⟩
  length_lt := by
    have hlt := hroom.length_lt
    rw [List.length_cons]
    omega

end Room

/-- Two walks with room of different bounds, each step of which enters a member of `all` that it is not
inside of: what holds of a step if it holds further down holds of both walks. -/
theorem walk_induction {κ σ : Type} {all : List κ} {motive : Nat → Nat → List κ → σ → Prop}
    (step : ∀ d d' within x,
      (∀ k ∈ all, k ∉ within → ∀ y, motive d d' (k :: within) y) → motive (d + 1) (d' + 1) within x)
    {within : List κ} {d d' : Nat} (hroom : Room all within d) (hroom' : Room all within d') (x : σ) :
    motive d d' within x := by
  induction d generalizing d' within x with
  | zero => exact nomatch hroom.exists_succ
  | succ d ih =>
    obtain ⟨k, rfl⟩ := hroom'.exists_succ
    exact step d k within x fun c hc hin y => ih (hroom.inside hin hc) (hroom'.inside hin hc) y

namespace Heap

variable {h : Heap} {depth : Nat}

/-- All containers of a heap. -/
def containers (h : Heap) : List Container :=
  (List.range h.arrays.size).map .array ++ (List.range h.maps.size).map .map ++
    (List.range h.objects.size).map .object

/-- There are as many containers as the size of the heap says. -/
theorem length_containers (h : Heap) : h.containers.length = h.size := by
  simp only [containers, size, List.length_append, List.length_map, List.length_range]

/-- A container that holds something is one of the heap's. -/
theorem mem_containers {c : Container} {v : Value} (hv : v ∈ h.contents c) :
    c ∈ h.containers := by
  have hlt {α : Type} {xs : Array α} {i : Nat} (hi : xs[i]? ≠ none) : i < xs.size :=
    Nat.lt_of_not_le fun hle => hi (Array.getElem?_eq_none hle)
  simp only [containers, List.mem_append, List.mem_map, List.mem_range]
  -- a container that is not there has no contents
  cases c with
  | array ref =>
    refine .inl (.inl ⟨ref, hlt fun hn => ?_, rfl⟩)
    simp [contents, items, hn] at hv
  | map ref =>
    refine .inl (.inr ⟨ref, hlt fun hn => ?_, rfl⟩)
    simp [contents, entries, hn, Fields.values] at hv
  | object ref =>
    refine .inr ⟨ref, hlt fun hn => ?_, rfl⟩
    simp [contents, fields, hn, Fields.values] at hv

/-- An array with an item is one of them. -/
theorem mem_containers_items {ref : Nat} {v : Value} (hv : v ∈ (h.items ref).toList) :
    Container.array ref ∈ h.containers :=
  mem_containers hv

/-- A map with an entry is one of them. -/
theorem mem_containers_entries {ref : Nat} {e : String × Value} (he : e ∈ h.entries ref) :
    Container.map ref ∈ h.containers :=
  mem_containers (List.mem_map.2 ⟨e, he, rfl⟩)

/-- An object with a field is one of them. -/
theorem mem_containers_fields {ref : Nat} {e : String × Value} (he : e ∈ h.fields ref) :
    Container.object ref ∈ h.containers :=
  mem_containers (List.mem_map.2 ⟨e, he, rfl⟩)

/-- What two walks with bounds above the number of containers have in common. -/
theorem walk {motive : Nat → Nat → List Container → Value → Prop} (hd : h.size < depth)
    (step : ∀ d d' within v,
      (∀ c ∈ h.containers, c ∉ within → ∀ w, motive d d' (c :: within) w) →
        motive (d + 1) (d' + 1) within v) (v : Value) : motive depth (h.size + 1) [] v := by
  refine walk_induction step (.start ?_) (.start ?_) v
  · rwa [length_containers]
  · rw [length_containers]
    exact Nat.lt_succ_self _

/-- The text of a value does not depend on the bound. -/
theorem textWithin_eq (hd : h.size < depth) (v : Value) : h.textWithin depth [] v = h.text v := by
  -- both bounds leave room, so the walks go down together
  refine walk (motive := fun d d' within v => h.textWithin d within v = h.textWithin d' within v)
    hd (fun d d' within v down => ?_) v
  cases v with
  | array ref =>
    rw [textWithin, textWithin]
    split
    · rfl
    · rename_i hin
      congr 3
      exact List.map_congr_left fun w hw => down _ (mem_containers_items hw) hin w
  | map ref =>
    rw [textWithin, textWithin]
    split
    · rfl
    · rename_i hin
      congr 3
      refine List.map_congr_left fun e he => ?_
      exact congrArg (e.1 ++ ": " ++ ·) (down _ (mem_containers_entries he) hin e.2)
  | _ => rfl

/-- Tests that agree on a list find the same there. -/
theorem any_congr {α : Type} {f g : α → Bool} {l : List α} (hfg : ∀ a ∈ l, f a = g a) :
    l.any f = l.any g := by
  induction l with
  | nil => rfl
  | cons a l ih =>
    rw [List.any_cons, List.any_cons, hfg a (.head _), ih fun b hb => hfg b (.tail _ hb)]

/-- Neither does the list of containers that writing it looks into. -/
theorem readsWithin_eq (hd : h.size < depth) (target : Container) (v : Value) :
    h.readsWithin target depth [] v = h.textReads target v := by
  -- both bounds leave room, so the walks go down together
  refine walk
    (motive := fun d d' within v => h.readsWithin target d within v = h.readsWithin target d' within v)
    hd (fun d d' within v down => ?_) v
  cases v with
  | array ref =>
    rw [readsWithin, readsWithin]
    by_cases hin : Container.array ref ∈ within
    · simp only [hin, not_true_eq_false, decide_false, Bool.false_and]
    · rw [any_congr fun w hw => down _ (mem_containers_items hw) hin w]
  | map ref =>
    rw [readsWithin, readsWithin]
    by_cases hin : Container.map ref ∈ within
    · simp only [hin, not_true_eq_false, decide_false, Bool.false_and]
    · rw [any_congr fun w (hw : w ∈ (h.entries ref).values) => down _ (mem_containers hw) hin w]
  | _ => rfl

/-- Steps that agree on a list do the same there. -/
theorem mapM_congr {α β : Type} {f g : α → Except Cause β} {l : List α}
    (hfg : ∀ a ∈ l, f a = g a) : l.mapM f = l.mapM g := by
  induction l with
  | nil => rfl
  | cons a l ih =>
    rw [List.mapM_cons, List.mapM_cons, hfg a (.head _), ih fun b hb => hfg b (.tail _ hb)]

/-- The JSON form of a value does not depend on the bound. -/
theorem jsonWithin_eq (hd : h.size < depth) (v : Value) :
    h.jsonWithin depth [] v = h.toJson v := by
  -- both bounds leave room, so the walks go down together
  refine walk (motive := fun d d' within v => h.jsonWithin d within v = h.jsonWithin d' within v)
    hd (fun d d' within v down => ?_) v
  cases v with
  | array ref =>
    rw [jsonWithin, jsonWithin]
    split
    · rfl
    · rename_i hin
      rw [mapM_congr fun w hw => down _ (mem_containers_items hw) hin w]
  | map ref =>
    rw [jsonWithin, jsonWithin]
    split
    · rfl
    · rename_i hin
      refine congrArg _ (mapM_congr fun e he => ?_)
      exact congrArg (Except.map (e.1, ·)) (down _ (mem_containers_entries he) hin e.2)
  | object ref c =>
    rw [jsonWithin, jsonWithin]
    split
    · rfl
    · rename_i hin
      refine congrArg _ (mapM_congr fun e he => ?_)
      exact congrArg (Except.map (e.1, ·)) (down _ (mem_containers_fields he) hin e.2)
  | _ => simp only [jsonWithin]

end Heap

namespace Scopes

/-- A name is found, or not, in at most as many steps outward as there are scopes before it. -/
theorem findFrom_eq (s : Scopes) (name : String) {steps : Nat} {id : ScopeId} (h : id < steps) :
    s.findFrom name steps id = s.find? id name := by
  -- parents are older scopes, so each step outward leaves fewer of them
  have hmore (n k id : Nat) (hn : id < n) (hk : id < k) :
      s.findFrom name n id = s.findFrom name k id := by
    induction n generalizing k id with
    | zero => omega
    | succ n ih =>
      obtain ⟨k, rfl⟩ : ∃ j, k = j + 1 := ⟨k - 1, by omega⟩
      rw [findFrom, findFrom]
      split
      · rfl
      · split
        · rename_i p hp
          have hlt : p < id := parent?_lt hp
          exact ih k p (Nat.lt_of_lt_of_le hlt (Nat.le_of_lt_succ hn))
            (Nat.lt_of_lt_of_le hlt (Nat.le_of_lt_succ hk))
        · rfl
  exact hmore steps (id + 1) id h (Nat.lt_succ_self id)

end Scopes

end BrailleScript
