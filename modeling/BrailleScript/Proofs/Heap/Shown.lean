import BrailleScript.Proofs.Fields
import BrailleScript.Proofs.Heap.Cycles

/-!
# Which containers the text of a value shows

Writing a value goes down through arrays and maps, and a container that is met inside itself is not
gone through again.  Still all containers are looked into that a path through arrays and maps leads
to: a path that comes back to a container can be cut there.

## Key results

- `textReads_iff`: `textReads` finds the containers that such a path leads to
- `stores_setEntry`: what a map holds after an entry was put into it
-/

namespace BrailleScript

/-- The container whose contents are part of the text of the value. -/
def Value.shown? : Value → Option Container
  | .array ref => some (.array ref)
  | .map ref => some (.map ref)
  | _ => none

namespace Heap

variable {h : Heap} {within : List Container} {v w : Value} {c d e : Container} {depth : Nat}

/-- The text of the first container has the contents of the second one in it, at once. -/
def ShowsNext (h : Heap) (c d : Container) : Prop :=
  ∃ v ∈ h.contents c, v.shown? = some d

/-- The text of the value has the contents of the container in it: a path through arrays and maps
leads there. -/
def Shows (h : Heap) (v : Value) (d : Container) : Prop :=
  ∃ c, v.shown? = some c ∧ Relation.ReflTransGen h.ShowsNext c d

/-- What a held value shows is shown by its container. -/
theorem Shows.of_contents (hv : v.shown? = some c) (hw : w ∈ h.contents c) (hd : h.Shows w d) :
    h.Shows v d := by
  obtain ⟨e, he, hd⟩ := hd
  exact ⟨c, hv, .head ⟨w, hw, he⟩ hd⟩

/-! ## Paths that stay outside -/

/-- A path to `d` that does not enter `within`. -/
def ShowsOutside (h : Heap) (within : List Container) : Container → Container → Prop :=
  Relation.ReflTransGen fun c d => h.ShowsNext c d ∧ d ∉ within

/-- A path to another container passes `c` for the last time, or never. -/
theorem ShowsOutside.last_visit (hpath : h.ShowsOutside within e d) (hne : c ≠ d) :
    e ≠ c ∧ h.ShowsOutside (c :: within) e d ∨
      ∃ n, h.ShowsNext c n ∧ n ∉ c :: within ∧ h.ShowsOutside (c :: within) n d := by
  induction hpath using Relation.ReflTransGen.head_induction_on with
  | refl => exact .inl ⟨hne.symm, .refl⟩
  | @head e n hstep _ ih =>
    rcases ih with ⟨hn, hrest⟩ | hlast
    · have hout : n ∉ c :: within := by simp [hn, hstep.2]
      -- the path leaves `c` here for the last time, or it never comes there
      by_cases he : e = c
      · exact .inr ⟨n, he ▸ hstep.1, hout, hrest⟩
      · exact .inl ⟨he, .head ⟨hstep.1, hout⟩ hrest⟩
    · exact .inr hlast

/-! ## The walk -/

/-- A text reads a container when it is the one shown, or read by something it holds. -/
theorem readsWithin_succ (hv : v.shown? = some c) (target : Container) (depth : Nat)
    (within : List Container) :
    h.readsWithin target (depth + 1) within v = true ↔
      c ∉ within ∧ (target = c ∨
        ∃ w ∈ h.contents c, h.readsWithin target depth (c :: within) w = true) := by
  cases v with
  | array ref | map ref =>
    cases hv
    rw [readsWithin]
    simp only [Bool.and_eq_true, Bool.or_eq_true, decide_eq_true_eq, beq_iff_eq, List.any_eq_true]
    rfl
  | _ => cases hv

/-- The text of a value that shows no container reads none. -/
theorem readsWithin_none (hv : v.shown? = none) (target : Container) (depth : Nat)
    (within : List Container) : h.readsWithin target depth within v = false := by
  cases v with
  | array | map => cases hv
  | _ => cases depth <;> rfl

/-- A text reads only containers that it shows. -/
theorem shows_of_readsWithin (hr : h.readsWithin d depth within v = true) : h.Shows v d := by
  -- a container that is read is shown by what holds it
  induction depth generalizing within v with
  | zero => cases v <;> cases hr
  | succ depth ih =>
    cases hv : v.shown? with
    | none => exact absurd (hr.symm.trans (readsWithin_none hv _ _ _)) nofun
    | some c =>
      obtain ⟨-, rfl | ⟨w, hw, hrest⟩⟩ := (readsWithin_succ hv _ _ _).1 hr
      · exact ⟨d, hv, .refl⟩
      · exact .of_contents hv hw (ih hrest)

/-- With room enough, the walk looks into all containers to which a path leads outside of where it
stands. -/
theorem ShowsOutside.readsWithin (hpath : h.ShowsOutside within c d) (hv : v.shown? = some c)
    (hin : c ∉ within) (hroom : Room h.containers within depth) :
    h.readsWithin d depth within v = true := by
  induction depth generalizing within c v with
  | zero => exact nomatch hroom.exists_succ
  | succ depth ih =>
    rw [readsWithin_succ hv]
    refine ⟨hin, ?_⟩
    by_cases hd : d = c
    · exact .inl hd
    · -- what is on the way to it is looked into with less room
      obtain ⟨hne, -⟩ | ⟨n, ⟨w, hw, hn⟩, hout, hrest⟩ := hpath.last_visit (Ne.symm hd)
      · exact absurd rfl hne
      · exact .inr ⟨w, hw, ih hrest hn hout (hroom.inside hin (mem_containers hw))⟩

/-- Writing a value looks into the containers that its text shows, and into no others. -/
theorem textReads_iff : h.textReads d v = true ↔ h.Shows v d := by
  refine ⟨shows_of_readsWithin, ?_⟩
  rintro ⟨c, hv, hpath⟩
  have hout : h.ShowsOutside [] c d :=
    hpath.lift id fun _ _ hstep => ⟨hstep, List.not_mem_nil⟩
  exact hout.readsWithin hv List.not_mem_nil (.start (by simp [length_containers]))

/-! ## Putting an entry into a map -/

/-- The second heap is the first one with the value under the key in the map, and nothing else
changed. -/
structure Stores (h : Heap) (ref : Nat) (key : String) (v : Value) (h' : Heap) : Prop where
  entry : (h'.entries ref).get? key = some v
  otherKeys : ∀ name ≠ key, (h'.entries ref).get? name = (h.entries ref).get? name
  otherMaps : ∀ other ≠ ref, h'.maps[other]? = h.maps[other]?
  arrays : h'.arrays = h.arrays
  objects : h'.objects = h.objects
  made : h'.made = h.made

/-- A set entry is inserted into the entries of its map. -/
theorem entries_setEntry {ref : Nat} (href : ref < h.maps.size) (key : String) (v : Value) :
    (h.setEntry ref key v).entries ref = (h.entries ref).insert key v := by
  simp [entries, setEntry, Array.getElem?_modify, Array.getElem?_eq_getElem href]

/-- Setting an entry stores the value under its key and touches no other container. -/
theorem stores_setEntry {ref : Nat} (href : ref < h.maps.size) (key : String) (v : Value) :
    h.Stores ref key v (h.setEntry ref key v) where
  entry := by rw [entries_setEntry href, Fields.get?_insert_self]
  otherKeys name hne := by rw [entries_setEntry href, Fields.get?_insert_ne hne.symm]
  otherMaps other hne := by rw [setEntry, Array.getElem?_modify, if_neg hne.symm]
  arrays := rfl
  objects := rfl
  made := rfl

end Heap

end BrailleScript
