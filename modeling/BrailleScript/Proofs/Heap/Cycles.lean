import Mathlib.Logic.Relation
import BrailleScript.Proofs.Heap.Walks

/-!
# Values that contain themselves

Serializing a value fails just where the value leads to a container that contains itself; that a
container is shared does no harm.  Writing a value never fails: a container that is reached again
inside itself is written as an ellipsis.

`toJson` and `text` carry a bound.  `Serializes` and `Writes` are the same walks without one.  A
derivation is finite, so a walk that has one ends by itself.

## Key results

- `serializes_iff`, `writes_iff`: the walks without a bound end, and with what the functions give
- `Serializes.not_containsItself`, `Serializes.cyclic`: which values are serialized
- `toJson_fails_iff_cyclic`: all heaps and values
-/

namespace BrailleScript

/-- The JSON form of a value that is no container. -/
def Value.plainJson : Value → Json
  | .null => .null
  | .bool b => .bool b
  | .number x => Number.toJson x
  | .text s => .text s
  | v => .text v.plainText

namespace Heap

variable {h : Heap} {within : List Container} {v w : Value} {c d : Container} {depth : Nat}

/-! ## Containers in containers -/

/-- The first container holds the second one directly. -/
def Holds (h : Heap) (c d : Container) : Prop :=
  ∃ v ∈ h.contents c, v.container? = some d

/-- The container contains itself, directly or through others. -/
def ContainsItself (h : Heap) (c : Container) : Prop :=
  Relation.TransGen h.Holds c c

/-- The container is the value itself, or is inside it. -/
def Reaches (h : Heap) (v : Value) (d : Container) : Prop :=
  ∃ c, v.container? = some c ∧ Relation.ReflTransGen h.Holds c d

/-- A container is reached from itself. -/
theorem Reaches.self (hv : v.container? = some c) : h.Reaches v c :=
  ⟨c, hv, .refl⟩

/-- What is inside of the contents of a value is inside the value. -/
theorem Reaches.of_contents (hv : v.container? = some c) (hw : w ∈ h.contents c)
    (hd : h.Reaches w d) : h.Reaches v d := by
  obtain ⟨e, he, hd⟩ := hd
  exact ⟨c, hv, .head ⟨w, hw, he⟩ hd⟩

/-! ## Lists of walks -/

section Lists

variable {α β : Type} {f : α → Except Cause β} {g : α → β}

/-- A list whose entries all succeed gives the list of their results. -/
theorem mapM_of_ok {l : List α} (hf : ∀ a ∈ l, f a = .ok (g a)) : l.mapM f = .ok (l.map g) := by
  induction l with
  | nil => rfl
  | cons a l ih =>
    rw [List.forall_mem_cons] at hf
    rw [List.mapM_cons, hf.1, ih hf.2]
    rfl

/-- The first item that fails decides. -/
theorem mapM_of_error {before after : List α} {a : α} {e : Cause}
    (hbefore : ∀ b ∈ before, f b = .ok (g b)) (ha : f a = .error e) :
    (before ++ a :: after).mapM f = .error e := by
  induction before with
  | nil =>
    rw [List.nil_append, List.mapM_cons, ha]
    rfl
  | cons b before ih =>
    rw [List.forall_mem_cons] at hbefore
    rw [List.cons_append, List.mapM_cons, hbefore.1, ih hbefore.2]
    rfl

/-- Either no item fails, or there is a first one that does. -/
theorem ok_or_first_error [Inhabited β] (f : α → Except Cause β) (l : List α) :
    ∃ g : α → β, (∀ a ∈ l, f a = .ok (g a)) ∨
      ∃ before a after e, l = before ++ a :: after ∧ (∀ b ∈ before, f b = .ok (g b)) ∧
        f a = .error e := by
  refine ⟨fun a => (f a).toOption.getD default, ?_⟩
  induction l with
  | nil => exact .inl (List.forall_mem_nil _)
  | cons a l ih =>
    cases ha : f a with
    | error e => exact .inr ⟨[], a, l, e, rfl, List.forall_mem_nil _, ha⟩
    | ok b =>
      have hfirst : f a = .ok ((f a).toOption.getD default) := by rw [ha]; rfl
      -- the first failure is further back, behind one more item that does not fail
      rcases ih with hall | ⟨before, a', after, e, rfl, hbefore, ha'⟩
      · exact .inl (List.forall_mem_cons.2 ⟨hfirst, hall⟩)
      · exact .inr ⟨a :: before, a', after, e, rfl, List.forall_mem_cons.2 ⟨hfirst, hbefore⟩, ha'⟩

/-- Entries are serialized like their values. -/
theorem mapM_entries (f : Value → Except Cause Json) (entries : Fields Value) :
    (entries.mapM fun ((k, v) : String × Value) => (f v).map (k, ·)) =
      (entries.values.mapM f).map (entries.keys.zip ·) := by
  induction entries with
  | nil => rfl
  | cons e rest ih =>
    obtain ⟨k, v⟩ := e
    rw [List.mapM_cons, ih]
    show (do return (← (f v).map (k, ·)) :: (← ((Fields.values rest).mapM f).map _)) =
      ((v :: Fields.values rest).mapM f).map _
    rw [List.mapM_cons]
    -- both sides fail with the value, or go on with the rest
    cases f v with
    | error e => rfl
    | ok j => cases (Fields.values rest).mapM f <;> rfl

end Lists

/-! ## Serializing -/

/-- The JSON form of a container whose contents have the given forms. -/
def jsonOf (h : Heap) : Container → List Json → Json
  | .array _, forms => .array forms
  | .map ref, forms => .object ((h.entries ref).keys.zip forms)
  | .object ref, forms => .object ((h.fields ref).keys.zip forms)

/-- What serializing a value inside the containers `around` comes to.  Contents are serialized one by
one, up to the first that fails. -/
inductive Serializes (h : Heap) : List Container → Value → Except Cause Json → Prop
  | plain {around : List Container} {v : Value} (hv : v.container? = none) :
    Serializes h around v (.ok v.plainJson)
  | again {around : List Container} {v : Value} {c : Container} (hv : v.container? = some c)
    (hin : c ∈ around) : Serializes h around v (.error (.selfContaining .serialize))
  | whole {around : List Container} {v : Value} {c : Container} {forms : Value → Json}
    (hv : v.container? = some c) (hin : c ∉ around)
    (hforms : ∀ w ∈ h.contents c, Serializes h (c :: around) w (.ok (forms w))) :
    Serializes h around v (.ok (h.jsonOf c ((h.contents c).map forms)))
  | fails {around : List Container} {v w : Value} {c : Container} {before after : List Value}
    {e : Cause} {forms : Value → Json} (hv : v.container? = some c) (hin : c ∉ around)
    (hcontents : h.contents c = before ++ w :: after)
    (hforms : ∀ b ∈ before, Serializes h (c :: around) b (.ok (forms b)))
    (hw : Serializes h (c :: around) w (.error e)) : Serializes h around v (.error e)

/-- A value that is no container is serialized as it is. -/
theorem jsonWithin_plain (hv : v.container? = none) (depth : Nat) (within : List Container) :
    h.jsonWithin depth within v = .ok v.plainJson := by
  cases v with
  | array | map | object => cases hv
  | _ => cases depth <;> rfl

/-- A container inside of itself cannot be serialized. -/
theorem jsonWithin_again (hv : v.container? = some c) (hin : c ∈ within) (depth : Nat) :
    h.jsonWithin (depth + 1) within v = .error (.selfContaining .serialize) := by
  cases v with
  | array | map | object =>
    cases hv
    exact if_pos hin
  | _ => cases hv

/-- Any other container is serialized by its contents. -/
theorem jsonWithin_contents (hv : v.container? = some c) (hin : c ∉ within) (depth : Nat) :
    h.jsonWithin (depth + 1) within v =
      ((h.contents c).mapM (h.jsonWithin depth (c :: within))).map (h.jsonOf c) := by
  -- maps and objects go over entries, and their contents are the values of these
  have hfields (entries : Fields Value) :
      (entries.mapM fun e => (h.jsonWithin depth (c :: within) e.2).map (e.1, ·)).map Json.object =
      (entries.values.mapM (h.jsonWithin depth (c :: within))).map
        fun forms => .object (entries.keys.zip forms) := by
    refine (congrArg (Except.map Json.object) (mapM_entries _ entries)).trans ?_
    cases entries.values.mapM (h.jsonWithin depth (c :: within)) <;> rfl
  cases v with
  | array ref =>
    cases hv
    exact if_neg hin
  | map ref =>
    cases hv
    exact (if_neg hin).trans (hfields (h.entries ref))
  | object ref =>
    cases hv
    exact (if_neg hin).trans (hfields (h.fields ref))
  | _ => cases hv

/-- A walk with room enough comes to what the walk without a bound comes to. -/
theorem Serializes.jsonWithin_eq {r : Except Cause Json} (hr : h.Serializes within v r)
    (hroom : Room h.containers within depth) : h.jsonWithin depth within v = r := by
  -- by the rules of the walk without a bound; each container inside leaves room for one less
  induction hr generalizing depth with
  | plain hv => exact jsonWithin_plain hv depth _
  | again hv hin =>
    obtain ⟨k, rfl⟩ := hroom.exists_succ
    exact jsonWithin_again hv hin k
  | whole hv hin _ ih =>
    obtain ⟨k, rfl⟩ := hroom.exists_succ
    rw [jsonWithin_contents hv hin,
      mapM_of_ok fun w hw => ih w hw (hroom.inside hin (mem_containers hw))]
    rfl
  | fails hv hin hcontents _ _ ihbefore ihw =>
    obtain ⟨k, rfl⟩ := hroom.exists_succ
    have hmem {w : Value} (hw : w ∈ _ ++ _ :: _) :=
      hroom.inside hin (mem_containers (hcontents ▸ hw))
    rw [jsonWithin_contents hv hin, hcontents,
      mapM_of_error (fun b hb => ihbefore b hb (hmem (List.mem_append_left _ hb)))
        (ihw (hmem (List.mem_append_right _ (.head _))))]
    rfl

/-- The walk without a bound comes to an end. -/
theorem serializes_jsonWithin (hroom : Room h.containers within depth) (v : Value) :
    h.Serializes within v (h.jsonWithin depth within v) := by
  induction depth generalizing within v with
  | zero => exact nomatch hroom.exists_succ
  | succ depth ih =>
    cases hv : v.container? with
    | none =>
      rw [jsonWithin_plain hv]
      exact .plain hv
    | some c =>
      -- a container that is met again ends the walk at once
      by_cases hin : c ∈ within
      · rw [jsonWithin_again hv hin]
        exact .again hv hin
      · rw [jsonWithin_contents hv hin]
        have hinner {w : Value} (hw : w ∈ h.contents c) := ih (hroom.inside hin (mem_containers hw)) w
        obtain ⟨forms, hall | ⟨before, w, after, e, hcontents, hbefore, hw⟩⟩ :=
          -- its contents are all serialized, or a first one fails
          ok_or_first_error (h.jsonWithin depth (c :: within)) (h.contents c)
        · rw [mapM_of_ok hall]
          exact .whole hv hin fun w hw => hall w hw ▸ hinner hw
        · rw [hcontents] at hinner ⊢
          rw [mapM_of_error hbefore hw]
          exact .fails hv hin hcontents
            (fun b hb => hbefore b hb ▸ hinner (List.mem_append_left _ hb))
            (hw ▸ hinner (List.mem_append_right _ (.head _)))

/-- Serializing without a bound ends, and with the JSON form or the failure that `toJson` gives. -/
theorem serializes_iff {r : Except Cause Json} : h.Serializes [] v r ↔ r = h.toJson v := by
  have hroom : Room h.containers [] (h.size + 1) := .start (by simp [length_containers])
  constructor
  · exact fun hr => (hr.jsonWithin_eq hroom).symm
  · rintro rfl
    exact serializes_jsonWithin hroom v

/-! ## Cycles -/

namespace Serializes

variable {j : Json}

/-- A container that is serialized is not one of those around it, and neither is what it holds. -/
theorem of_ok (hr : h.Serializes within v (.ok j)) (hv : v.container? = some c) :
    c ∉ within ∧ ∀ d, h.Holds c d →
      ∃ w i, w.container? = some d ∧ h.Serializes (c :: within) w (.ok i) := by
  cases hr with
  | plain hv' => exact absurd (hv.symm.trans hv') nofun
  | whole hv' hin hforms =>
    obtain rfl := Option.some.inj (hv.symm.trans hv')
    refine ⟨hin, ?_⟩
    rintro d ⟨w, hw, hd⟩
    exact ⟨w, _, hd, hforms w hw⟩

/-- So it is for all that can be reached from a container that is serialized. -/
theorem of_path (hpath : Relation.ReflTransGen h.Holds c d) (hr : h.Serializes within v (.ok j))
    (hv : v.container? = some c) : ∃ inside w i, within ⊆ inside ∧ w.container? = some d ∧
      h.Serializes inside w (.ok i) := by
  induction hpath using Relation.ReflTransGen.head_induction_on generalizing within v j with
  | refl => exact ⟨within, v, j, List.Subset.refl _, hv, hr⟩
  | head hhead _ ih =>
    obtain ⟨w, i, hw, hinner⟩ := (hr.of_ok hv).2 _ hhead
    obtain ⟨inside, w', i', hsub, hw', hlast⟩ := ih hinner hw
    exact ⟨inside, w', i', List.Subset.trans (List.subset_cons_self _ _) hsub, hw', hlast⟩

/-- What is serialized leads to no container that contains itself. -/
theorem not_containsItself (hr : h.Serializes within v (.ok j)) (hd : h.Reaches v d) :
    ¬h.ContainsItself d := by
  intro hcycle
  obtain ⟨c, hv, hpath⟩ := hd
  obtain ⟨inside, w, i, -, hw, hinner⟩ := hr.of_path hpath hv
  obtain ⟨e, hhead, hback⟩ := Relation.TransGen.head'_iff.1 hcycle
  -- once around the cycle, the walk stands inside `d` and at `d` again
  obtain ⟨u, k, hu, hnext⟩ := (hinner.of_ok hw).2 e hhead
  obtain ⟨inside', u', k', hsub, hu', hlast⟩ := hnext.of_path hback hu
  exact (hlast.of_ok hu').1 (hsub (.head _))

/-- A value that is not serialized leads back to a container around it, or to one that contains
itself. -/
theorem cyclic {r : Except Cause Json} {e : Cause} (hr : h.Serializes within v r)
    (he : r = .error e) : e = .selfContaining .serialize ∧
      ∃ d, h.Reaches v d ∧ (d ∈ within ∨ h.ContainsItself d) := by
  induction hr with
  | plain | whole => cases he
  | again hv hin =>
    cases he
    exact ⟨rfl, _, .self hv, .inl hin⟩
  | @fails within v w c before after e' forms hv hin hcontents _ _ _ ihw =>
    cases he
    obtain ⟨hcause, d, hd, hwhere⟩ := ihw rfl
    have hw : w ∈ h.contents c := hcontents ▸ List.mem_append_right _ (.head _)
    refine ⟨hcause, ?_⟩
    obtain ⟨c', hc', hpath⟩ := hd
    -- the way back leads to the container itself, further out, or to a cycle inside
    rcases hwhere with hmem | hcycle
    · rcases List.mem_cons.1 hmem with rfl | hmem
      · exact ⟨d, .self hv, .inr (.head' ⟨w, hw, hc'⟩ hpath)⟩
      · exact ⟨d, .of_contents hv hw ⟨c', hc', hpath⟩, .inl hmem⟩
    · exact ⟨d, .of_contents hv hw ⟨c', hc', hpath⟩, .inr hcycle⟩

end Serializes

/-! ## Writing -/

/-- The text of a value inside the containers `around`.  An array or a map is written as an ellipsis
where it stands inside itself, and nowhere else. -/
inductive Writes (h : Heap) : List Container → Value → String → Prop
  | plain {around : List Container} {v : Value} (harray : ∀ ref, v ≠ .array ref)
    (hmap : ∀ ref, v ≠ .map ref) : Writes h around v v.plainText
  | arrayAgain {around : List Container} {ref : Nat} (hin : .array ref ∈ around) :
    Writes h around (.array ref) "[...]"
  | array {around : List Container} {ref : Nat} {texts : Value → String} (hin : .array ref ∉ around)
    (hitems : ∀ w ∈ h.items ref, Writes h (.array ref :: around) w (texts w)) :
    Writes h around (.array ref)
      ("[" ++ ", ".intercalate ((h.items ref).toList.map texts) ++ "]")
  | mapAgain {around : List Container} {ref : Nat} (hin : .map ref ∈ around) :
    Writes h around (.map ref) "\x7b...\x7d"
  | map {around : List Container} {ref : Nat} {texts : Value → String} (hin : .map ref ∉ around)
    (hentries : ∀ e ∈ h.entries ref, Writes h (.map ref :: around) e.2 (texts e.2)) :
    Writes h around (.map ref)
      ("\x7b" ++ ", ".intercalate ((h.entries ref).map fun (k, w) => k ++ ": " ++ texts w) ++ "\x7d")

/-- A value that is neither an array nor a map has its own text. -/
theorem textWithin_plain (harray : ∀ ref, v ≠ .array ref) (hmap : ∀ ref, v ≠ .map ref) (depth : Nat)
    (within : List Container) : h.textWithin depth within v = v.plainText := by
  cases v with
  | array ref => exact absurd rfl (harray ref)
  | map ref => exact absurd rfl (hmap ref)
  | _ => cases depth <;> rfl

/-- A walk with room enough comes to what the walk without a bound comes to. -/
theorem Writes.textWithin_eq {s : String} (hs : h.Writes within v s)
    (hroom : Room h.containers within depth) : h.textWithin depth within v = s := by
  -- by the rules of the walk without a bound, as for JSON
  induction hs generalizing depth with
  | plain harray hmap => exact textWithin_plain harray hmap depth _
  | arrayAgain hin | mapAgain hin =>
    obtain ⟨k, rfl⟩ := hroom.exists_succ
    exact if_pos hin
  | @array within ref texts hin _ ih =>
    obtain ⟨k, rfl⟩ := hroom.exists_succ
    have hitems : (h.items ref).toList.map (h.textWithin k (.array ref :: within)) =
        (h.items ref).toList.map texts :=
      List.map_congr_left fun w hw =>
        ih w (Array.mem_toList_iff.1 hw) (hroom.inside hin (mem_containers_items hw))
    rw [textWithin, if_neg hin, hitems]
  | @map within ref texts hin _ ih =>
    obtain ⟨k, rfl⟩ := hroom.exists_succ
    have hentries : ((h.entries ref).map fun (n, w) =>
        n ++ ": " ++ h.textWithin k (.map ref :: within) w) =
        (h.entries ref).map fun (n, w) => n ++ ": " ++ texts w :=
      List.map_congr_left fun e he => congrArg (e.1 ++ ": " ++ ·)
        (ih e he (hroom.inside hin (mem_containers_entries he)))
    rw [textWithin, if_neg hin, hentries]

/-- The walk without a bound comes to an end. -/
theorem writes_textWithin (hroom : Room h.containers within depth) (v : Value) :
    h.Writes within v (h.textWithin depth within v) := by
  induction depth generalizing within v with
  | zero => exact nomatch hroom.exists_succ
  | succ depth ih =>
    -- only arrays and maps are walked into; they are new or met again
    cases v with
    | array ref =>
      rw [textWithin]
      split
      · exact .arrayAgain ‹_›
      · rename_i hin
        exact .array hin fun w hw =>
          ih (hroom.inside hin (mem_containers_items (Array.mem_toList_iff.2 hw))) w
    | map ref =>
      rw [textWithin]
      split
      · exact .mapAgain ‹_›
      · rename_i hin
        exact .map hin fun e he =>
          ih (hroom.inside hin (mem_containers_entries he)) e.2
    | _ => exact .plain (by simp) (by simp)

/-- Writing without a bound ends, and with the text that `text` gives. -/
theorem writes_iff {s : String} : h.Writes [] v s ↔ s = h.text v := by
  have hroom : Room h.containers [] (h.size + 1) := .start (by simp [length_containers])
  constructor
  · exact fun hs => (hs.textWithin_eq hroom).symm
  · rintro rfl
    exact writes_textWithin hroom v

/-! ## Both walks -/

/-- Serializing and writing a value end in every heap.  Serializing fails, and then with the failure
of a value that contains itself, just where the value leads to a container that contains itself,
through whatever kinds of containers; sharing one does not matter.  Writing never fails, and shows an
ellipsis just where an array or a map stands inside itself. -/
theorem toJson_fails_iff_cyclic (h : Heap) (v : Value) :
    (∀ r, h.Serializes [] v r ↔ r = h.toJson v) ∧
      (∀ e, h.toJson v = .error e ↔
        e = .selfContaining .serialize ∧ ∃ c, h.Reaches v c ∧ h.ContainsItself c) ∧
      ∀ s, h.Writes [] v s ↔ s = h.text v := by
  refine ⟨fun r => serializes_iff, fun e => ⟨fun he => ?_, ?_⟩, fun s => writes_iff⟩
  · obtain ⟨hcause, d, hd, hwhere⟩ := (serializes_iff.2 he.symm).cyclic rfl
    exact ⟨hcause, d, hd, hwhere.resolve_left List.not_mem_nil⟩
  · rintro ⟨rfl, c, hreach, hcycle⟩
    -- a value that is serialized leads to no cycle
    cases hj : h.toJson v with
    | ok j => exact absurd hcycle ((serializes_iff.2 hj.symm).not_containsItself hreach)
    | error e => rw [((serializes_iff.2 hj.symm).cyclic rfl).1]

/-- An array that holds itself and a map twice: the map alone is serialized. -/
example :
    let h : Heap := { arrays := #[#[.array 0, .map 0], #[.map 0, .map 0]], maps := #[[("k", .null)]] }
    h.toJson (.array 0) = .error (.selfContaining .serialize) ∧
      h.text (.array 0) = "[[...], \x7bk: null\x7d]" ∧
      h.toJson (.array 1) = .ok (.array [.object [("k", .null)], .object [("k", .null)]]) :=
  ⟨rfl, rfl, rfl⟩

end Heap

end BrailleScript
