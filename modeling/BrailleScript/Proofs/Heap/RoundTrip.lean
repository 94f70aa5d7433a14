import BrailleScript.Proofs.Decimal.Whole
import BrailleScript.Proofs.Fields
import BrailleScript.Proofs.Heap.Comparison

/-!
# Serialising data and reading it back

Data is what is built from null, booleans, finite numbers and texts by arrays and maps, with no
container inside itself.  It has a JSON form, and reading that form makes a copy in containers of its
own that equals the data.  Containers that the data shares are copied once for each place, and what
was in the heap before stays as it was.

## Key results

- `data_iff`: what data is, without an induction
- `Data.exists_toJson`: data is serialised
- `Serializes.restores`: reading the JSON form makes a copy
- `equal_ofJson_toJson`: data, serialised and read back, equals itself
-/

namespace BrailleScript

namespace Heap

variable {h g : Heap} {u v w : Value} {c d : Container} {j : Json}

/-! ## Data -/

/-- Data, in containers that are there; the entries of maps are in order. -/
inductive Data (h : Heap) : Value → Prop
  | null : Data h .null
  | bool (b : Bool) : Data h (.bool b)
  | number {x : Float} (hx : x.isFinite = true) : Data h (.number x)
  | text (s : String) : Data h (.text s)
  | array {ref : Nat} {items : Array Value} (hitems : h.arrays[ref]? = some items)
    (hall : ∀ w ∈ items.toList, Data h w) : Data h (.array ref)
  | map {ref : Nat} {entries : Fields Value} (hentries : h.maps[ref]? = some entries)
    (horder : entries.InOrder) (hall : ∀ w ∈ entries.values, Data h w) : Data h (.map ref)

/-- The items of an array are those that the heap has for it. -/
theorem items_of_getElem? {ref : Nat} {items : Array Value} (hi : h.arrays[ref]? = some items) :
    h.items ref = items := by
  rw [Heap.items, hi, Option.getD_some]

/-- The entries of a map are those that the heap has for it. -/
theorem entries_of_getElem? {ref : Nat} {entries : Fields Value}
    (he : h.maps[ref]? = some entries) : h.entries ref = entries := by
  rw [Heap.entries, he, Option.getD_some]

/-- Going down from data ends. -/
theorem Data.acc (hd : h.Data v) (hv : v.container? = some c) : Acc (fun d c => h.Holds c d) c := by
  -- what a container holds was data before it, so the way down is that of the rules
  induction hd generalizing c with
  | null | bool | number | text => cases hv
  | array hitems _ ih =>
    cases hv
    refine .intro _ fun d hd => ?_
    obtain ⟨w, hw, hwd⟩ := hd
    rw [contents, items_of_getElem? hitems] at hw
    exact ih w hw hwd
  | map hentries _ _ ih =>
    cases hv
    refine .intro _ fun d hd => ?_
    obtain ⟨w, hw, hwd⟩ := hd
    rw [contents, entries_of_getElem? hentries] at hw
    exact ih w hw hwd

/-- What can be taken apart to its end does not contain itself. -/
theorem not_containsItself_of_acc (hc : Acc (fun d c => h.Holds c d) c) : ¬h.ContainsItself c := by
  induction hc with
  | intro c _ ih =>
    intro hcycle
    obtain ⟨d, hhead, hback⟩ := Relation.TransGen.head'_iff.1 hcycle
    -- the next container on the cycle is on it, too
    exact ih d hhead (Relation.TransGen.tail' hback hhead)

/-- Data reaches no container that contains itself. -/
theorem Data.not_containsItself (hd : h.Data v) (hc : h.Reaches v c) : ¬h.ContainsItself c := by
  obtain ⟨b, hv, hpath⟩ := hc
  refine not_containsItself_of_acc ?_
  induction hpath with
  | refl => exact hd.acc hv
  | tail _ hlast ih => exact ih.inv hlast

/-- Data is serialised. -/
theorem Data.exists_toJson (hd : h.Data v) : ∃ j, h.toJson v = .ok j := by
  cases hj : h.toJson v with
  | ok j => exact ⟨j, rfl⟩
  | error e =>
    obtain ⟨-, c, hc, hwhere⟩ := (serializes_iff.2 hj.symm).cyclic rfl
    exact absurd (hwhere.resolve_left List.not_mem_nil) (hd.not_containsItself hc)

/-- A value that is data if its contents are. -/
def IsData (h : Heap) : Value → Prop
  | .null | .bool _ | .text _ => True
  | .number x => x.isFinite = true
  | .array ref => ref < h.arrays.size
  | .map ref => ref < h.maps.size ∧ (h.entries ref).InOrder
  | _ => False

/-- The value itself, or a value in a container that it reaches. -/
def Within (h : Heap) (v w : Value) : Prop :=
  w = v ∨ ∃ c, h.Reaches v c ∧ w ∈ h.contents c

/-- What is within the contents is within the container. -/
theorem Within.of_contents (hv : v.container? = some c) (hu : u ∈ h.contents c)
    (hw : h.Within u w) : h.Within v w := by
  rcases hw with rfl | ⟨d, hd, hw⟩
  · exact .inr ⟨c, .self hv, hu⟩
  · exact .inr ⟨d, .of_contents hv hu hd, hw⟩

/-- What is within a container is the container, or is within something that it holds. -/
theorem Within.cases (hv : v.container? = some c) (hw : h.Within v w) :
    w = v ∨ ∃ u ∈ h.contents c, h.Within u w := by
  refine hw.imp_right ?_
  rintro ⟨d, ⟨b, hb, hpath⟩, hw⟩
  obtain rfl := Option.some.inj (hv.symm.trans hb)
  obtain rfl | ⟨e, ⟨u, hu, he⟩, hrest⟩ := hpath.cases_head
  · exact ⟨w, hw, .inl rfl⟩
  · exact ⟨u, hu, .inr ⟨d, ⟨e, he, hrest⟩, hw⟩⟩

/-- Everything within data is data. -/
theorem Data.isData (hd : h.Data v) (hw : h.Within v w) : h.IsData w := by
  -- a plain value has nothing within but itself
  induction hd with
  | null | bool | text =>
    obtain rfl : w = _ := hw.resolve_right fun ⟨_, ⟨_, hc, _⟩, _⟩ => nomatch hc
    trivial
  | number hx =>
    obtain rfl : w = _ := hw.resolve_right fun ⟨_, ⟨_, hc, _⟩, _⟩ => nomatch hc
    exact hx
  | @array ref items hitems _ ih =>
    rcases hw.cases (c := .array ref) rfl with rfl | ⟨u, hu, hw⟩
    · exact (Array.getElem?_eq_some_iff.1 hitems).1
    · rw [contents, items_of_getElem? hitems] at hu
      exact ih u hu hw
  | @map ref entries hentries horder _ ih =>
    rcases hw.cases (c := .map ref) rfl with rfl | ⟨u, hu, hw⟩
    · exact ⟨(Array.getElem?_eq_some_iff.1 hentries).1, entries_of_getElem? hentries ▸ horder⟩
    · rw [contents, entries_of_getElem? hentries] at hu
      exact ih u hu hw

/-- What is serialised and consists of such values is data. -/
theorem Serializes.data {within : List Container} {r : Except Cause Json}
    (hr : h.Serializes within v r) (hj : r = .ok j) (hall : ∀ w, h.Within v w → h.IsData w) :
    h.Data v := by
  have hv := hall v (.inl rfl)
  -- a walk that succeeds has visited all contents, and these are data by induction
  induction hr generalizing j with
  | @plain _ v hplain =>
    cases v with
    | null => exact .null
    | bool b => exact .bool b
    | number x => exact .number hv
    | text s => exact .text s
    -- functions, builtins and classes have a JSON form, but are excluded here
    | array | map | object => cases hplain
    | function | builtin | classValue => exact hv.elim
  | again | fails => cases hj
  | @whole _ v c forms hc _ _ ih =>
    have hcontents : ∀ w ∈ h.contents c, h.Data w := fun w hw =>
      ih w hw rfl (fun u hu => hall u (hu.of_contents hc hw)) (hall w (.of_contents hc hw (.inl rfl)))
    cases v with
    | array ref =>
      cases hc
      obtain ⟨items, hitems⟩ : ∃ items, h.arrays[ref]? = some items :=
        ⟨_, Array.getElem?_eq_getElem hv⟩
      rw [contents, items_of_getElem? hitems] at hcontents
      exact .array hitems hcontents
    | map ref =>
      cases hc
      obtain ⟨entries, hentries⟩ : ∃ entries, h.maps[ref]? = some entries :=
        ⟨_, Array.getElem?_eq_getElem hv.1⟩
      rw [contents, entries_of_getElem? hentries] at hcontents
      exact .map hentries (entries_of_getElem? hentries ▸ hv.2) hcontents
    | object => exact hv.elim
    | _ => cases hc

/-- Data is what consists of such values, and leads to no container that contains itself. -/
theorem data_iff : h.Data v ↔
    (∀ w, h.Within v w → h.IsData w) ∧ ∀ c, h.Reaches v c → ¬h.ContainsItself c := by
  refine ⟨fun hd => ⟨fun _ => hd.isData, fun _ => hd.not_containsItself⟩, fun ⟨hall, hcycle⟩ => ?_⟩
  cases hj : h.toJson v with
  | ok j => exact (serializes_iff.2 hj.symm).data rfl hall
  | error e =>
    obtain ⟨-, c, hc, hwhere⟩ := (serializes_iff.2 hj.symm).cyclic rfl
    exact absurd (hwhere.resolve_left List.not_mem_nil) (hcycle c hc)

/-! ## Growing heaps -/

/-- Every container is still there and holds what it held. -/
structure Extends (h g : Heap) : Prop where
  arrays {ref : Nat} {items : Array Value} (hi : h.arrays[ref]? = some items) :
    g.arrays[ref]? = some items
  maps {ref : Nat} {entries : Fields Value} (he : h.maps[ref]? = some entries) :
    g.maps[ref]? = some entries
  objects : g.objects = h.objects

/-- A heap extends itself. -/
theorem Extends.refl (h : Heap) : h.Extends h := ⟨id, id, rfl⟩

/-- Extensions follow each other. -/
theorem Extends.trans {f : Heap} (hhg : h.Extends g) (hgf : g.Extends f) : h.Extends f where
  arrays hi := hgf.arrays (hhg.arrays hi)
  maps he := hgf.maps (hhg.maps he)
  objects := hgf.objects.trans hhg.objects

/-- A new entry leaves the old ones in their places. -/
theorem getElem?_push_of_some {α : Type} {xs : Array α} {i : Nat} {a : α} (b : α)
    (hi : xs[i]? = some a) : (xs.push b)[i]? = some a := by
  obtain ⟨hlt, -⟩ := Array.getElem?_eq_some_iff.1 hi
  rw [Array.getElem?_push_lt hlt, ← Array.getElem?_eq_getElem hlt, hi]

/-- A new array extends the heap. -/
theorem extends_newArray (h : Heap) (items : Array Value) : h.Extends (h.newArray items).2 where
  arrays := getElem?_push_of_some items
  maps := id
  objects := rfl

/-- A new map extends the heap. -/
theorem extends_newMap (h : Heap) (entries : Fields Value) : h.Extends (h.newMap entries).2 where
  arrays := id
  maps := getElem?_push_of_some entries
  objects := rfl

/-! ## Copies -/

/-- The values match, item by item and entry by entry. -/
inductive Copies (h : Heap) : Value → Value → Prop
  | plain {v w : Value} (hsame : v.isSame w = true) : Copies h v w
  | array {x y : Nat} {items items' : Array Value} (hx : h.arrays[x]? = some items)
    (hy : h.arrays[y]? = some items') (hlength : items.toList.length = items'.toList.length)
    (hall : ∀ p ∈ items.toList.zip items'.toList, Copies h p.1 p.2) :
    Copies h (.array x) (.array y)
  | map {x y : Nat} {entries entries' : Fields Value} (hx : h.maps[x]? = some entries)
    (hy : h.maps[y]? = some entries') (hkeys : entries.keys = entries'.keys)
    (hall : ∀ p ∈ entries.values.zip entries'.values, Copies h p.1 p.2) :
    Copies h (.map x) (.map y)

/-- A copy stays one while the heap grows. -/
theorem Copies.mono (hc : h.Copies v w) (hext : h.Extends g) : g.Copies v w := by
  induction hc with
  | plain hsame => exact .plain hsame
  | array hx hy hlength _ ih => exact .array (hext.arrays hx) (hext.arrays hy) hlength ih
  | map hx hy hkeys _ ih => exact .map (hext.maps hx) (hext.maps hy) hkeys ih

/-- Values that match pair by pair match down to one depth. -/
theorem exists_alike_depth {l : List (Value × Value)} (hl : ∀ p ∈ l, ∃ n, h.Alike n p.1 p.2) :
    ∃ n, ∀ p ∈ l, h.Alike n p.1 p.2 := by
  induction l with
  | nil => exact ⟨0, List.forall_mem_nil _⟩
  | cons p l ih =>
    rw [List.forall_mem_cons] at hl
    obtain ⟨n, hn⟩ := hl.1
    obtain ⟨m, hm⟩ := ih hl.2
    -- the larger of two depths does for both
    refine ⟨max n m, List.forall_mem_cons.2 ⟨hn.mono (le_max_left n m), fun q hq => ?_⟩⟩
    exact (hm q hq).mono (le_max_right n m)

/-- A copy is equal to what it was made of, down to some depth. -/
theorem Copies.exists_alike (hc : h.Copies v w) : ∃ n, h.Alike n v w := by
  -- the depths of the copies inside have a common bound, and the copy is one deeper
  induction hc with
  | plain hsame => exact ⟨0, .plain (Value.facing?_of_isSame hsame _).1 hsame⟩
  | array hx hy hlength _ ih =>
    obtain ⟨n, hn⟩ := exists_alike_depth ih
    refine ⟨n + 1, .inside rfl ?_ ?_⟩
    · simpa [shape, items_of_getElem? hx, items_of_getElem? hy] using hlength
    · simpa only [contents, items_of_getElem? hx, items_of_getElem? hy] using hn
  | map hx hy hkeys _ ih =>
    obtain ⟨n, hn⟩ := exists_alike_depth ih
    refine ⟨n + 1, .inside rfl ?_ ?_⟩
    · simpa [shape, entries_of_getElem? hx, entries_of_getElem? hy] using hkeys
    · simpa only [contents, entries_of_getElem? hx, entries_of_getElem? hy] using hn

/-- A copy equals what it was made of. -/
theorem Copies.equal (hc : h.Copies v w) : h.equal v w = .ok true :=
  equal_iff_alike.2 hc.exists_alike

/-! ## Reading the JSON form -/

/-- Wherever the heap has grown to, reading the JSON value makes a copy of the value. -/
def Restores (h : Heap) (v : Value) (j : Json) : Prop :=
  ∀ g, h.Extends g → g.Extends (g.ofJson j).2 ∧ (g.ofJson j).2.Copies v (g.ofJson j).1

/-- Finite numbers are read back from their JSON forms. -/
theorem restores_number {x : Float} (hx : x.isFinite = true) :
    h.Restores (.number x) (Number.toJson x) := by
  intro g _
  unfold Number.toJson
  -- whole numbers are written as integers, and the others as floats
  split
  · rename_i hwhole
    exact ⟨.refl g, .plain (Number.ofInt_truncate hwhole)⟩
  · obtain ⟨negative, m, e, hview⟩ := Decimal.Binary.view_of_isFinite hx
    exact ⟨.refl g, .plain (Number.beq_self_of_view hview)⟩

/-- Values are restored one after the other. -/
theorem ofJsonItems_copies {ws : List Value} {forms : Value → Json}
    (hws : ∀ w ∈ ws, h.Restores w (forms w)) (hext : h.Extends g) :
    g.Extends (g.ofJsonItems (ws.map forms)).2 ∧
      List.Forall₂ (g.ofJsonItems (ws.map forms)).2.Copies ws (g.ofJsonItems (ws.map forms)).1 := by
  induction ws generalizing g with
  | nil => exact ⟨.refl g, .nil⟩
  | cons w ws ih =>
    rw [List.forall_mem_cons] at hws
    obtain ⟨hfirst, hcopy⟩ := hws.1 g hext
    -- the heap of the first value is extended by the others
    obtain ⟨hrest, hcopies⟩ := ih hws.2 (hext.trans hfirst)
    exact ⟨hfirst.trans hrest, .cons (hcopy.mono hrest) hcopies⟩

/-- Entries are read like their values. -/
theorem ofJsonFields_zip {ks : List String} {js : List Json} (hlength : ks.length = js.length) :
    g.ofJsonFields (ks.zip js) = (ks.zip (g.ofJsonItems js).1, (g.ofJsonItems js).2) := by
  induction ks generalizing js g with
  | nil =>
    obtain rfl := List.length_eq_zero_iff.1 hlength.symm
    rfl
  | cons k ks ih =>
    cases js with
    | nil => cases hlength
    | cons j js =>
      rw [List.zip_cons_cons, ofJsonFields, ofJsonItems]
      simp only [ih (Nat.succ.inj hlength), List.zip_cons_cons]

/-- An array is read back when its items are. -/
theorem restores_array {ref : Nat} {items : Array Value} {forms : Value → Json}
    (hitems : h.arrays[ref]? = some items) (hall : ∀ w ∈ items.toList, h.Restores w (forms w)) :
    h.Restores (.array ref) (.array (items.toList.map forms)) := by
  intro g hext
  obtain ⟨hmade, hcopies⟩ := ofJsonItems_copies hall hext
  -- the array is made behind its items
  have hpush := extends_newArray (g.ofJsonItems (items.toList.map forms)).2
    (g.ofJsonItems (items.toList.map forms)).1.toArray
  refine ⟨hmade.trans hpush, .array (((hext.trans hmade).trans hpush).arrays hitems)
    Array.getElem?_push_size hcopies.length_eq fun p hp => ?_⟩
  exact ((List.forall₂_iff_zip.1 hcopies).2 hp).mono hpush

/-- A map is read back when its values are. -/
theorem restores_map {ref : Nat} {entries : Fields Value} {forms : Value → Json}
    (hentries : h.maps[ref]? = some entries) (horder : entries.InOrder)
    (hall : ∀ w ∈ entries.values, h.Restores w (forms w)) :
    h.Restores (.map ref) (.object (entries.keys.zip (entries.values.map forms))) := by
  intro g hext
  obtain ⟨hmade, hcopies⟩ := ofJsonItems_copies hall hext
  have hlength : entries.keys.length = entries.values.length := by
    rw [Fields.keys, Fields.values, List.length_map, List.length_map]
  have hforms : entries.keys.length = (entries.values.map forms).length := by
    rw [hlength, List.length_map]
  have hread := ofJsonFields_zip (g := g) hforms
  generalize g.ofJsonItems (entries.values.map forms) = made at hmade hcopies hread
  have hlength' : entries.keys.length = made.1.length := hlength.trans hcopies.length_eq
  have hkeys : Fields.keys (entries.keys.zip made.1) = entries.keys :=
    List.map_fst_zip (Nat.le_of_eq hlength')
  have hvalues : Fields.values (entries.keys.zip made.1) = made.1 :=
    List.map_snd_zip (Nat.le_of_eq hlength'.symm)
  -- the keys come in order, so the map has them in the order they are read
  have hmap : g.ofJson (.object (entries.keys.zip (entries.values.map forms))) =
      made.2.newMap (entries.keys.zip made.1) := by
    have hread_order : Fields.InOrder (entries.keys.zip made.1) := by
      rw [Fields.InOrder.iff_keys, hkeys]
      exact Fields.InOrder.iff_keys.1 horder
    rw [ofJson, hread]
    simp only [hread_order.ofList_eq]
  have hpush := extends_newMap made.2 (entries.keys.zip made.1)
  rw [hmap]
  refine ⟨hmade.trans hpush, .map (((hext.trans hmade).trans hpush).maps hentries)
    Array.getElem?_push_size hkeys.symm fun p hp => ?_⟩
  rw [hvalues] at hp
  exact ((List.forall₂_iff_zip.1 hcopies).2 hp).mono hpush

/-- Reading the JSON form of data makes a copy of the data. -/
theorem Serializes.restores {within : List Container} {r : Except Cause Json}
    (hr : h.Serializes within v r) (hj : r = .ok j) (hd : h.Data v) : h.Restores v j := by
  -- the form of data is read back as a copy, where each container takes new places in the heap
  induction hr generalizing j with
  | plain hv =>
    cases hj
    cases hd with
    | null => exact fun g _ => ⟨.refl g, .plain rfl⟩
    | bool b => exact fun g _ => ⟨.refl g, .plain (beq_self_eq_true b)⟩
    | number hx => exact restores_number hx
    | text s => exact fun g _ => ⟨.refl g, .plain (beq_self_eq_true s)⟩
    | array | map => cases hv
  | again | fails => cases hj
  | whole hv _ _ ih =>
    cases hj
    cases hd with
    | null | bool | number | text => cases hv
    | array hitems hall =>
      cases hv
      simp only [contents, jsonOf, items_of_getElem? hitems] at ih ⊢
      exact restores_array hitems fun w hw => ih w hw rfl (hall w hw)
    | map hentries horder hall =>
      cases hv
      simp only [contents, jsonOf, entries_of_getElem? hentries] at ih ⊢
      exact restores_map hentries horder fun w hw => ih w hw rfl (hall w hw)

/-- Data, serialised and read back, equals itself, in the heap that has grown by the copy. -/
theorem equal_ofJson_toJson {h : Heap} {v : Value} (hd : h.Data v) :
    ∃ j, h.toJson v = .ok j ∧ h.Extends (h.ofJson j).2 ∧
      (h.ofJson j).2.equal v (h.ofJson j).1 = .ok true := by
  obtain ⟨j, hj⟩ := hd.exists_toJson
  obtain ⟨hext, hcopy⟩ := (serializes_iff.2 hj.symm).restores rfl hd h (.refl h)
  exact ⟨j, hj, hext, hcopy.equal⟩

/-- An array that holds one map twice. -/
theorem equal_ofJson_toJson_shared :
    let h : Heap :=
      { arrays := #[#[.number 1.5, .map 0, .map 0]], maps := #[[("k", .number 3), ("l", .null)]] }
    ∃ j, h.toJson (.array 0) = .ok j ∧ h.Extends (h.ofJson j).2 ∧
      (h.ofJson j).2.equal (.array 0) (h.ofJson j).1 = .ok true := by
  intro h
  have hmap : h.Data (.map 0) := by
    have hentries : h.maps[0]? = some [("k", .number 3), ("l", .null)] := rfl
    refine .map hentries ?_ ?_
    · exact List.pairwise_pair.2 (by decide)
    · simpa [Fields.values] using ⟨Data.number (h := h) (x := 3) (by decide), .null⟩
  have hitems : ∀ w ∈ [Value.number 1.5, .map 0, .map 0], h.Data w := by
    simpa using ⟨Data.number (h := h) (x := 1.5) (by decide), hmap⟩
  exact equal_ofJson_toJson (.array rfl hitems)

end Heap

end BrailleScript
