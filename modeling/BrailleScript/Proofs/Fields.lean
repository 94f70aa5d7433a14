import BrailleScript.Fields

/-!
# Looking up fields

What `get?` finds after entries were inserted or removed, and that `insert` keeps the order of the
keys.

## Key results

- `get?_insert`, `get?_filter_keys`: looking up after a change
- `InOrder.insert`, `InOrder.filter`: changes keep the order of the keys
- `InOrder.values_insert`: what the values are after one was inserted
- `InOrder.ofList_eq`: entries that are in order are not moved
- `get?_mapValues`, `mapValues_insert`: changing all values
-/

namespace BrailleScript.Fields

variable {α : Type}

/-- The keys are in increasing order, each key once. -/
def InOrder (fields : Fields α) : Prop :=
  fields.Pairwise fun a b => a.1 < b.1

/-- An inserted key is found with its value, and every other key as before. -/
theorem get?_insert (key name : String) (value : α) (fields : Fields α) :
    (fields.insert key value).get? name = if key = name then some value else fields.get? name := by
  induction fields with
  | nil => rfl
  | cons entry rest ih =>
    obtain ⟨k, v⟩ := entry
    unfold insert
    split
    · rfl
    · split
      · rename_i hk
        subst hk
        simp only [get?]
        split <;> rfl
      · rename_i hk
        simp only [get?]
        rw [ih]
        -- the first key is found before the inserted one, which stands further on
        by_cases hn : k = name
        · rw [if_pos hn, if_neg (fun h => hk (hn.trans h.symm)), if_pos hn]
        · rw [if_neg hn, if_neg hn]

/-- The inserted key is found with its value. -/
theorem get?_insert_self (key : String) (value : α) (fields : Fields α) :
    (fields.insert key value).get? key = some value := by
  rw [get?_insert, if_pos rfl]

/-- Every other key is found as before. -/
theorem get?_insert_ne {key name : String} (h : key ≠ name) (value : α) (fields : Fields α) :
    (fields.insert key value).get? name = fields.get? name := by
  rw [get?_insert, if_neg h]

/-- Looking up among the entries whose keys are chosen. -/
theorem get?_filter_keys (p : String → Bool) (fields : Fields α) (name : String) :
    get? name (fields.filter fun e => p e.1) = if p name then fields.get? name else none := by
  induction fields with
  | nil => simp [get?]
  | cons entry rest ih =>
    obtain ⟨k, v⟩ := entry
    rw [List.filter_cons]
    -- the first entry is the one, or the search goes on
    by_cases hk : k = name
    · subst hk
      cases hp : p k <;> simp_all [get?]
    · cases hp : p k <;> simp_all [get?]

/-- What is found under a key is one of the fields. -/
theorem mem_of_get? {fields : Fields α} {name : String} {v : α} (h : fields.get? name = some v) :
    (name, v) ∈ fields := by
  induction fields with
  | nil => exact nomatch h
  | cons entry rest ih =>
    obtain ⟨k, w⟩ := entry
    rw [get?] at h
    split at h
    · rename_i hk
      subst hk
      cases h
      exact .head _
    · exact .tail _ (ih h)

/-- After an insertion there is the new field and nothing else that is new. -/
theorem mem_insert {key : String} {value : α} {fields : Fields α} {entry : String × α}
    (h : entry ∈ fields.insert key value) : entry = (key, value) ∨ entry ∈ fields := by
  induction fields with
  | nil => exact .inl (List.mem_singleton.1 h)
  | cons first rest ih =>
    obtain ⟨k, v⟩ := first
    unfold insert at h
    split at h
    · exact List.mem_cons.1 h
    · split at h
      · rcases List.mem_cons.1 h with h | h
        · exact .inl h
        · exact .inr (.tail _ h)
      · -- the first field is left in its place, and the new one goes further back
        rcases List.mem_cons.1 h with h | h
        · exact .inr (h ▸ .head _)
        · rcases ih h with h | h
          · exact .inl h
          · exact .inr (.tail _ h)

/-- An insertion adds one field at most. -/
theorem length_insert_le (key : String) (value : α) (fields : Fields α) :
    (fields.insert key value).length ≤ fields.length + 1 := by
  induction fields with
  | nil => exact Nat.le_refl 1
  | cons entry rest ih =>
    obtain ⟨k, v⟩ := entry
    unfold insert
    split
    · exact Nat.le_refl _
    · split
      · simp only [List.length_cons]
        omega
      · simp only [List.length_cons] at ih ⊢
        omega

/-- An entry whose key comes after all others is put at the end. -/
theorem insert_last {fields : Fields α} {key : String} (h : ∀ e ∈ fields, e.1 < key) (value : α) :
    fields.insert key value = fields ++ [(key, value)] := by
  induction fields with
  | nil => rfl
  | cons entry rest ih =>
    rw [List.forall_mem_cons] at h
    have hne : entry.1 ≠ key := fun he => String.lt_irrefl key (he ▸ h.1)
    rw [insert, if_neg (String.lt_asymm h.1), if_neg hne, ih h.2]
    rfl

/-! ## Changing all values -/

/-- The fields with each value changed. -/
def mapValues {β : Type} (f : α → β) (fields : Fields α) : Fields β :=
  fields.map fun p => (p.1, f p.2)

/-- Changing all values changes what is found. -/
theorem get?_mapValues {β : Type} (f : α → β) (fields : Fields α) (name : String) :
    (fields.mapValues f).get? name = (fields.get? name).map f := by
  induction fields with
  | nil => rfl
  | cons entry rest ih =>
    show (if entry.1 = name then some (f entry.2) else (mapValues f rest).get? name) =
      Option.map f (if entry.1 = name then some entry.2 else get? name rest)
    split
    · rfl
    · exact ih

/-- Changing all values changes the inserted one. -/
theorem mapValues_insert {β : Type} (f : α → β) (key : String) (value : α) (fields : Fields α) :
    (fields.insert key value).mapValues f = (fields.mapValues f).insert key (f value) := by
  induction fields with
  | nil => rfl
  | cons entry rest ih =>
    obtain ⟨k, v⟩ := entry
    show mapValues f (if key < k then _ else if k = key then _ else _) =
      if key < k then _ else if k = key then _ else _
    split
    · rfl
    · split
      · rfl
      · exact congrArg ((k, f v) :: ·) ih

/-- Fields can be picked by their keys before or after their values are changed. -/
theorem mapValues_filter_keys {β : Type} (f : α → β) (p : String → Bool) (fields : Fields α) :
    mapValues f (fields.filter fun e => p e.1) = (mapValues f fields).filter fun e => p e.1 := by
  unfold mapValues
  rw [List.filter_map]
  rfl

/-- The values are changed one by one. -/
theorem values_mapValues {β : Type} (f : α → β) (fields : Fields α) :
    (fields.mapValues f).values = fields.values.map f := by
  unfold mapValues values
  rw [List.map_map, List.map_map]
  rfl

namespace InOrder

/-- No fields are in order. -/
theorem nil : InOrder ([] : Fields α) := List.Pairwise.nil

/-- What is picked from fields in order is in order. -/
theorem filter {fields : Fields α} (h : fields.InOrder) (p : String × α → Bool) :
    InOrder (fields.filter p) :=
  List.Pairwise.filter p h

/-- An insertion keeps the order. -/
theorem insert {fields : Fields α} (h : fields.InOrder) (key : String) (value : α) :
    InOrder (fields.insert key value) := by
  induction fields with
  | nil => exact List.pairwise_singleton _ _
  | cons entry rest ih =>
    obtain ⟨k, v⟩ := entry
    obtain ⟨hk, hrest⟩ := List.pairwise_cons.1 h
    unfold Fields.insert
    split
    · rename_i hlt
      refine List.pairwise_cons.2 ⟨fun e he => ?_, h⟩
      rcases List.mem_cons.1 he with rfl | he
      · exact hlt
      · exact String.lt_trans hlt (hk e he)
    · split
      · rename_i heq
        subst heq
        exact List.pairwise_cons.2 ⟨hk, hrest⟩
      · rename_i hlt hne
        refine List.pairwise_cons.2 ⟨fun e he => ?_, ih hrest⟩
        rcases mem_insert he with rfl | he
        · -- neither below nor equal, so above
          exact String.not_le.1 fun hle => hne (String.le_antisymm (String.not_lt.1 hlt) hle)
        · exact hk e he

/-- In order, each field is the one that its key finds. -/
theorem get?_of_mem {fields : Fields α} (h : fields.InOrder) {name : String} {v : α}
    (hmem : (name, v) ∈ fields) : fields.get? name = some v := by
  induction fields with
  | nil => exact absurd hmem List.not_mem_nil
  | cons entry rest ih =>
    -- keys further on are greater, so the first one does not hide them
    obtain ⟨hlt, hrest⟩ := List.pairwise_cons.1 h
    rw [get?]
    rcases List.mem_cons.1 hmem with rfl | hmem
    · exact if_pos rfl
    · rw [if_neg (String.ne_of_lt (hlt _ hmem))]
      exact ih hrest hmem

/-- Inserting puts the new value in place of the one with its key. -/
theorem values_insert {fields : Fields α} (h : fields.InOrder) (key : String) (value : α) :
    (fields.insert key value).values.Perm
      (value :: values (fields.filter fun e => e.1 != key)) := by
  induction fields with
  | nil => exact .refl _
  | cons entry rest ih =>
    obtain ⟨k, v⟩ := entry
    obtain ⟨hlt, hrest⟩ := List.pairwise_cons.1 h
    -- nothing is taken out behind a greater key
    have hself : key ≤ k → rest.filter (fun e => e.1 != key) = rest := fun hle =>
      List.filter_eq_self.2 fun e he =>
        bne_iff_ne.2 (String.ne_of_lt (Std.lt_of_le_of_lt hle (hlt e he))).symm
    unfold Fields.insert
    split
    · next hk =>
      rw [List.filter_cons, if_pos (bne_iff_ne.2 (String.ne_of_lt hk).symm),
        hself (Std.le_of_lt hk)]
      exact .refl _
    · split
      · next hk =>
        subst hk
        rw [List.filter_cons, if_neg (by simp), hself (String.le_refl _)]
        exact .refl _
      · next hk =>
        rw [List.filter_cons, if_pos (bne_iff_ne.2 hk)]
        exact ((ih hrest).cons v).trans (.swap _ _ _)

/-- Fields are in order when their keys are. -/
theorem iff_keys {fields : Fields α} : fields.InOrder ↔ fields.keys.Pairwise (· < ·) :=
  List.pairwise_map.symm

/-- No key stands twice among fields in order. -/
theorem nodup_keys {fields : Fields α} (h : fields.InOrder) : fields.keys.Nodup :=
  (iff_keys.1 h).imp fun hlt => String.ne_of_lt hlt

/-- Entries that are in order are left as they are. -/
theorem ofList_eq {fields : Fields α} (h : fields.InOrder) : ofList fields = fields := by
  -- each entry goes behind those that were inserted before it, since they are in order
  have hfold (rest done : Fields α) (hall : InOrder (done ++ rest)) :
      rest.foldl (fun fields entry => fields.insert entry.1 entry.2) done = done ++ rest := by
    induction rest generalizing done with
    | nil => rw [List.append_nil]; rfl
    | cons entry rest ih =>
      have hbefore : ∀ e ∈ done, e.1 < entry.1 := fun e he =>
        (List.pairwise_append.1 hall).2.2 e he entry (.head _)
      show rest.foldl _ (Fields.insert entry.1 entry.2 done) = _
      rw [insert_last hbefore, ih _ (by rwa [List.append_assoc]), List.append_assoc]
      rfl
  exact hfold fields [] h

end InOrder

end BrailleScript.Fields
