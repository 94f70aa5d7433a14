import BrailleScript.Text.Blank
import Mathlib.Data.List.DropRight

/-!
# Blanks and trimming

A character is in a table if one of the ranges has it, and a text that was trimmed has nothing left
to trim.

## Key results

- `RangeTable.exists_mem_of_contains`: the range of a character
- `span_append`: taking a text off the front of another
- `trimChars_trimChars`: trimming twice
-/

namespace BrailleScript.Text

namespace RangeTable

/-- A code that a table contains lies in one of its ranges. -/
theorem exists_mem_of_containsCode {n : Nat} {table : RangeTable}
    (h : containsCode n table = true) : ∃ r ∈ table, r.1 ≤ n ∧ n ≤ r.2 := by
  induction table with
  | nil => cases h
  | cons r table ih =>
    obtain ⟨lo, hi⟩ := r
    rw [containsCode] at h
    split at h
    · cases h
    next hlo =>
      -- the code lies in the first range or in a later one
      split at h
      next hhi => exact ⟨(lo, hi), List.mem_cons_self, Nat.not_lt.1 hlo, hhi⟩
      next =>
        obtain ⟨r, hr, hn⟩ := ih h
        exact ⟨r, List.mem_cons_of_mem _ hr, hn⟩

/-- A character of a table lies in one of its ranges. -/
theorem exists_mem_of_contains {c : Char} {table : RangeTable} (h : table.contains c = true) :
    ∃ r ∈ table, r.1 ≤ c.toNat ∧ c.toNat ≤ r.2 :=
  exists_mem_of_containsCode h

end RangeTable

/-- A text is taken off up to where the taking stops. -/
theorem span_append {p : Char → Bool} {cs rest : List Char} (hcs : ∀ c ∈ cs, p c = true)
    (hrest : ∀ c ∈ rest.head?, p c = false) :
    (cs ++ rest).takeWhile p = cs ∧ (cs ++ rest).dropWhile p = rest := by
  rw [List.takeWhile_append_of_pos hcs, List.dropWhile_append_of_pos hcs]
  cases rest with
  | nil => exact ⟨List.append_nil _, rfl⟩
  | cons c rest =>
    have hc : ¬p c = true := by simp [hrest c rfl]
    rw [List.takeWhile_cons_of_neg hc, List.dropWhile_cons_of_neg hc]
    exact ⟨List.append_nil _, rfl⟩

/-! ## Trimming -/

/-- Trimming the end drops the blanks from the right. -/
theorem trimEnd_eq_rdropWhile (cs : List Char) : trimEnd cs = cs.rdropWhile isBlank :=
  rfl

/-- What is trimmed begins with no blank. -/
theorem dropWhile_trimChars (cs : List Char) :
    (trimChars cs).dropWhile isBlank = trimChars cs := by
  cases htrim : trimChars cs with
  | nil => rfl
  | cons c rest =>
    have hprefix := List.rdropWhile_prefix isBlank (cs.dropWhile isBlank)
    rw [← trimEnd_eq_rdropWhile, ← trimChars, htrim] at hprefix
    obtain ⟨more, hmore⟩ := hprefix
    -- the first character that is left was no blank
    have hhead := List.head?_dropWhile_not isBlank cs
    rw [← hmore, List.cons_append, List.head?_cons] at hhead
    exact List.dropWhile_cons_of_neg (by simpa using hhead)

/-- There is nothing more to trim. -/
theorem trimChars_trimChars (cs : List Char) : trimChars (trimChars cs) = trimChars cs := by
  rw [trimChars, dropWhile_trimChars, trimEnd_eq_rdropWhile, trimChars, trimEnd_eq_rdropWhile,
    List.rdropWhile_idempotent]

end BrailleScript.Text
