import BrailleScript.Decimal.Reading
import Mathlib.Data.List.TakeWhile

/-!
# Numerals are numbers

Digits with at most one point among them are read as a number, without a sign and without a power
of ten.

## Key results

- `IsNumeral.readUnsigned?_eq`: a numeral denotes the number of its digits, scaled by those behind
  the point
-/

namespace BrailleScript.Decimal

/-- Digits are ten characters. -/
theorem exists_digitChar {c : Char} (hc : c.isDigit = true) : ∃ d < 10, c = Nat.digitChar d := by
  have hrange : 48 ≤ c.toNat ∧ c.toNat ≤ 57 := by
    rw [Char.isDigit, Bool.and_eq_true, decide_eq_true_eq, decide_eq_true_eq] at hc
    exact ⟨UInt32.le_iff_toNat_le.1 hc.1, UInt32.le_iff_toNat_le.1 hc.2⟩
  have hall : ∀ n < 10, Char.ofNat (48 + n) = Nat.digitChar n := by decide
  refine ⟨c.toNat - 48, by omega, ?_⟩
  rw [← hall _ (by omega), Nat.add_sub_cancel' hrange.1, Char.ofNat_toNat]

/-- The digits in front of the point, or all of them. -/
def beforePoint (cs : List Char) : List Char :=
  cs.takeWhile (· != '.')

/-- The digits behind the point. -/
def behindPoint (cs : List Char) : List Char :=
  (cs.dropWhile (· != '.')).tail

/-- Digits, at least one, with at most one point among them. -/
structure IsNumeral (cs : List Char) : Prop where
  digit : ∃ c ∈ cs, c.isDigit = true
  chars : ∀ c ∈ cs, c.isDigit = true ∨ c = '.'
  point : cs.count '.' ≤ 1

namespace IsNumeral

variable {cs : List Char}

/-- A numeral has characters. -/
theorem ne_nil (h : IsNumeral cs) : cs ≠ [] := by
  rintro rfl
  obtain ⟨c, hc, -⟩ := h.digit
  cases hc

/-- No other characters stand in a numeral. -/
theorem not_mem {c : Char} (h : IsNumeral cs) (hdigit : c.isDigit = false) (hpoint : c ≠ '.') :
    c ∉ cs := by
  intro hc
  rcases h.chars c hc with hc | hc
  · rw [hdigit] at hc
    cases hc
  · exact hpoint hc

/-- Behind the digits in front, a numeral has a point and more digits, or nothing. -/
theorem dropWhile_cases (h : IsNumeral cs) :
    cs.dropWhile Char.isDigit = [] ∨
      ∃ ds, cs.dropWhile Char.isDigit = '.' :: ds ∧ ∀ c ∈ ds, c.isDigit = true := by
  cases hrest : cs.dropWhile Char.isDigit with
  | nil => exact .inl rfl
  | cons c ds =>
    have hmem : ∀ a ∈ c :: ds, a ∈ cs := by
      rw [← hrest]
      exact fun a ha => (List.dropWhile_suffix _).subset ha
    have hc : c.isDigit = false := by
      have hhead := List.head?_dropWhile_not Char.isDigit cs
      rw [hrest] at hhead
      simpa using hhead
    obtain rfl : c = '.' := by
      rcases h.chars c (hmem c List.mem_cons_self) with hdigit | hpoint
      · rw [hc] at hdigit
        cases hdigit
      · exact hpoint
    -- the point is the only one, so only digits follow it
    have hcount : ds.count '.' = 0 := by
      have hle := (List.dropWhile_suffix (l := cs) Char.isDigit).sublist.count_le '.'
      rw [hrest, List.count_cons_self] at hle
      have := h.point
      omega
    refine .inr ⟨ds, rfl, fun a ha => ?_⟩
    rcases h.chars a (hmem a (List.mem_cons_of_mem _ ha)) with hdigit | rfl
    · exact hdigit
    · exact absurd ha (List.count_eq_zero.1 hcount)

/-- The point of a numeral is behind the digits in front. -/
theorem split_eq (h : IsNumeral cs) :
    cs.takeWhile Char.isDigit = beforePoint cs ∧
      (cs.dropWhile Char.isDigit = [] ∧ behindPoint cs = [] ∨
        cs.dropWhile Char.isDigit = '.' :: behindPoint cs) := by
  have hsplit := List.takeWhile_append_dropWhile (p := Char.isDigit) (l := cs)
  -- digits are no points, so the digits in front are what stands before the first point
  have hwhole : ∀ c ∈ cs.takeWhile Char.isDigit, (c != '.') = true := by
    intro c hc
    rw [bne_iff_ne]
    rintro rfl
    exact absurd (List.all_eq_true.1 List.all_takeWhile _ hc) (by decide)
  generalize cs.takeWhile Char.isDigit = whole at hsplit hwhole ⊢
  unfold beforePoint behindPoint
  -- behind them is nothing or a point with more digits
  rcases h.dropWhile_cases with hrest | ⟨ds, hrest, -⟩
  · rw [hrest, List.append_nil] at hsplit
    subst hsplit
    have htake : whole.takeWhile (· != '.') = whole := List.takeWhile_eq_self_iff.2 hwhole
    have hdrop : whole.dropWhile (· != '.') = [] := List.dropWhile_eq_nil_iff.2 hwhole
    exact ⟨htake.symm, .inl ⟨hrest, by rw [hdrop]; rfl⟩⟩
  · have htake : cs.takeWhile (· != '.') = whole := by
      rw [← hsplit, hrest, List.takeWhile_append_of_pos hwhole, List.takeWhile_cons_of_neg (by simp),
        List.append_nil]
    have hdrop : cs.dropWhile (· != '.') = '.' :: ds := by
      rw [← hsplit, hrest, List.dropWhile_append_of_pos hwhole, List.dropWhile_cons_of_neg (by simp)]
    exact ⟨htake.symm, .inr (by rw [hrest, hdrop]; rfl)⟩

/-- The number that is read is that of all digits, moved behind the point. -/
theorem readUnsigned?_eq (h : IsNumeral cs) :
    readUnsigned? false cs =
      some (ofDigits false (ofDigitChars (beforePoint cs ++ behindPoint cs))
        (-(behindPoint cs).length)) := by
  have hsplit := List.takeWhile_append_dropWhile (p := Char.isDigit) (l := cs)
  obtain ⟨hwhole, hrest⟩ := h.split_eq
  unfold readUnsigned?
  rw [hwhole] at hsplit ⊢
  rcases hrest with ⟨hrest, hbehind⟩ | hrest
  · have hsome : (beforePoint cs).isEmpty = false := by
      rw [hrest, List.append_nil] at hsplit
      rw [hsplit]
      exact List.isEmpty_eq_false_iff.2 h.ne_nil
    rw [hrest, hbehind]
    simp [hsome, readPower?]
  · have hdigits : ∀ c ∈ behindPoint cs, c.isDigit = true := by
      rcases h.dropWhile_cases with hnone | ⟨ds, hsome, hds⟩
      · rw [hnone] at hrest
        cases hrest
      · rw [hsome] at hrest
        rw [← (List.cons.inj hrest).2]
        exact hds
    have hfraction : (behindPoint cs).takeWhile Char.isDigit = behindPoint cs ∧
        (behindPoint cs).dropWhile Char.isDigit = [] :=
      ⟨List.takeWhile_eq_self_iff.2 hdigits, List.dropWhile_eq_nil_iff.2 hdigits⟩
    -- a digit stands in front of the point or behind it
    have hsome : ((beforePoint cs).isEmpty && (behindPoint cs).isEmpty) = false := by
      rw [← Bool.not_eq_true, Bool.and_eq_true, List.isEmpty_iff, List.isEmpty_iff]
      rintro ⟨hbefore, hbehind⟩
      obtain ⟨c, hc, hdigit⟩ := h.digit
      rw [← hsplit, hrest, hbefore, hbehind, List.nil_append, List.mem_singleton] at hc
      rw [hc] at hdigit
      exact absurd hdigit (by decide)
    rw [hrest]
    simp [hfraction.1, hfraction.2, hsome, readPower?]

end IsNumeral

end BrailleScript.Decimal
