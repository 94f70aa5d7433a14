import Mathlib
import BrailleScript.Number
import BrailleScript.Proofs.Decimal.Layout

/-!
# Whole numbers are the floats nearest to their integers

A whole number of moderate size is serialised as an integer, and an integer is read as the float
nearest to it.  Every integer with at most 53 bits is a float, so nothing is rounded on the way; of
the two zeros both become the positive one, which equals the other.

## Key results

- `nearestBits_of_shift`: an integer that fits into the mantissa is not rounded
- `Number.ofInt_truncate`: a whole number equals the float that its integer is read as
-/

namespace BrailleScript

namespace Decimal

variable {x : Float} {negative : Bool} {m n k : Nat} {e : Int}

/-- A whole number needs no rounding. -/
theorem roundDiv_one (n : Nat) : roundDiv n 1 = n := by
  simp [roundDiv, Nat.mod_one]

/-- Where the leading bit of an integer is, from how far the integer has to be shifted to have it in
the place of the leading bit of a mantissa. -/
theorem log2_of_shift (hlow : leadingBit ≤ n * 2 ^ k) (hhigh : n * 2 ^ k < 2 * leadingBit) :
    n ≠ 0 ∧ k ≤ 52 ∧ Nat.log2 n = 52 - k := by
  rw [leadingBit_eq] at hlow hhigh
  have hn : n ≠ 0 := by
    rintro rfl
    omega
  -- a positive integer that is shifted further has no place in the mantissa
  have hk : k ≤ 52 := by
    have hpow : 2 ^ k < 2 ^ 53 := lt_of_le_of_lt (Nat.le_mul_of_pos_left _ (by omega)) hhigh
    exact Nat.le_of_lt_succ ((Nat.pow_lt_pow_iff_right (by decide)).1 hpow)
  have hsplit (j : Nat) (hj : k ≤ j) : 2 ^ j = 2 ^ (j - k) * 2 ^ k := by
    rw [← pow_add, Nat.sub_add_cancel hj]
  refine ⟨hn, hk, (Nat.log2_eq_iff hn).2 ⟨?_, ?_⟩⟩
  · rw [hsplit 52 hk] at hlow
    exact Nat.le_of_mul_le_mul_right hlow (by positivity)
  · rw [show 2 * 2 ^ 52 = 2 ^ 53 by rfl, hsplit 53 (by omega)] at hhigh
    rw [show 52 - k + 1 = 53 - k by omega]
    exact Nat.lt_of_mul_lt_mul_right hhigh

/-- The power of two of such an integer. -/
theorem binade_of_shift (hlow : leadingBit ≤ n * 2 ^ k) (hhigh : n * 2 ^ k < 2 * leadingBit) :
    binade n 1 = 52 - k := by
  obtain ⟨hn, hk, hlog⟩ := log2_of_shift hlow hhigh
  have hguess : (Nat.log2 n : Int) - Nat.log2 1 = 52 - k := by
    rw [hlog, show Nat.log2 1 = 0 from rfl]
    omega
  -- the guess is the place of the leading bit
  have htop : ¬(scaleTwo n 1 (-(52 - k : Int))).1 < (scaleTwo n 1 (-(52 - k : Int))).2 := by
    unfold scaleTwo
    split
    · rw [Nat.shiftLeft_eq]
      have : 0 < n * 2 ^ (-(52 - k : Int)).toNat := by positivity
      omega
    · have hself := Nat.log2_self_le hn
      rw [hlog] at hself
      rw [Nat.shiftLeft_eq, show (- -(52 - k : Int)).toNat = 52 - k by omega]
      omega
  simp only [binade, hguess, htop, if_false]

/-- An integer that fits into the mantissa is not rounded: the bits hold it, shifted until its first
bit is the leading one. -/
theorem nearestBits_of_shift (hlow : leadingBit ≤ n * 2 ^ k) (hhigh : n * 2 ^ k < 2 * leadingBit) :
    nearestBits n 1 = (1075 - k) * leadingBit + (n * 2 ^ k - leadingBit) := by
  obtain ⟨hn, hk, -⟩ := log2_of_shift hlow hhigh
  have hscale : scaleTwo n 1 (-(-k : Int)) = (n * 2 ^ k, 1) := by
    rw [scaleTwo, if_pos (by omega), Nat.shiftLeft_eq]
    simp
  unfold nearestBits
  rw [if_neg (by simp [hn]), binade_of_shift hlow hhigh,
    show max ((52 - k : Int) - 52) (-1074) = -k by omega]
  simp only [hscale, roundDiv_one]
  rw [encode, if_neg (by omega), show (-(k : Int) + 1075).toNat = 1075 - k by omega]
  -- the exponent is far from that of the infinity
  refine Nat.min_eq_left ?_
  calc (1075 - k) * leadingBit + (n * 2 ^ k - leadingBit)
      ≤ 1075 * leadingBit + leadingBit := by
        refine Nat.add_le_add (Nat.mul_le_mul_right _ (by omega)) (by omega)
    _ ≤ 2047 * leadingBit := by
        rw [leadingBit_eq]
        norm_num

/-- A float with the parts of a shifted integer is the one nearest to that integer. -/
theorem nearest_of_view (hx : Binary.view x = .finite negative (n * 2 ^ k) (-k))
    (hlow : leadingBit ≤ n * 2 ^ k) : nearest negative n 1 = x := by
  have hcanonical := Binary.canonical hx
  have hk := (log2_of_shift hlow hcanonical.mantissa_lt).2.1
  obtain ⟨hsign, hparts⟩ := Binary.bits_of_finite hx
  have hsum := Binary.bits_eq_sum x.toBits.toNat_lt
  -- the fields of the bits give the mantissa and the exponent back
  have hfraction : x.toBits.toNat % leadingBit = n * 2 ^ k - leadingBit := by omega
  have hexponent : (x.toBits.toNat >>> 52) % 2048 = 1075 - k := by omega
  have hbits : (if negative then (1 <<< 63) + nearestBits n 1 else nearestBits n 1) =
      x.toBits.toNat := by
    rw [nearestBits_of_shift hlow hcanonical.mantissa_lt, hsum, hfraction, hexponent,
      Nat.mul_comm leadingBit]
    cases negative with
    | false =>
      have hzero : (x.toBits.toNat >>> 63) % 2 = 0 := by simpa using hsign
      rw [hzero]
      simp
    | true =>
      rw [hsign.1 rfl, Nat.one_shiftLeft, Nat.mul_one, Nat.add_assoc]
      simp
  rw [nearest, hbits, UInt64.ofNat_toNat, Float.ofBits_toBits]

/-- The integer that a whole number is, and how far the mantissa has it shifted. -/
theorem shift_of_integral (hx : Binary.view x = .finite negative m e) (hwhole : isIntegral x = true)
    (hlt : (truncate x).natAbs < 2 * leadingBit) :
    ∃ n k : Nat, m = n * 2 ^ k ∧ truncate x = (if negative then -(n : Int) else n) ∧
      (n ≠ 0 → e = -k ∧ leadingBit ≤ n * 2 ^ k) := by
  have hcanonical := Binary.canonical hx
  rcases lt_or_ge e 0 with hneg | hnonneg
  · obtain ⟨k, rfl⟩ : ∃ k : Nat, e = -k := ⟨(-e).toNat, by omega⟩
    have hdvd : m % 2 ^ k = 0 := by
      have hcases : k = 0 ∨ m % 2 ^ k = 0 := by
        simpa [isIntegral, hx, Nat.one_shiftLeft] using hwhole
      exact hcases.resolve_left (by omega)
    have htrunc : truncate x = if negative then -((m / 2 ^ k : Nat) : Int) else (m / 2 ^ k : Nat) := by
      simp only [truncate, hx, scaleTwo, if_neg (not_le.2 hneg), neg_neg, Int.toNat_natCast,
        Nat.one_shiftLeft]
    have hm : m = m / 2 ^ k * 2 ^ k := (Nat.div_mul_cancel (Nat.dvd_of_mod_eq_zero hdvd)).symm
    refine ⟨m / 2 ^ k, k, hm, htrunc, fun hn => ⟨rfl, hm ▸ hcanonical.full ?_⟩⟩
    -- with the smallest exponent, the mantissa would be too small for the integer
    by_contra hleast
    have hk : 53 ≤ k := by omega
    have hlarge : 2 * leadingBit ≤ m := by
      calc 2 * leadingBit = 2 ^ 53 := by rw [leadingBit_eq]; rfl
        _ ≤ 2 ^ k := Nat.pow_le_pow_right (by decide) hk
        _ ≤ m / 2 ^ k * 2 ^ k := Nat.le_mul_of_pos_left _ (Nat.pos_of_ne_zero hn)
        _ = m := hm.symm
    exact absurd hcanonical.mantissa_lt (by omega)
  · have hfull := hcanonical.full (by omega)
    have htrunc : truncate x = if negative then -((m * 2 ^ e.toNat : Nat) : Int)
        else (m * 2 ^ e.toNat : Nat) := by
      simp only [truncate, hx, scaleTwo, if_pos hnonneg, Nat.shiftLeft_eq, Nat.div_one]
    -- any larger exponent would make the integer too large
    have hzero : e.toNat = 0 := by
      by_contra hpos
      have hdouble : 2 ^ 1 ≤ 2 ^ e.toNat := Nat.pow_le_pow_right (by decide) (by omega)
      have habs : (truncate x).natAbs = m * 2 ^ e.toNat := by
        rw [htrunc]
        split <;> omega
      have hle : leadingBit * 2 ^ 1 ≤ m * 2 ^ e.toNat := Nat.mul_le_mul hfull hdouble
      omega
    rw [hzero, pow_zero, Nat.mul_one] at htrunc
    exact ⟨m, 0, by simp, htrunc, fun _ => ⟨by omega, by simpa using hfull⟩⟩

end Decimal

namespace Number

open Decimal

/-- Finite floats equal themselves. -/
theorem beq_self_of_view {x : Float} {negative : Bool} {m : Nat} {e : Int}
    (hx : Binary.view x = .finite negative m e) : (x == x) = true := by
  refine Float.beq_self_iff.2 ?_
  rintro rfl
  have hnan : Binary.view Float.nan = .nan := by decide
  rw [hnan] at hx
  cases hx

/-- Both zeros equal the float that their integer is read as. -/
theorem ofInt_zero {x : Float} {negative : Bool} {e : Int}
    (hx : Binary.view x = .finite negative 0 e) : (x == ofInt 0) = true := by
  -- a mantissa of zero has no leading bit, so the exponent is the least one
  obtain rfl : e = -1074 := by
    have hcanonical := Binary.canonical hx
    have hleast := hcanonical.le_exponent
    by_contra hne
    exact absurd (hcanonical.full (by omega)) (by decide)
  cases negative with
  | false =>
    obtain rfl : x = 0.0 := Binary.view_inj hx (by decide)
    decide
  | true =>
    obtain rfl : x = -0.0 := Binary.view_inj hx (by decide)
    decide

/-- A whole number equals the float that its integer is read as. -/
theorem ofInt_truncate {x : Float} (h : isWholeBelow 9000000000000000 x = true) :
    (x == ofInt (truncate x)) = true := by
  obtain ⟨hwhole, hlt⟩ := (Bool.and_eq_true _ _).mp h
  obtain ⟨negative, m, e, hx⟩ : ∃ negative m e, Binary.view x = .finite negative m e := by
    unfold isIntegral at hwhole
    split at hwhole
    case h_1 hx => exact ⟨_, _, _, hx⟩
    case h_2 => exact absurd hwhole Bool.false_ne_true
  obtain ⟨n, k, rfl, htrunc, hshift⟩ := shift_of_integral hx hwhole
    (lt_trans (of_decide_eq_true hlt) (by decide))
  rcases Nat.eq_zero_or_pos n with rfl | hn
  · have hzero : truncate x = 0 := by simpa using htrunc
    rw [hzero]
    exact ofInt_zero (by simpa using hx)
  · obtain ⟨rfl, hlow⟩ := hshift (Nat.ne_of_gt hn)
    -- with a leading bit, the integer is the mantissa shifted back
    have hofInt : ofInt (truncate x) = x := by
      refine Eq.trans ?_ (nearest_of_view hx hlow)
      rw [ofInt, htrunc]
      cases negative with
      | false => simp [show ¬(n : Int) < 0 by omega]
      | true => simp [hn]
    rw [hofInt]
    exact beq_self_of_view hx

end Number

end BrailleScript
