import BrailleScript.Proofs.Decimal.Parts
import BrailleScript.Proofs.Decimal.Reading

/-!
# Reading rounds to the nearest float

A number that is not negative is rounded to the float next to it, to the one with the even mantissa if
two are as near, and to infinity from half a place above the greatest float on (`Rounds`).  This is
said of distances between rational numbers alone; that the shifts, the integer division and the packing
of bits in `nearest` come to it is proved in steps: the integer nearest to a number counted in places,
the closest float with its bits, and the cut-offs of `ofDigits` for magnitudes that no float has.

## Key results

- `closest_of_nearestInt`: counting in the places of its binade gives the closest float
- `rounds_nearest`: a quotient is rounded
- `Rounds.unique`: to one float
- `rounds_ofDigits`: digits with a power of ten are rounded
- `IsNumeral.rounds_readUnsigned?`: a numeral is read as its value, rounded
-/

namespace BrailleScript.Decimal

/-! ## Rounding -/

/-- The numbers from here on are rounded to infinity: half a place above the greatest float. -/
def overflow : ℚ :=
  (2 * leadingBit - 1 / 2) * 2 ^ (971 : Int)

/-- A number that is not negative is rounded to `x`: no float is nearer to it, and if another one is
as near then the mantissa of `x` is even. -/
inductive Rounds (q : ℚ) (x : Float) : Prop
  | finite {m : Nat} {e : Int} (hx : Binary.view x = .finite false m e) (hq : q < overflow)
    (nearest : ∀ y m' e', Binary.view y = .finite false m' e' →
      |q - m * 2 ^ e| ≤ |q - m' * 2 ^ e'|)
    (even : ∀ y m' e', Binary.view y = .finite false m' e' → y ≠ x →
      |q - m * 2 ^ e| = |q - m' * 2 ^ e'| → m % 2 = 0)
  | infinite (hx : Binary.view x = .infinite false) (hq : overflow ≤ q)

/-- No number with the parts of a float is nearer, and what is as near has an odd mantissa beside an
even one. -/
structure Closest (q : ℚ) (m : Nat) (e : Int) : Prop where
  canonical : Canonical m e
  nearest : ∀ m' e', Canonical m' e' → |q - m * 2 ^ e| ≤ |q - m' * 2 ^ e'|
  even : ∀ m' e', Canonical m' e' → ¬(m' = m ∧ e' = e) → |q - m * 2 ^ e| = |q - m' * 2 ^ e'| →
    m % 2 = 0 ∧ m' % 2 = 1

/-- A float of the closest mantissa and exponent is the nearest one, below the overflow. -/
theorem Closest.rounds {q : ℚ} {m : Nat} {e : Int} (h : Closest q m e) {x : Float}
    (hx : Binary.view x = .finite false m e) (hq : q < overflow) : Rounds q x := by
  refine .finite hx hq (fun y m' e' hy => h.nearest m' e' (Binary.canonical hy)) ?_
  intro y m' e' hy hne heq
  refine (h.even m' e' (Binary.canonical hy) ?_ heq).1
  rintro ⟨rfl, rfl⟩
  exact hne (Binary.view_inj hy hx)

/-- What is as near as the closest number, and no odd one, is the closest number. -/
theorem Closest.eq_of_rounds {q : ℚ} {m : Nat} {e : Int} (h : Closest q m e) {x y : Float}
    (hx : Binary.view x = .finite false m e) (hy : Rounds q y) (hq : q < overflow) : y = x := by
  cases hy with
  | infinite hy hle => exact absurd hq (not_lt.2 hle)
  | @finite m' e' hy _ nearest even =>
    by_contra hne
    -- both are nearest, so they are equally near, and then the tie is for the even one
    have htie : |q - m * 2 ^ e| = |q - m' * 2 ^ e'| :=
      le_antisymm (h.nearest m' e' (Binary.canonical hy)) (nearest x m e hx)
    have hodd := (h.even m' e' (Binary.canonical hy) (by
      rintro ⟨rfl, rfl⟩
      exact hne (Binary.view_inj hy hx)) htie).2
    have heven := even x m e hx (Ne.symm hne) htie.symm
    -- the closest number was the odd one of the two, and the other one was even
    omega

/-! ## The nearest integer -/

/-- `r` is the integer nearest to `t`, the even one of two. -/
structure NearestInt (t : ℚ) (r : Nat) : Prop where
  low : (r : ℚ) - 1 / 2 ≤ t
  high : t ≤ r + 1 / 2
  even : (t = r - 1 / 2 ∨ t = r + 1 / 2) → r % 2 = 0

/-- Rounding counts in halves: `2 · n` lies within `d` of `2 · r · d`, and the ends are for the even. -/
theorem roundDiv_cases {n d : Nat} (hd : 0 < d) :
    2 * (roundDiv n d * d) ≤ 2 * n + d ∧ 2 * n ≤ 2 * (roundDiv n d * d) + d ∧
      (2 * (roundDiv n d * d) = 2 * n + d ∨ 2 * n = 2 * (roundDiv n d * d) + d →
        roundDiv n d % 2 = 0) := by
  have hn := Nat.div_add_mod' n d
  have hmod := Nat.mod_lt n hd
  have hsucc : (n / d + 1) * d = n / d * d + d := Nat.succ_mul _ _
  unfold roundDiv
  dsimp only
  -- below the half the quotient is kept, above it the next one is taken
  split
  · exact ⟨by omega, by omega, by omega⟩
  · split
    · rw [hsucc]
      exact ⟨by omega, by omega, by omega⟩
    · -- on the half it is the even one of the two
      rcases Nat.mod_two_eq_zero_or_one (n / d) with heven | hodd
      · rw [heven, Nat.add_zero]
        exact ⟨by omega, by omega, fun _ => heven⟩
      · rw [hodd, hsucc]
        exact ⟨by omega, by omega, fun _ => by omega⟩

/-- The rounded quotient is the integer nearest to the fraction. -/
theorem nearestInt_roundDiv {n d : Nat} (hd : 0 < d) : NearestInt (n / d) (roundDiv n d) := by
  obtain ⟨hlow, hhigh, heven⟩ := roundDiv_cases (n := n) hd
  have hd' : (0 : ℚ) < d := by exact_mod_cast hd
  have hlow' : 2 * (roundDiv n d * d : ℚ) ≤ 2 * n + d := by exact_mod_cast hlow
  have hhigh' : (2 * n : ℚ) ≤ 2 * (roundDiv n d * d) + d := by exact_mod_cast hhigh
  -- the bounds are those of `roundDiv_cases`, divided by `2 · d`
  refine ⟨?_, ?_, fun h => heven (h.imp (fun h => ?_) fun h => ?_)⟩
  · rw [le_div_iff₀ hd']
    linarith
  · rw [div_le_iff₀ hd']
    linarith
  · rw [div_eq_iff hd'.ne'] at h
    have : (2 * (roundDiv n d * d) : ℚ) = 2 * n + d := by linarith
    exact_mod_cast this
  · rw [div_eq_iff hd'.ne'] at h
    have : (2 * n : ℚ) = 2 * (roundDiv n d * d) + d := by linarith
    exact_mod_cast this

namespace NearestInt

variable {t : ℚ} {r k : Nat}

/-- The nearest integer is at most a half away. -/
theorem abs_sub_le_half (h : NearestInt t r) : |t - r| ≤ 1 / 2 := by
  rw [abs_le]
  constructor <;> linarith [h.low, h.high]

/-- Other integers are farther away, unless the nearest one is even and beside an odd one that is as
far away. -/
theorem lt_or_tie (h : NearestInt t r) (hne : k ≠ r) :
    |t - r| < |t - k| ∨ |t - r| = |t - k| ∧ r % 2 = 0 ∧ k % 2 = 1 := by
  have hlow := h.low
  have hhigh := h.high
  have hle := h.abs_sub_le_half
  -- the other integer is a whole step away, on one side or the other
  rcases lt_or_gt_of_ne hne with hlt | hgt
  · have hk : (k : ℚ) + 1 ≤ r := by exact_mod_cast hlt
    rw [abs_of_nonneg (a := t - k) (by linarith)]
    refine (lt_or_ge |t - r| (t - k)).imp_right fun hge => ?_
    -- it is as near only when the number lies in the middle between the two
    have ht : t = r - 1 / 2 := by linarith
    have hr : r = k + 1 := by
      have : (r : ℚ) = (k + 1 : Nat) := by
        push_cast
        linarith
      exact_mod_cast this
    have heven := h.even (.inl ht)
    exact ⟨by linarith, heven, by omega⟩
  · have hk : (r : ℚ) + 1 ≤ k := by exact_mod_cast hgt
    rw [abs_of_nonpos (a := t - k) (by linarith)]
    refine (lt_or_ge |t - r| (-(t - k))).imp_right fun hge => ?_
    have ht : t = r + 1 / 2 := by linarith
    have hr : k = r + 1 := by
      have : (k : ℚ) = (r + 1 : Nat) := by
        push_cast
        linarith
      exact_mod_cast this
    have heven := h.even (.inr ht)
    exact ⟨by linarith, heven, by omega⟩

/-- No other integer is nearer. -/
theorem le (h : NearestInt t r) (k : Nat) : |t - r| ≤ |t - k| := by
  rcases eq_or_ne k r with rfl | hne
  · exact le_refl _
  · rcases h.lt_or_tie hne with hlt | ⟨heq, -⟩
    · exact hlt.le
    · exact heq.le

end NearestInt

/-! ## The closest float -/

/-- Numbers in the binade of an exponent: its mantissas have a leading bit, but for the least one. -/
structure InBinade (t : ℚ) (e : Int) : Prop where
  le_exponent : -1074 ≤ e
  nonneg : 0 ≤ t
  lt : t < 2 * leadingBit
  full : -1074 < e → leadingBit ≤ t

/-- A float with a smaller exponent is below the binade. -/
theorem Canonical.lt_of_exponent_lt {m : Nat} {e e' : Int} (h : Canonical m e') (hlt : e' < e) :
    (m : ℚ) * 2 ^ e' < leadingBit * 2 ^ e := by
  have hm : (m : ℚ) < 2 * leadingBit := by exact_mod_cast h.mantissa_lt
  calc (m : ℚ) * 2 ^ e' < 2 * leadingBit * 2 ^ e' := by gcongr
    _ = leadingBit * 2 ^ (e' + 1) := by
        rw [zpow_add_one₀ (by norm_num)]
        ring
    _ ≤ leadingBit * 2 ^ e := by
        gcongr
        · norm_num
        · omega

/-- A float with an exponent that is not smaller is a multiple of the place. -/
theorem value_eq_mul (m : Nat) {e e' : Int} (hle : e ≤ e') :
    (m : ℚ) * 2 ^ e' = (m * 2 ^ (e' - e).toNat : Nat) * 2 ^ e := by
  obtain ⟨k, rfl⟩ : ∃ k : Nat, e' = e + k := ⟨(e' - e).toNat, by omega⟩
  rw [add_sub_cancel_left, Int.toNat_natCast, zpow_add₀ (by norm_num), zpow_natCast]
  push_cast
  ring

/-- Distances scale by the power of two. -/
theorem abs_sub_mul (t s : ℚ) (e : Int) : |t * 2 ^ e - s * 2 ^ e| = |t - s| * 2 ^ e := by
  have hplace : (0 : ℚ) < 2 ^ e := by positivity
  rw [← sub_mul, abs_mul, abs_of_pos hplace]

/-- The integer nearest to a number, counted in places, is the mantissa of the closest float, perhaps
with a carry. -/
theorem closest_of_nearestInt {t : ℚ} {r m : Nat} {e e₁ : Int} (hr : NearestInt t r)
    (ht : InBinade t e) (hcanonical : Canonical m e₁)
    (hm : m = r ∧ e₁ = e ∨ r = 2 * leadingBit ∧ m = leadingBit ∧ e₁ = e + 1) :
    Closest (t * 2 ^ e) m e₁ := by
  have hvalue : (m : ℚ) * 2 ^ e₁ = r * 2 ^ e := by
    rcases hm with ⟨rfl, rfl⟩ | ⟨hcarry, rfl, rfl⟩
    · rfl
    · rw [hcarry, zpow_add_one₀ (by norm_num)]
      push_cast
      ring
  have hplace : (0 : ℚ) < 2 ^ e := by positivity
  -- another float is farther away or at another integer
  have hother (m' : Nat) (e' : Int) (h' : Canonical m' e') :
      |t - r| * 2 ^ e < |t * 2 ^ e - m' * 2 ^ e'| ∨
        e ≤ e' ∧ |t * 2 ^ e - m' * 2 ^ e'| = |t - (m' * 2 ^ (e' - e).toNat : Nat)| * 2 ^ e := by
    rcases lt_or_ge e' e with hlt | hge
    · left
      have hbelow := h'.lt_of_exponent_lt hlt
      have hfull : (leadingBit : ℚ) ≤ t := ht.full (lt_of_le_of_lt h'.le_exponent hlt)
      calc |t - r| * 2 ^ e ≤ |t - leadingBit| * 2 ^ e :=
            mul_le_mul_of_nonneg_right (hr.le leadingBit) hplace.le
        _ = t * 2 ^ e - leadingBit * 2 ^ e := by
            rw [abs_of_nonneg (by linarith), sub_mul]
        _ < t * 2 ^ e - m' * 2 ^ e' := by linarith
        _ ≤ |t * 2 ^ e - m' * 2 ^ e'| := le_abs_self _
    · right
      exact ⟨hge, by rw [value_eq_mul m' hge, abs_sub_mul]⟩
  refine ⟨hcanonical, fun m' e' h' => ?_, fun m' e' h' hne htie => ?_⟩
  · rw [hvalue, abs_sub_mul]
    rcases hother m' e' h' with hlt | ⟨-, heq⟩
    · exact hlt.le
    · rw [heq]
      exact mul_le_mul_of_nonneg_right (hr.le _) hplace.le
  · rw [hvalue, abs_sub_mul] at htie
    rcases hother m' e' h' with hlt | ⟨hle, heq⟩
    · exact absurd htie hlt.ne
    · rw [heq] at htie
      have htie' := mul_right_cancel₀ hplace.ne' htie
      have hbound := h'.mantissa_lt
      -- the integer is another one, since parts determine a float
      have hk : m' * 2 ^ (e' - e).toNat ≠ r := by
        intro hk
        have hleast := ht.le_exponent
        obtain ⟨j, hj⟩ : ∃ j : Nat, e' = e + j := ⟨(e' - e).toNat, by omega⟩
        rw [hj, add_sub_cancel_left, Int.toNat_natCast] at hk
        rcases j with _ | j
        · have hsame := hcanonical.mantissa_lt
          rw [pow_zero, Nat.mul_one] at hk
          omega
        · have hfull := h'.full (by omega)
          have hmore : m' ≤ m' * 2 ^ j := Nat.le_mul_of_pos_right _ (by positivity)
          have hsame := hcanonical.mantissa_lt
          rw [pow_succ, ← Nat.mul_assoc] at hk
          rcases hm with ⟨rfl, rfl⟩ | ⟨hcarry, rfl, rfl⟩
          · omega
          · -- only the float with the carry is at twice the leading bit
            rcases j with _ | j
            · exact hne ⟨by omega, by omega⟩
            · have htwice : 2 * m' ≤ m' * 2 ^ (j + 1) := by
                rw [pow_succ, ← Nat.mul_assoc, Nat.mul_comm 2]
                exact Nat.mul_le_mul_right 2 (Nat.le_mul_of_pos_right _ (by positivity))
              have hbit : leadingBit = 2 ^ 52 := leadingBit_eq
              omega
      obtain hlt | ⟨-, heven, hodd⟩ := hr.lt_or_tie hk
      · exact absurd htie' hlt.ne
      · have hexponent : (e' - e).toNat = 0 := by
          by_contra hpos
          obtain ⟨j, hj⟩ := Nat.exists_eq_succ_of_ne_zero hpos
          rw [hj, pow_succ, ← Nat.mul_assoc] at hodd
          omega
        rw [hexponent, pow_zero, Nat.mul_one] at hodd
        refine ⟨?_, hodd⟩
        rcases hm with ⟨rfl, -⟩ | ⟨-, rfl, -⟩
        · exact heven
        · decide

/-! ## Rounding to floats -/

/-- A mantissa in canonical form is encoded at its place in the order of the floats. -/
theorem encode_place {m : Nat} {e : Int} (h : Canonical m e) : encode m e = place m e := by
  have hinfinity := h.place_lt_infinity
  unfold encode
  split
  next hlt =>
    -- without the leading bit the exponent is the least one
    have he : e = -1074 := by
      have hleast := h.le_exponent
      by_contra hne
      exact absurd (h.full (by omega)) (by omega)
    rw [he]
    simp [place]
  next hge =>
    -- with it, the biased exponent counts the leading bit once more
    have hplace : (e + 1075).toNat * leadingBit + (m - leadingBit) = place m e := by
      have hleast := h.le_exponent
      rw [place, show (e + 1075).toNat = (e + 1074).toNat + 1 by omega, Nat.succ_mul]
      omega
    dsimp only
    rw [hplace]
    exact Nat.min_eq_left hinfinity.le

/-- A mantissa with a carry has the bits of the leading bit at the next exponent. -/
theorem encode_carry {e : Int} (h : Canonical leadingBit (e + 1)) (he : -1074 ≤ e) :
    encode (2 * leadingBit) e = place leadingBit (e + 1) := by
  have hinfinity := h.place_lt_infinity
  have hbit : leadingBit = 2 ^ 52 := leadingBit_eq
  -- the carry goes into the exponent
  have hplace : (e + 1075).toNat * leadingBit + (2 * leadingBit - leadingBit) =
      place leadingBit (e + 1) := by
    rw [place, show (e + 1075).toNat = (e + 1 + 1074).toNat by omega]
    omega
  unfold encode
  rw [if_neg (by omega)]
  dsimp only
  rw [hplace]
  exact Nat.min_eq_left hinfinity.le

/-- What is too large for the greatest exponent is encoded as infinity. -/
theorem encode_infinity {r : Nat} {e : Int} (hr : leadingBit ≤ r)
    (h : 972 ≤ e ∨ e = 971 ∧ r = 2 * leadingBit) : encode r e = 2047 * leadingBit := by
  unfold encode
  rw [if_neg (by omega)]
  refine Nat.min_eq_right ?_
  -- the exponent is too large, or is the greatest one with a full mantissa carried over
  rcases h with he | ⟨rfl, rfl⟩
  · calc 2047 * leadingBit ≤ (e + 1075).toNat * leadingBit := Nat.mul_le_mul_right _ (by omega)
      _ ≤ _ := Nat.le_add_right _ _
  · decide

/-- The place of a canonical mantissa decodes to it. -/
theorem ofBits_place {m : Nat} {e : Int} (h : Canonical m e) :
    Binary.ofBits (place m e) = .finite false m e := by
  have hleast := h.le_exponent
  have hmost := h.exponent_le
  have hbound := h.mantissa_lt
  have hbit : leadingBit = 2 ^ 52 := leadingBit_eq
  have hshift (n : Nat) : n >>> 52 = n / leadingBit := by
    rw [Nat.shiftRight_eq_div_pow, hbit]
  -- the place is below the sign bit
  have hsign : ((place m e) >>> 63) % 2 = 0 := by
    have := h.place_lt_infinity
    rw [Nat.shiftRight_eq_div_pow, Nat.div_eq_of_lt (by omega)]
  have hpos : 0 < leadingBit := by rw [hbit]; positivity
  unfold Binary.ofBits
  rw [hshift]
  rcases Nat.lt_or_ge m leadingBit with hlt | hge
  · -- a subnormal number: the exponent field is zero
    have he : e = -1074 := by
      by_contra hne
      exact absurd (h.full (by omega)) (by omega)
    have hplace : place m e = m := by rw [he]; simp [place]
    rw [hplace] at hsign ⊢
    rw [Nat.div_eq_of_lt hlt, Nat.mod_eq_of_lt hlt, hsign, he]
    rfl
  · -- a normal number: the leading bit is hidden in the exponent field
    obtain ⟨f, rfl⟩ : ∃ f, m = leadingBit + f := ⟨m - leadingBit, by omega⟩
    have hplace : place (leadingBit + f) e = leadingBit * (e + 1075).toNat + f := by
      rw [place, show (e + 1075).toNat = (e + 1074).toNat + 1 by omega, Nat.mul_comm, Nat.mul_succ]
      omega
    rw [hplace] at hsign ⊢
    rw [Nat.mul_add_div hpos, Nat.div_eq_of_lt (by omega : f < leadingBit), Nat.add_zero,
      Nat.mul_add_mod, Nat.mod_eq_of_lt (by omega : f < leadingBit), hsign,
      Nat.mod_eq_of_lt (by omega)]
    simp only [show ¬(e + 1075).toNat = 2047 by omega, show ¬(e + 1075).toNat = 0 by omega, if_false]
    congr 1
    omega

/-- What is counted in places of a binade is the closest float, or too large for one. -/
theorem closest_or_overflow {t : ℚ} {r : Nat} {e : Int} (hr : NearestInt t r) (ht : InBinade t e) :
    (∃ m e', Closest (t * 2 ^ e) m e' ∧ encode r e = place m e' ∧ t * 2 ^ e < overflow) ∨
      encode r e = 2047 * leadingBit ∧ overflow ≤ t * 2 ^ e := by
  have hbit : leadingBit = 2 ^ 52 := leadingBit_eq
  have hbit' : (1 : ℚ) ≤ leadingBit := by
    rw [hbit]
    norm_num
  have hplace : (0 : ℚ) < 2 ^ e := by positivity
  have hlow := hr.low
  have hhigh := hr.high
  have hle : r ≤ 2 * leadingBit := by
    have : (r : ℚ) < (2 * leadingBit + 1 : Nat) := by
      push_cast
      linarith [ht.lt]
    exact Nat.le_of_lt_succ (by exact_mod_cast this)
  have hfull : -1074 < e → leadingBit ≤ r := by
    intro he
    have : (leadingBit : ℚ) < (r + 1 : Nat) := by
      push_cast
      linarith [ht.full he]
    exact Nat.le_of_lt_succ (by exact_mod_cast this)
  -- below the last exponent there is room for a carry
  have hsmall (he : e ≤ 970) : t * 2 ^ e < overflow := by
    have hpow : (2 : ℚ) ^ (e + 1) ≤ 2 ^ (971 : Int) := zpow_le_zpow_right₀ (by norm_num) (by omega)
    calc t * 2 ^ e < 2 * leadingBit * 2 ^ e := mul_lt_mul_of_pos_right ht.lt hplace
      _ = leadingBit * 2 ^ (e + 1) := by
          rw [zpow_add_one₀ (by norm_num)]
          ring
      _ ≤ leadingBit * 2 ^ (971 : Int) := by gcongr
      _ ≤ overflow := by
          unfold overflow
          gcongr
          linarith
  rcases lt_trichotomy e 971 with he | rfl | he
  · left
    rcases Nat.lt_or_ge r (2 * leadingBit) with hlt | hge
    · have hcanonical : Canonical r e := ⟨hlt, ht.le_exponent, by omega, hfull⟩
      exact ⟨r, e, closest_of_nearestInt hr ht hcanonical (.inl ⟨rfl, rfl⟩),
        encode_place hcanonical, hsmall (by omega)⟩
    · obtain rfl : r = 2 * leadingBit := by omega
      have hleast := ht.le_exponent
      have hcanonical : Canonical leadingBit (e + 1) := ⟨by omega, by omega, by omega, fun _ => le_refl _⟩
      exact ⟨leadingBit, e + 1, closest_of_nearestInt hr ht hcanonical (.inr ⟨rfl, rfl, rfl⟩),
        encode_carry hcanonical hleast, hsmall (by omega)⟩
  · rcases Nat.lt_or_ge r (2 * leadingBit) with hlt | hge
    · have hcanonical : Canonical r 971 := ⟨hlt, ht.le_exponent, le_refl _, hfull⟩
      refine .inl ⟨r, 971, closest_of_nearestInt hr ht hcanonical (.inl ⟨rfl, rfl⟩),
        encode_place hcanonical, ?_⟩
      -- the last mantissa is odd, so half a place above it is not rounded down
      have hlast : t < 2 * leadingBit - 1 / 2 := by
        have hr' : (r : ℚ) + 1 ≤ 2 * leadingBit := by exact_mod_cast hlt
        refine lt_of_le_of_ne (by linarith) fun htie => ?_
        have hodd : r + 1 = 2 * leadingBit := by
          have : ((r + 1 : Nat) : ℚ) = (2 * leadingBit : Nat) := by
            push_cast
            linarith
          exact_mod_cast this
        have heven := hr.even (.inr (by
          have : (r : ℚ) + 1 = 2 * leadingBit := by exact_mod_cast hodd
          linarith))
        omega
      exact mul_lt_mul_of_pos_right hlast hplace
    · obtain rfl : r = 2 * leadingBit := by omega
      refine .inr ⟨encode_infinity (by omega) (.inr ⟨rfl, rfl⟩), ?_⟩
      push_cast at hlow
      exact mul_le_mul_of_nonneg_right hlow hplace.le
  · refine .inr ⟨encode_infinity (hfull (by omega)) (.inl (by omega)), ?_⟩
    calc overflow ≤ 2 * leadingBit * 2 ^ (971 : Int) := by
          unfold overflow
          gcongr
          linarith
      _ = leadingBit * 2 ^ (971 + 1 : Int) := by
          rw [zpow_add_one₀ (by norm_num)]
          ring
      _ ≤ leadingBit * 2 ^ e := by
          gcongr
          exact Int.add_one_le_of_lt he
      _ ≤ t * 2 ^ e := mul_le_mul_of_nonneg_right (ht.full (by omega)) hplace.le

/-- The binade of a quotient is the power of two that it is counted from. -/
theorem binade_spec {num den : Nat} (hnum : 0 < num) (hden : 0 < den) :
    (2 : ℚ) ^ binade num den ≤ num / den ∧ (num : ℚ) / den < 2 ^ (binade num den + 1) := by
  have hden' : (0 : ℚ) < den := by exact_mod_cast hden
  have hpow (n : Nat) (hn : 0 < n) :
      (2 : ℚ) ^ (Nat.log2 n : Int) ≤ n ∧ (n : ℚ) < 2 ^ (Nat.log2 n + 1 : Int) := by
    have hself := Nat.log2_self_le hn.ne'
    have hnext := Nat.lt_log2_self (n := n)
    constructor
    · rw [zpow_natCast]
      exact_mod_cast hself
    · exact_mod_cast hnext
  obtain ⟨hnum_le, hnum_lt⟩ := hpow num hnum
  obtain ⟨hden_le, hden_lt⟩ := hpow den hden
  -- the difference of the two logarithms is the binade or one more
  generalize hguess : (Nat.log2 num : Int) - Nat.log2 den = guess
  have hlow : (2 : ℚ) ^ (guess - 1) < num / den := by
    rw [lt_div_iff₀ hden']
    calc (2 : ℚ) ^ (guess - 1) * den < 2 ^ (guess - 1) * 2 ^ (Nat.log2 den + 1 : Int) := by gcongr
      _ = 2 ^ (Nat.log2 num : Int) := by
          rw [← zpow_add₀ (by norm_num)]
          congr 1
          omega
      _ ≤ num := hnum_le
  have hhigh : (num : ℚ) / den < 2 ^ (guess + 1) := by
    rw [div_lt_iff₀ hden']
    calc (num : ℚ) < 2 ^ (Nat.log2 num + 1 : Int) := hnum_lt
      _ = 2 ^ (guess + 1) * 2 ^ (Nat.log2 den : Int) := by
          rw [← zpow_add₀ (by norm_num)]
          congr 1
          omega
      _ ≤ 2 ^ (guess + 1) * den := by gcongr
  -- which of them is asked by scaling with the guess and comparing with one
  have hscale := scaleTwo_eq hden num (-guess)
  have hscale_pos := scaleTwo_pos hden num (-guess)
  have hscale_pos' : (0 : ℚ) < (scaleTwo num den (-guess)).2 := by exact_mod_cast hscale_pos
  have hguess_pos : (0 : ℚ) < 2 ^ guess := by positivity
  rw [zpow_neg, ← div_eq_mul_inv] at hscale
  unfold binade
  simp only [hguess]
  split
  next hlt =>
    rw [sub_add_cancel]
    have hone : (num : ℚ) / den / 2 ^ guess < 1 := by
      rw [← hscale, div_lt_one hscale_pos']
      exact_mod_cast hlt
    exact ⟨hlow.le, (div_lt_one hguess_pos).1 hone⟩
  next hge =>
    have hone : 1 ≤ (num : ℚ) / den / 2 ^ guess := by
      rw [← hscale, one_le_div hscale_pos']
      exact_mod_cast Nat.le_of_not_lt hge
    exact ⟨(one_le_div hguess_pos).1 hone, hhigh⟩

/-- The bits of the float nearest to a quotient are those of the closest float, unless there is none. -/
theorem nearestBits_cases (num : Nat) {den : Nat} (hden : 0 < den) :
    (∃ m e, Closest (num / den) m e ∧ nearestBits num den = place m e ∧
        (num : ℚ) / den < overflow) ∨
      nearestBits num den = 2047 * leadingBit ∧ overflow ≤ (num : ℚ) / den := by
  have hoverflow : 0 < overflow := by
    unfold overflow
    rw [leadingBit_eq]
    positivity
  -- zero has no binade, and is its own closest number
  rcases Nat.eq_zero_or_pos num with rfl | hnum
  · have hzero : NearestInt 0 0 := ⟨by norm_num, by norm_num, fun _ => rfl⟩
    -- the scaled quotient has the size of a mantissa, which is what rounding needs
    have hin : InBinade 0 (-1074) := ⟨le_refl _, le_refl _, by rw [leadingBit_eq]; norm_num,
      fun h => absurd h (lt_irrefl _)⟩
    rcases closest_or_overflow hzero hin with ⟨m, e, hclosest, hencode, hlt⟩ | ⟨-, hle⟩
    · refine .inl ⟨m, e, by simpa using hclosest, ?_, by simpa using hlt⟩
      rw [← hencode, encode, if_pos (by rw [leadingBit_eq]; positivity), nearestBits]
      rfl
    · rw [zero_mul] at hle
      exact absurd hoverflow (not_lt.2 hle)
  · obtain ⟨hlow, hhigh⟩ := binade_spec hnum hden
    -- the exponent leaves 53 bits for the mantissa, unless that is below the least one
    generalize hexponent : max (binade num den - 52) (-1074) = e
    have hscale := scaleTwo_eq hden num (-e)
    have hbits : nearestBits num den =
        encode (roundDiv (scaleTwo num den (-e)).1 (scaleTwo num den (-e)).2) e := by
      unfold nearestBits
      rw [if_neg (by simp; omega)]
      simp only [hexponent]
    have hplace : (0 : ℚ) < 2 ^ e := by positivity
    have hvalue : (num : ℚ) / den = num / den * 2 ^ (-e) * 2 ^ e := by
      rw [mul_assoc, ← zpow_add₀ (by norm_num), neg_add_cancel, zpow_zero, mul_one]
    have hbit : (leadingBit : ℚ) * 2 ^ e = 2 ^ (e + 52) := by
      rw [leadingBit_eq, zpow_add₀ (by norm_num)]
      push_cast
      ring
    have hin : InBinade (num / den * 2 ^ (-e)) e := by
      refine ⟨by omega, by positivity, ?_, fun he => ?_⟩
      · refine lt_of_mul_lt_mul_right ?_ hplace.le
        rw [← hvalue, mul_assoc, hbit, ← zpow_one_add₀ (by norm_num)]
        exact hhigh.trans_le (zpow_le_zpow_right₀ (by norm_num) (by omega))
      · refine le_of_mul_le_mul_right ?_ hplace
        rw [← hvalue, hbit]
        exact le_trans (zpow_le_zpow_right₀ (by norm_num) (by omega)) hlow
    have hr := nearestInt_roundDiv (n := (scaleTwo num den (-e)).1) (scaleTwo_pos hden num (-e))
    rw [hscale] at hr
    have hcases := closest_or_overflow hr hin
    rwa [← hvalue, ← hbits] at hcases

/-- The parts of the float nearest to a quotient. -/
theorem view_nearest_cases (num : Nat) {den : Nat} (hden : 0 < den) :
    (∃ m e, Closest (num / den) m e ∧ Binary.view (nearest false num den) = .finite false m e ∧
        (num : ℚ) / den < overflow) ∨
      Binary.view (nearest false num den) = .infinite false ∧ overflow ≤ (num : ℚ) / den := by
  -- bits below `2 ^ 64` are taken into a float and back as they are
  have hview {p : Binary} (hlt : nearestBits num den < 2 ^ 64)
      (hp : Binary.ofBits (nearestBits num den) = p) (hnan : p ≠ .nan) :
      Binary.view (nearest false num den) = p := by
    have hbits : (UInt64.ofNat (nearestBits num den)).toNat = nearestBits num den :=
      UInt64.toNat_ofNat_of_lt' hlt
    unfold Binary.view nearest
    simp only [Bool.false_eq_true, if_false]
    rw [toBits_ofBits (by rw [hbits, hp]; exact hnan), hbits, hp]
  rcases nearestBits_cases num hden with ⟨m, e, hclosest, hbits, hlt⟩ | ⟨hbits, hle⟩
  · have hinfinity := hclosest.canonical.place_lt_infinity
    have hbit : leadingBit = 2 ^ 52 := leadingBit_eq
    refine .inl ⟨m, e, hclosest, hview (by omega) ?_ Binary.noConfusion, hlt⟩
    rw [hbits, ofBits_place hclosest.canonical]
  · refine .inr ⟨hview (by rw [hbits, leadingBit_eq]; norm_num) ?_ Binary.noConfusion, hle⟩
    rw [hbits]
    decide

/-- The float nearest to a quotient is the one that the quotient is rounded to. -/
theorem rounds_nearest (num : Nat) {den : Nat} (hden : 0 < den) :
    Rounds (num / den) (nearest false num den) := by
  rcases view_nearest_cases num hden with ⟨m, e, hclosest, hview, hlt⟩ | ⟨hview, hle⟩
  · exact hclosest.rounds hview hlt
  · exact .infinite hview hle

/-- A number is rounded to one float. -/
theorem Rounds.unique {q : ℚ} (hq : 0 ≤ q) {x y : Float} (hx : Rounds q x) (hy : Rounds q y) :
    x = y := by
  -- every number here is a fraction, and its nearest float is known
  have hfraction : q = (q.num.toNat : Nat) / q.den := by
    have hnum : ((q.num.toNat : Nat) : ℚ) = q.num := by
      exact_mod_cast Int.toNat_of_nonneg (Rat.num_nonneg.2 hq)
    rw [hnum, Rat.num_div_den]
  have hcases := view_nearest_cases q.num.toNat q.den_pos
  rw [← hfraction] at hcases
  rcases hcases with ⟨m, e, hclosest, hview, hlt⟩ | ⟨hview, hle⟩
  · rw [hclosest.eq_of_rounds hview hx hlt, hclosest.eq_of_rounds hview hy hlt]
  · cases hx with
    | finite _ hlt => exact absurd hle (not_le.2 hlt)
    | infinite hx => cases hy with
      | finite _ hlt => exact absurd hle (not_le.2 hlt)
      | infinite hy => exact Binary.eq_of_infinite hx hy

/-! ## Decimal numbers -/

/-- Numbers below half the least place are rounded to zero. -/
theorem rounds_zero {q : ℚ} (hq : 0 ≤ q) (hlt : q < 2 ^ (-1075 : Int)) :
    Rounds q (nearest false 0 1) := by
  have hplace : (0 : ℚ) < 2 ^ (-1074 : Int) := by positivity
  obtain ⟨t, rfl⟩ : ∃ t : ℚ, q = t * 2 ^ (-1074 : Int) :=
    ⟨q / 2 ^ (-1074 : Int), (div_mul_cancel₀ _ hplace.ne').symm⟩
  have hnonneg : 0 ≤ t := nonneg_of_mul_nonneg_left hq hplace
  -- in units of the least place the number is below a half
  have hhalf : t < 1 / 2 := by
    refine lt_of_mul_lt_mul_right (hlt.trans_eq ?_) hplace.le
    rw [show (-1075 : Int) = -1 + -1074 by rfl, zpow_add₀ two_ne_zero, zpow_neg_one, one_div]
  have hbit : (1 : ℚ) ≤ leadingBit := by
    rw [leadingBit_eq]
    norm_num
  have hzero : NearestInt t 0 := by
    refine ⟨?_, ?_, fun _ => rfl⟩ <;> push_cast <;> linarith only [hnonneg, hhalf]
  have hin : InBinade t (-1074) :=
    ⟨le_refl _, hnonneg, by linarith only [hbit, hhalf], fun h => absurd h (lt_irrefl _)⟩
  have hclosest : Closest (t * 2 ^ (-1074 : Int)) 0 (-1074) :=
    closest_of_nearestInt hzero hin ⟨by decide, by decide, by decide, by decide⟩ (.inl ⟨rfl, rfl⟩)
  refine hclosest.rounds (by decide) (hlt.trans_le ?_)
  calc (2 : ℚ) ^ (-1075 : Int) ≤ 2 ^ (971 : Int) := zpow_le_zpow_right₀ one_le_two (by decide)
    _ ≤ overflow := le_mul_of_one_le_left (by positivity) (by linarith only [hbit])

/-- The cut-off for large magnitudes is beyond all floats. -/
theorem overflow_le_pow : overflow ≤ (10 ^ 400 : Nat) := by
  calc overflow ≤ 2 * leadingBit * 2 ^ (971 : Int) := by
        unfold overflow
        gcongr
        norm_num
    _ = ((2 ^ 1024 : Nat) : ℚ) := by
        rw [leadingBit_eq, show 1024 = 1 + 52 + 971 by rfl, pow_add, pow_add, pow_one, Nat.cast_mul,
          Nat.cast_mul, Nat.cast_pow 2 971]
        rfl
    _ ≤ (10 ^ 400 : Nat) := Nat.cast_le.2 (two_pow_le_ten_pow (by decide))

/-- Numbers beyond all floats are rounded to infinity. -/
theorem rounds_infinite {q : ℚ} {n : Nat} (hn : overflow ≤ n) (hq : n ≤ q) :
    Rounds q (nearest false n 1) := by
  rcases view_nearest_cases n Nat.one_pos with ⟨_, _, -, -, hlt⟩ | ⟨hview, -⟩
  · rw [Nat.cast_one, div_one] at hlt
    exact absurd hn (not_le.2 hlt)
  · exact .infinite hview (hn.trans hq)

/-- Digits with a power of ten are rounded, whatever their size. -/
theorem rounds_ofDigits (digits : Nat) (exponent : Int) :
    Rounds (digits * 10 ^ exponent) (ofDigits false digits exponent) := by
  unfold ofDigits
  dsimp only
  split
  next hsmall =>
    rw [Bool.or_eq_true, decide_eq_true_eq, decide_eq_true_eq] at hsmall
    -- digits that are zero, or so small that their size alone decides
    refine rounds_zero (by positivity) ?_
    rcases hsmall with rfl | hsmall
    · rw [Nat.cast_zero, zero_mul]
      positivity
    · have hdigits : (digits : ℚ) < 10 ^ (Nat.log2 digits * 28 / 93 + 2) := by
        have hlog := Nat.lt_log2_self (n := digits)
        exact_mod_cast hlog.trans_le (two_pow_le_ten_pow (by omega))
      calc (digits : ℚ) * 10 ^ exponent
          < 10 ^ (Nat.log2 digits * 28 / 93 + 2) * 10 ^ exponent := by gcongr
        _ = 10 ^ ((Nat.log2 digits * 28 / 93 + 2 : Nat) + exponent) := by
            rw [zpow_add₀ (by norm_num), zpow_natCast]
        _ ≤ 10 ^ (-399 : Int) := zpow_le_zpow_right₀ (by norm_num) (by push_cast; omega)
        _ ≤ 2 ^ (-1075 : Int) := ten_zpow_le_two_zpow (by norm_num) (by norm_num)
  next hsmall =>
    rw [Bool.or_eq_true, decide_eq_true_eq, decide_eq_true_eq, not_or] at hsmall
    split
    next hlarge =>
      -- so large that their size alone decides
      refine rounds_infinite overflow_le_pow ?_
      have hdigits : (10 : ℚ) ^ (Nat.log2 digits * 3 / 10) ≤ digits := by
        have hlog := Nat.log2_self_le hsmall.1
        exact_mod_cast (ten_pow_le_two_pow (by omega)).trans hlog
      calc ((10 ^ 400 : Nat) : ℚ) = 10 ^ (400 : Int) := Nat.cast_pow 10 400
        _ ≤ 10 ^ ((Nat.log2 digits * 3 / 10 : Nat) + exponent) :=
            zpow_le_zpow_right₀ (by norm_num) (by push_cast; omega)
        _ = 10 ^ (Nat.log2 digits * 3 / 10) * 10 ^ exponent := by
            rw [zpow_add₀ (by norm_num), zpow_natCast]
        _ ≤ digits * 10 ^ exponent := by gcongr
    next =>
      -- all others are rounded as the fraction that they are
      have hscale := scaleTen_eq Nat.one_pos digits exponent
      rw [Nat.cast_one, div_one] at hscale
      rw [← hscale]
      exact rounds_nearest _ (scaleTen_pos Nat.one_pos digits exponent)

/-- The number that digits with a point among them stand for. -/
def numeralValue (cs : List Char) : ℚ :=
  Nat.ofDigitChars 10 (beforePoint cs ++ behindPoint cs) 0 / 10 ^ (behindPoint cs).length

/-- A word without a sign stands for no negative number. -/
theorem numeralValue_nonneg (cs : List Char) : 0 ≤ numeralValue cs := by
  unfold numeralValue
  positivity

/-- A numeral is read as its value, rounded. -/
theorem IsNumeral.rounds_readUnsigned? {cs : List Char} (h : IsNumeral cs) :
    ∃ x, readUnsigned? false cs = some x ∧ Rounds (numeralValue cs) x := by
  refine ⟨_, h.readUnsigned?_eq, ?_⟩
  have hvalue : numeralValue cs = (ofDigitChars (beforePoint cs ++ behindPoint cs) : ℚ) *
      10 ^ (-(behindPoint cs).length : Int) := by
    rw [zpow_neg, zpow_natCast, ← div_eq_mul_inv]
    rfl
  rw [hvalue]
  exact rounds_ofDigits _ _

end BrailleScript.Decimal
