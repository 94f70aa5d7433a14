import Mathlib
import BrailleScript.Decimal.Shortest

/-!
# Shortest digits tell floats apart

The digits that `shortest` finds are a point of the interval of all numbers that round to a float,
and the intervals of different floats have no point in common: where two of them touch, the point
belongs to the one with the even mantissa.  So the digits determine the float.

## Key results

- `Interval.has_of_pick`, `Interval.isSome_pick`: grid points are taken inside, and a fine grid has
  one
- `has_shortest`: the search does not give up before it finds one
- `Interval.has_unique`: intervals do not overlap
- `shortest_inj`: floats with one shortest value are one float
-/

namespace BrailleScript.Decimal

/-- The number that digits stand for. -/
def Digits.value (d : Digits) : ℚ :=
  d.digits * 10 ^ d.exponent

/-- The parts of a finite float: the leading bit is there unless the exponent is the smallest. -/
structure Canonical (m : Nat) (e : Int) : Prop where
  mantissa_lt : m < 2 * leadingBit
  le_exponent : -1074 ≤ e
  exponent_le : e ≤ 971
  full : -1074 < e → leadingBit ≤ m

/-- The leading bit is a power of two. -/
theorem leadingBit_eq : leadingBit = 2 ^ 52 := by
  decide

/-! ## Fractions -/

/-- Scaling by a power of two keeps the denominator positive. -/
theorem scaleTwo_pos {d : Nat} (hd : 0 < d) (n : Nat) (e : Int) : 0 < (scaleTwo n d e).2 := by
  unfold scaleTwo
  split
  · exact hd
  · rw [Nat.shiftLeft_eq]
    positivity

/-- Scaling by a power of two is what it says. -/
theorem scaleTwo_eq {d : Nat} (hd : 0 < d) (n : Nat) (e : Int) :
    ((scaleTwo n d e).1 : ℚ) / (scaleTwo n d e).2 = n / d * 2 ^ e := by
  unfold scaleTwo
  have hd' : (d : ℚ) ≠ 0 := by positivity
  -- a positive exponent goes to the numerator, a negative one to the denominator
  split
  case isTrue he =>
    obtain ⟨k, rfl⟩ := Int.eq_ofNat_of_zero_le he
    simp only [Int.toNat_natCast, Nat.shiftLeft_eq, zpow_natCast]
    push_cast
    ring
  case isFalse he =>
    obtain ⟨k, rfl⟩ : ∃ k : Nat, e = -k := ⟨(-e).toNat, by omega⟩
    simp only [neg_neg, Int.toNat_natCast, Nat.shiftLeft_eq, zpow_neg, zpow_natCast]
    push_cast
    field_simp

/-- So does scaling by a power of ten. -/
theorem scaleTen_pos {d : Nat} (hd : 0 < d) (n : Nat) (e : Int) : 0 < (scaleTen n d e).2 := by
  unfold scaleTen
  split
  · exact hd
  · exact Nat.mul_pos hd (Nat.pow_pos (by decide))

/-- Scaling by a power of ten is what it says. -/
theorem scaleTen_eq {d : Nat} (hd : 0 < d) (n : Nat) (e : Int) :
    ((scaleTen n d e).1 : ℚ) / (scaleTen n d e).2 = n / d * 10 ^ e := by
  unfold scaleTen
  have hd' : (d : ℚ) ≠ 0 := by positivity
  -- as with powers of two
  split
  case isTrue he =>
    obtain ⟨k, rfl⟩ := Int.eq_ofNat_of_zero_le he
    simp only [Int.toNat_natCast, Nat.pow_eq, zpow_natCast]
    push_cast
    ring
  case isFalse he =>
    obtain ⟨k, rfl⟩ : ∃ k : Nat, e = -k := ⟨(-e).toNat, by omega⟩
    simp only [neg_neg, Int.toNat_natCast, Nat.pow_eq, zpow_neg, zpow_natCast]
    push_cast
    field_simp

/-- The denominator does not depend on what is scaled. -/
theorem scaleTen_den (n n' d : Nat) (e : Int) : (scaleTen n d e).2 = (scaleTen n' d e).2 := by
  unfold scaleTen
  split <;> rfl

namespace Interval

/-- A quarter of the last binary place. -/
def quarter (i : Interval) : ℚ :=
  i.unit / i.scale

/-- A number is not below the interval. -/
def FromLow (i : Interval) (x : ℚ) : Prop :=
  if i.closed then i.low * i.quarter ≤ x else i.low * i.quarter < x

/-- A number is not above the interval. -/
def ToHigh (i : Interval) (x : ℚ) : Prop :=
  if i.closed then x ≤ i.high * i.quarter else x < i.high * i.quarter

/-- A number lies in the interval. -/
def Has (i : Interval) (x : ℚ) : Prop :=
  i.FromLow x ∧ i.ToHigh x

/-- The value is inside, away from the ends. -/
structure Sound (i : Interval) : Prop where
  low_lt : i.low < i.value
  lt_high : i.value < i.high
  unit_pos : 0 < i.unit
  scale_pos : 0 < i.scale

variable {i : Interval}

/-- The unit of an interval is positive. -/
theorem Sound.quarter_pos (h : i.Sound) : 0 < i.quarter := by
  have hunit := h.unit_pos
  have hscale := h.scale_pos
  unfold quarter
  positivity

/-- An end of the interval, or its value, counted in grid steps. -/
theorem Sound.scaled (h : i.Sound) (n : Nat) (k : Int) :
    ((scaleTen (n * i.unit) i.scale (-k)).1 : ℚ) / (scaleTen (i.value * i.unit) i.scale (-k)).2 =
      n * i.quarter / 10 ^ k := by
  rw [scaleTen_den (i.value * i.unit) (n * i.unit), scaleTen_eq h.scale_pos, quarter, zpow_neg]
  push_cast
  ring

/-- A number and a grid point, compared in grid steps. -/
private theorem le_mul_iff {n g den : Nat} {y : ℚ} {k : Int} (hden : 0 < den)
    (h : (n : ℚ) / den = y / 10 ^ k) : n ≤ g * den ↔ y ≤ g * 10 ^ k := by
  have hten : (0 : ℚ) < 10 ^ k := by positivity
  have hden' : (0 : ℚ) < den := by positivity
  rw [← div_le_iff₀ hten, ← h, div_le_iff₀ hden']
  exact_mod_cast Iff.rfl

/-- Comparing with a multiple of the denominator is comparing the numbers. -/
private theorem mul_le_iff {n g den : Nat} {y : ℚ} {k : Int} (hden : 0 < den)
    (h : (n : ℚ) / den = y / 10 ^ k) : g * den ≤ n ↔ g * 10 ^ k ≤ y := by
  have hten : (0 : ℚ) < 10 ^ k := by positivity
  have hden' : (0 : ℚ) < den := by positivity
  rw [← le_div_iff₀ hten, ← h, le_div_iff₀ hden']
  exact_mod_cast Iff.rfl

/-- The grid point at or below the value, counted in grid steps of `10 ^ k`. -/
def below (i : Interval) (k : Int) : Nat :=
  (scaleTen (i.value * i.unit) i.scale (-k)).1 / (scaleTen (i.value * i.unit) i.scale (-k)).2

/-- The grid point below the value is not above it. -/
theorem Sound.below_le (h : i.Sound) (k : Int) : i.below k * 10 ^ k ≤ i.value * i.quarter := by
  have hden := scaleTen_pos h.scale_pos (i.value * i.unit) (-k)
  rw [← mul_le_iff hden (h.scaled i.value k)]
  exact Nat.div_mul_le_self ..

/-- The next grid point is above the value. -/
theorem Sound.lt_above (h : i.Sound) (k : Int) :
    i.value * i.quarter < (i.below k + 1 : Nat) * 10 ^ k := by
  have hden := scaleTen_pos h.scale_pos (i.value * i.unit) (-k)
  rw [← not_le, ← mul_le_iff hden (h.scaled i.value k), not_le]
  exact Nat.lt_mul_of_div_lt (Nat.lt_succ_self _) hden

/-- Grid points are compared with the ends of the interval as whole numbers. -/
theorem Sound.fromLow_iff (h : i.Sound) (g : Nat) (k : Int) :
    i.FromLow (g * 10 ^ k) ↔
      if i.closed then
        (scaleTen (i.low * i.unit) i.scale (-k)).1 ≤
          g * (scaleTen (i.value * i.unit) i.scale (-k)).2
      else
        (scaleTen (i.low * i.unit) i.scale (-k)).1 <
          g * (scaleTen (i.value * i.unit) i.scale (-k)).2 := by
  have hden := scaleTen_pos h.scale_pos (i.value * i.unit) (-k)
  have hlow := h.scaled i.low k
  unfold FromLow
  split
  · rw [le_mul_iff hden hlow]
  · rw [← not_le, ← not_le, mul_le_iff hden hlow]

/-- Being below the upper end is comparing integers. -/
theorem Sound.toHigh_iff (h : i.Sound) (g : Nat) (k : Int) :
    i.ToHigh (g * 10 ^ k) ↔
      if i.closed then
        g * (scaleTen (i.value * i.unit) i.scale (-k)).2 ≤
          (scaleTen (i.high * i.unit) i.scale (-k)).1
      else
        g * (scaleTen (i.value * i.unit) i.scale (-k)).2 <
          (scaleTen (i.high * i.unit) i.scale (-k)).1 := by
  have hden := scaleTen_pos h.scale_pos (i.value * i.unit) (-k)
  have hhigh := h.scaled i.high k
  unfold ToHigh
  split
  · rw [mul_le_iff hden hhigh]
  · rw [← not_le, ← not_le, le_mul_iff hden hhigh]

/-- The choice between two neighbouring grid points, of which `below` may be inside the interval and
so may the one above it. -/
def choose (belowIn aboveIn : Prop) [Decidable belowIn] [Decidable aboveIn] (tie : Tie)
    (below position den : Nat) : Option Nat :=
  if belowIn && aboveIn then
    if 2 * (position % den) < den then some below
    else if den < 2 * (position % den) then some (below + 1)
    else
      match tie with
      | .up => some (below + 1)
      | .toEven => some (below + below % 2)
  else if belowIn then some below
  else if aboveIn then some (below + 1)
  else none

section Choose

variable {belowIn aboveIn : Prop} [Decidable belowIn] [Decidable aboveIn] {tie : Tie}
  {below position den d : Nat}

/-- A point that is inside is chosen. -/
theorem choose_cases (h : choose belowIn aboveIn tie below position den = some d) :
    d = below ∧ belowIn ∨ d = below + 1 ∧ aboveIn := by
  unfold choose at h
  simp only [Bool.and_eq_true, decide_eq_true_eq] at h
  -- both points are inside, or one of them
  split_ifs at h with hboth hless hmore hbelow habove
  · exact .inl ⟨(Option.some.inj h).symm, hboth.1⟩
  · exact .inr ⟨(Option.some.inj h).symm, hboth.2⟩
  · cases tie with
    | up => exact .inr ⟨(Option.some.inj h).symm, hboth.2⟩
    | toEven =>
      have hd : below + below % 2 = d := Option.some.inj h
      rcases Nat.mod_two_eq_zero_or_one below with hparity | hparity
      · exact .inl ⟨by omega, hboth.1⟩
      · exact .inr ⟨by omega, hboth.2⟩
  · exact .inl ⟨(Option.some.inj h).symm, hbelow⟩
  · exact .inr ⟨(Option.some.inj h).symm, habove⟩

/-- If the point below is inside, one of the two is chosen. -/
theorem isSome_choose (h : belowIn) :
    (choose belowIn aboveIn tie below position den).isSome = true := by
  unfold choose
  simp only [Bool.and_eq_true, decide_eq_true_eq]
  split_ifs
  · rfl
  · rfl
  · cases tie <;> rfl
  · rfl

end Choose

/-- What is picked is the grid point below the value or the one above it, whichever is inside. -/
theorem Sound.pick_cases (h : i.Sound) {tie : Tie} {k : Int} {d : Nat}
    (hpick : i.pick tie k = some d) :
    d = i.below k ∧ i.FromLow (i.below k * 10 ^ k) ∨
      d = i.below k + 1 ∧ i.ToHigh ((i.below k + 1 : Nat) * 10 ^ k) := by
  rw [h.fromLow_iff, h.toHigh_iff]
  exact choose_cases hpick

/-- What is picked on a grid is inside the interval. -/
theorem Sound.has_of_pick (h : i.Sound) {tie : Tie} {k : Int} {d : Nat}
    (hpick : i.pick tie k = some d) : i.Has (Digits.value ⟨d, k⟩) := by
  have hquarter := h.quarter_pos
  have hlow : (i.low : ℚ) < i.value := by exact_mod_cast h.low_lt
  have hhigh : (i.value : ℚ) < i.high := by exact_mod_cast h.lt_high
  rcases h.pick_cases hpick with ⟨rfl, hin⟩ | ⟨rfl, hin⟩
  · -- the point is below the value, hence below the upper end
    have hlt : i.below k * (10 : ℚ) ^ k < i.high * i.quarter :=
      lt_of_le_of_lt (h.below_le k) (by gcongr)
    refine ⟨hin, ?_⟩
    unfold ToHigh
    split
    · exact hlt.le
    · exact hlt
  · -- the point above the value is above the lower end
    have hlt : i.low * i.quarter < ((i.below k + 1 : Nat) : ℚ) * 10 ^ k :=
      lt_trans (by gcongr) (h.lt_above k)
    refine ⟨?_, hin⟩
    unfold FromLow
    split
    · exact hlt.le
    · exact hlt

/-- A grid whose steps are no longer than the way to the lower end has a point inside. -/
theorem Sound.isSome_pick (h : i.Sound) (tie : Tie) {k : Int}
    (hfine : 10 ^ k ≤ (i.value - i.low) * i.quarter) : (i.pick tie k).isSome = true := by
  -- the next point of the grid is beyond the value, so the one below is not far
  have hlow : i.FromLow (i.below k * 10 ^ k) := by
    have := h.lt_above k
    push_cast at this
    unfold FromLow
    split <;> linarith
  rw [h.fromLow_iff] at hlow
  exact isSome_choose hlow

/-- A search that reaches such a grid ends inside. -/
theorem Sound.has_search (h : i.Sound) (tie : Tie) (steps : Nat) (k : Int)
    (hfine : 10 ^ (k - steps) ≤ (i.value - i.low) * i.quarter) :
    i.Has (i.search tie (steps + 1) k).value := by
  -- the induction is on the grids that are left
  induction steps generalizing k with
  | zero =>
    have hsome := h.isSome_pick tie (by simpa using hfine)
    obtain ⟨d, hd⟩ := Option.isSome_iff_exists.1 hsome
    rw [search, hd]
    exact h.has_of_pick hd
  | succ steps ih =>
    rw [search]
    cases hpick : i.pick tie k with
    | some d => exact h.has_of_pick hpick
    | none =>
      apply ih
      rwa [show k - 1 - (steps : Int) = k - (steps + 1 : Nat) by omega]

/-- The unit of the interval of a float is a quarter of its place. -/
theorem quarter_of (m : Nat) (e : Int) : (Interval.of m e).quarter = 2 ^ e / 4 := by
  have h := scaleTwo_eq (d := 4) (by decide) 1 e
  calc (Interval.of m e).quarter = (1 : Nat) / (4 : Nat) * 2 ^ e := h
    _ = 2 ^ e / 4 := by push_cast; ring

/-- The interval of a float has its value inside. -/
theorem sound_of {m : Nat} (hm : 0 < m) (e : Int) : (Interval.of m e).Sound where
  low_lt := by
    show 4 * m - (if _ then 1 else 2) < 4 * m
    split <;> omega
  lt_high := by
    show 4 * m < 4 * m + 2
    omega
  unit_pos := by
    show 0 < (scaleTwo 1 4 e).1
    unfold scaleTwo
    split
    · rw [Nat.shiftLeft_eq]
      positivity
    · exact Nat.one_pos
  scale_pos := scaleTwo_pos (by decide) 1 e

end Interval

/-! ## The search is long enough -/

/-- Three digits are less than ten bits. -/
theorem ten_pow_le_two_pow {k n : Nat} (h : 10 * k ≤ 3 * n) : 10 ^ k ≤ 2 ^ n := by
  -- a thousand is less than 1024
  have hcubes : (10 ^ k) ^ 3 ≤ (2 ^ n) ^ 3 := by
    calc (10 ^ k) ^ 3 = (10 ^ 3) ^ k := by rw [← pow_mul, ← pow_mul, Nat.mul_comm]
      _ ≤ (2 ^ 10) ^ k := Nat.pow_le_pow_left (by decide) k
      _ = 2 ^ (10 * k) := by rw [← pow_mul]
      _ ≤ 2 ^ (3 * n) := Nat.pow_le_pow_right (by decide) h
      _ = (2 ^ n) ^ 3 := by rw [← pow_mul, Nat.mul_comm]
  exact (Nat.pow_le_pow_iff_left (by decide)).1 hcubes

/-- Twenty-eight digits are more than ninety-three bits. -/
theorem two_pow_le_ten_pow {k n : Nat} (h : 28 * n ≤ 93 * k) : 2 ^ n ≤ 10 ^ k := by
  -- the powers are compared in steps of 28 digits and 93 bits
  have hpowers : (2 ^ n) ^ 28 ≤ (10 ^ k) ^ 28 := by
    calc (2 ^ n) ^ 28 = 2 ^ (28 * n) := by rw [← pow_mul, Nat.mul_comm]
      _ ≤ 2 ^ (93 * k) := Nat.pow_le_pow_right (by decide) h
      _ = (2 ^ 93) ^ k := by rw [← pow_mul]
      _ ≤ (10 ^ 28) ^ k := Nat.pow_le_pow_left (by decide) k
      _ = (10 ^ k) ^ 28 := by rw [← pow_mul, ← pow_mul, Nat.mul_comm]
  exact (Nat.pow_le_pow_iff_left (by decide)).1 hpowers

/-- Powers of ten against powers of two, with negative exponents too. -/
theorem ten_zpow_le_two_zpow {k n : Int} (hpos : 10 * k ≤ 3 * n) (hneg : 93 * k ≤ 28 * n) :
    (10 : ℚ) ^ k ≤ 2 ^ n := by
  -- the bounds for natural powers hold with either sign, but turned around for negative ones
  rcases le_or_gt 0 k with hk | hk
  · obtain ⟨a, rfl⟩ := Int.eq_ofNat_of_zero_le hk
    obtain ⟨b, rfl⟩ := Int.eq_ofNat_of_zero_le (show 0 ≤ n by omega)
    rw [zpow_natCast, zpow_natCast]
    exact_mod_cast ten_pow_le_two_pow (show 10 * a ≤ 3 * b by omega)
  · obtain ⟨a, rfl⟩ : ∃ a : Nat, k = -a := ⟨k.natAbs, by omega⟩
    rcases le_or_gt 0 n with hn | hn
    · calc (10 : ℚ) ^ (-a : Int) ≤ 1 := zpow_le_one_of_nonpos₀ (by norm_num) hk.le
        _ ≤ 2 ^ n := one_le_zpow₀ (by norm_num) hn
    · obtain ⟨b, rfl⟩ : ∃ b : Nat, n = -b := ⟨n.natAbs, by omega⟩
      rw [zpow_neg, zpow_neg, zpow_natCast, zpow_natCast]
      apply inv_anti₀ (by positivity)
      exact_mod_cast two_pow_le_ten_pow (show 28 * b ≤ 93 * a by omega)

/-- The last grid of a search is fine enough for every float. -/
theorem has_shortest {m : Nat} {e : Int} (h : Canonical m e) (hm : 0 < m) (tie : Tie) :
    (Interval.of m e).Has (shortest tie m e).value := by
  have hlog : Nat.log2 m < 53 := by
    have := h.mantissa_lt
    rw [leadingBit_eq] at this
    exact (Nat.log2_lt (by omega)).2 (by omega)
  have hexponents := And.intro h.le_exponent h.exponent_le
  rw [shortest, if_neg (by omega)]
  apply (Interval.sound_of hm e).has_search tie 23
  -- the lower end is a unit or more below the value
  have hgap : (1 : ℚ) ≤ (Interval.of m e).value - (Interval.of m e).low := by
    have hlt := (Interval.sound_of hm e).low_lt
    rw [le_sub_iff_add_le, add_comm]
    exact_mod_cast hlt
  calc (10 : ℚ) ^ (((Nat.log2 m : Int) + e + 1) * 30103 / 100000 + 1 - (23 : Nat)) ≤ 2 ^ (e - 2) :=
        ten_zpow_le_two_zpow (by omega) (by omega)
    _ = 1 * (Interval.of m e).quarter := by
        rw [Interval.quarter_of, zpow_sub₀ (by norm_num)]
        norm_num
    _ ≤ _ := by
        have := (Interval.sound_of hm e).quarter_pos
        gcongr

/-! ## Intervals do not overlap -/

namespace Interval

variable {m m' : Nat} {e e' : Int} {x : ℚ}

/-- What is inside is not above the upper end, and below it if the end does not belong. -/
theorem Has.le_high {i : Interval} (h : i.Has x) :
    x ≤ i.high * i.quarter ∧ (i.closed = false → x < i.high * i.quarter) := by
  have hhigh := h.2
  unfold ToHigh at hhigh
  split_ifs at hhigh with hclosed
  · exact ⟨hhigh, fun hopen => by simp [hclosed] at hopen⟩
  · exact ⟨hhigh.le, fun _ => hhigh⟩

/-- What is inside is not below the lower end, and above it if the end does not belong. -/
theorem Has.low_le {i : Interval} (h : i.Has x) :
    i.low * i.quarter ≤ x ∧ (i.closed = false → i.low * i.quarter < x) := by
  have hlow := h.1
  unfold FromLow at hlow
  split_ifs at hlow with hclosed
  · exact ⟨hlow, fun hopen => by simp [hclosed] at hopen⟩
  · exact ⟨hlow.le, fun _ => hlow⟩

/-- The ends of the interval of an odd mantissa do not belong to it. -/
theorem closed_of_odd (h : m % 2 = 1) (e : Int) : (Interval.of m e).closed = false := by
  show decide (m % 2 = 0) = false
  simp [h]

/-- The upper end is half a place above the float. -/
theorem high_of (m : Nat) (e : Int) :
    ((Interval.of m e).high : ℚ) * (Interval.of m e).quarter = (m + 1 / 2) * 2 ^ e := by
  rw [quarter_of]
  show ((4 * m + 2 : Nat) : ℚ) * (2 ^ e / 4) = _
  push_cast
  ring

/-- The lower end is not farther away than that. -/
theorem le_low_of (hm : 0 < m) (e : Int) :
    (m - 1 / 2) * 2 ^ e ≤ ((Interval.of m e).low : ℚ) * (Interval.of m e).quarter := by
  have hlow : 4 * m - 2 ≤ (Interval.of m e).low := by
    show 4 * m - 2 ≤ 4 * m - (if _ then 1 else 2)
    split <;> omega
  -- no bits are lost in the subtraction, as the mantissa is positive
  have hsub : ((4 * m - 2 : Nat) : ℚ) = 4 * m - 2 := by
    rw [Nat.cast_sub (by omega)]
    push_cast
    ring
  calc (m - 1 / 2) * (2 : ℚ) ^ e = ((4 * m - 2 : Nat) : ℚ) * (2 ^ e / 4) := by rw [hsub]; ring
    _ ≤ (Interval.of m e).low * (2 ^ e / 4) := by gcongr
    _ = _ := by rw [quarter_of]

/-- Above the smallest exponent it lies at least a quarter of a place below the leading bit. -/
theorem le_low_of_full (h : Canonical m e) (he : -1074 < e) :
    (leadingBit - 1 / 4) * 2 ^ e ≤ ((Interval.of m e).low : ℚ) * (Interval.of m e).quarter := by
  have hfull := h.full he
  have hlow : 4 * leadingBit - 1 ≤ (Interval.of m e).low := by
    show 4 * leadingBit - 1 ≤
      4 * m - (if decide (m = leadingBit) && decide (-1074 < e) then 1 else 2)
    -- below a power of two the next float is nearer
    by_cases hm : m = leadingBit
    · simp [hm, he]
    · have : ¬(decide (m = leadingBit) && decide (-1074 < e)) = true := by simp [hm]
      rw [if_neg this]
      omega
  have hsub : ((4 * leadingBit - 1 : Nat) : ℚ) = 4 * leadingBit - 1 := by
    rw [leadingBit_eq]
    norm_num
  calc (leadingBit - 1 / 4) * (2 : ℚ) ^ e = ((4 * leadingBit - 1 : Nat) : ℚ) * (2 ^ e / 4) := by
        rw [hsub]
        ring
    _ ≤ (Interval.of m e).low * (2 ^ e / 4) := by gcongr
    _ = _ := by rw [quarter_of]

/-- No number rounds to two floats with one exponent. -/
theorem Has.not_of_mantissa_lt (hx : (Interval.of m e).Has x) (hlt : m < m') :
    ¬(Interval.of m' e).Has x := by
  intro hx'
  have hhigh := high_of m e ▸ hx.le_high
  have hlow := hx'.low_le
  have hend := le_low_of (Nat.zero_lt_of_lt hlt) e
  rcases Nat.lt_or_ge (m + 1) m' with hfar | hnear
  · -- there are floats between the two
    have hgap : ((m : ℚ) + 1 / 2) * 2 ^ e < (m' - 1 / 2) * 2 ^ e := by
      have : (m : ℚ) + 1 < m' := by exact_mod_cast hfar
      gcongr
      linarith
    linarith [hhigh.1, hlow.1]
  · -- the intervals touch, and one of the mantissas is odd
    obtain rfl : m' = m + 1 := by omega
    have htouch : ((m + 1 : Nat) - 1 / 2 : ℚ) * 2 ^ e = (m + 1 / 2) * 2 ^ e := by
      push_cast
      ring
    rcases Nat.mod_two_eq_zero_or_one m with heven | hodd
    · linarith [hhigh.1, hlow.2 (closed_of_odd (by omega) e)]
    · linarith [hhigh.2 (closed_of_odd hodd e), hlow.1]

/-- Nor to two floats with different exponents. -/
theorem Has.not_of_exponent_lt (h : Canonical m e) (h' : Canonical m' e')
    (hx : (Interval.of m e).Has x) (hlt : e < e') : ¬(Interval.of m' e').Has x := by
  intro hx'
  have hhigh := high_of m e ▸ hx.le_high
  have hend := le_low_of_full h' (lt_of_le_of_lt h.le_exponent hlt)
  have hlow := hx'.low_le.1
  -- the place of the greater exponent is twice as large or more
  have hdouble : (2 : ℚ) * 2 ^ e ≤ 2 ^ e' := by
    calc (2 : ℚ) * 2 ^ e = 2 ^ (e + 1) := by rw [zpow_add_one₀ (by norm_num), mul_comm]
      _ ≤ 2 ^ e' := zpow_le_zpow_right₀ (by norm_num) hlt
  have hbit : (1 : ℚ) / 4 < leadingBit := by
    rw [leadingBit_eq]
    norm_num
  have hfrom : (2 * leadingBit - 1 / 2) * (2 : ℚ) ^ e ≤ (leadingBit - 1 / 4) * 2 ^ e' := by
    calc (2 * leadingBit - 1 / 2) * (2 : ℚ) ^ e = (leadingBit - 1 / 4) * (2 * 2 ^ e) := by ring
      _ ≤ (leadingBit - 1 / 4) * 2 ^ e' := by gcongr
  have hmantissa := h.mantissa_lt
  rcases Nat.lt_or_ge (m + 1) (2 * leadingBit) with hfar | hlast
  · have hgap : ((m : ℚ) + 1 / 2) * 2 ^ e < (2 * leadingBit - 1 / 2) * 2 ^ e := by
      have : (m : ℚ) + 1 < 2 * leadingBit := by exact_mod_cast hfar
      gcongr
      linarith
    linarith [hhigh.1]
  · -- the last mantissa is odd
    have htouch : ((m : ℚ) + 1 / 2) * 2 ^ e = (2 * leadingBit - 1 / 2) * 2 ^ e := by
      have : (m : ℚ) + 1 = 2 * leadingBit := by exact_mod_cast (by omega : m + 1 = 2 * leadingBit)
      rw [← this]
      ring
    linarith [hhigh.2 (closed_of_odd (by omega) e)]

/-- Every number rounds to one float at most. -/
theorem has_unique (h : Canonical m e) (h' : Canonical m' e') (hx : (Interval.of m e).Has x)
    (hx' : (Interval.of m' e').Has x) : m = m' ∧ e = e' := by
  -- the intervals of different floats have no number in common
  rcases lt_trichotomy e e' with he | rfl | he
  · exact absurd hx' (hx.not_of_exponent_lt h h' he)
  · rcases lt_trichotomy m m' with hm | rfl | hm
    · exact absurd hx' (hx.not_of_mantissa_lt hm)
    · exact ⟨rfl, rfl⟩
    · exact absurd hx (hx'.not_of_mantissa_lt hm)
  · exact absurd hx (hx'.not_of_exponent_lt h' h he)

/-- What is inside the interval of a positive float is positive. -/
theorem Has.pos (hm : 0 < m) (hx : (Interval.of m e).Has x) : 0 < x := by
  have hplace : (0 : ℚ) < 2 ^ e := by positivity
  have hm' : (1 : ℚ) ≤ m := by exact_mod_cast hm
  calc (0 : ℚ) < (m - 1 / 2) * 2 ^ e := mul_pos (by linarith) hplace
    _ ≤ x := (le_low_of hm e).trans hx.low_le.1

end Interval

/-- Floats whose shortest digits stand for one number have the same parts. -/
theorem shortest_inj {m m' : Nat} {e e' : Int} (h : Canonical m e) (h' : Canonical m' e')
    {tie : Tie} (hvalue : (shortest tie m e).value = (shortest tie m' e').value) :
    m = m' ∧ e = e' := by
  have hzero {e : Int} : (shortest tie 0 e).value = 0 := by simp [shortest, Digits.value]
  have hleast {e : Int} (h : Canonical 0 e) : e = -1074 := by
    by_contra hne
    have hle := h.le_exponent
    exact absurd (h.full (by omega)) (by decide)
  rcases Nat.eq_zero_or_pos m with rfl | hm <;> rcases Nat.eq_zero_or_pos m' with rfl | hm'
  · exact ⟨rfl, by rw [hleast h, hleast h']⟩
  · have := (has_shortest h' hm' tie).pos hm'
    rw [← hvalue, hzero] at this
    exact absurd this (lt_irrefl 0)
  · have := (has_shortest h hm tie).pos hm
    rw [hvalue, hzero] at this
    exact absurd this (lt_irrefl 0)
  · -- the intervals of two floats have nothing in common
    exact Interval.has_unique h h' (has_shortest h hm tie) (hvalue ▸ has_shortest h' hm' tie)

end BrailleScript.Decimal
