import Mathlib
import BrailleScript.Proofs.Decimal.Rounding

/-!
# Floats and their bits

A float is its bits, but for the one float that is not a number.  The parts of a finite float are
read off its bits (`Binary.view`) and determine it.  The order of floats is that of their bits, where
a negative sign turns the order of the bits behind it around.

## Key results

- `Binary.bits_of_finite`, `Binary.view_inj`: parts and bits of finite floats
- `toBits_ofBits`: all bits are those of a float, unless they stand for no number
- `packed`: the bits of what a float is unpacked to
- `bitsRank_lt_of_lt`: smaller floats have smaller ranks
-/

namespace BrailleScript.Decimal

/-! ## Parts -/

/-- The bits that the parts of a finite float were read off. -/
theorem Binary.bits_of_finite {bits : Nat} {negative : Bool} {m : Nat} {e : Int}
    (h : Binary.ofBits bits = .finite negative m e) :
    (negative = true ↔ (bits >>> 63) % 2 = 1) ∧
      ((bits >>> 52) % 2048 = 0 ∧ m = bits % leadingBit ∧ e = -1074 ∨
        0 < (bits >>> 52) % 2048 ∧ (bits >>> 52) % 2048 < 2047 ∧
        m = leadingBit + bits % leadingBit ∧
          e = ((bits >>> 52) % 2048 : Nat) - 1075) := by
  have hlt : (bits >>> 52) % 2048 < 2048 := Nat.mod_lt _ (by decide)
  unfold ofBits at h
  simp only at h
  -- a subnormal float has no leading bit of its own
  split_ifs at h with hspecial hzero hleast
  · cases h
    exact ⟨decide_eq_true_iff, .inl ⟨hleast, rfl, rfl⟩⟩
  · cases h
    exact ⟨decide_eq_true_iff, .inr ⟨by omega, by omega, rfl, rfl⟩⟩

/-- The bits of what is no number. -/
theorem Binary.bits_of_nan {bits : Nat} (h : Binary.ofBits bits = .nan) :
    (bits >>> 52) % 2048 = 2047 ∧ bits % leadingBit ≠ 0 := by
  unfold ofBits at h
  simp only at h
  split_ifs at h with hspecial hsome
  exact ⟨hspecial, hsome⟩

/-- The bits of an infinity. -/
theorem Binary.bits_of_infinite {bits : Nat} {negative : Bool}
    (h : Binary.ofBits bits = .infinite negative) :
    (negative = true ↔ (bits >>> 63) % 2 = 1) ∧ (bits >>> 52) % 2048 = 2047 ∧
      bits % leadingBit = 0 := by
  unfold ofBits at h
  simp only at h
  split_ifs at h with hspecial hzero hleast
  cases h
  exact ⟨decide_eq_true_iff, hspecial, hzero⟩

/-- The parts of a finite float are those of one number only. -/
theorem Binary.canonical {bits : Nat} {negative : Bool} {m : Nat} {e : Int}
    (h : Binary.ofBits bits = .finite negative m e) : Canonical m e := by
  have hlt : bits % leadingBit < leadingBit := Nat.mod_lt _ (by decide)
  obtain ⟨-, ⟨-, rfl, rfl⟩ | ⟨hpos, hmax, rfl, rfl⟩⟩ := bits_of_finite h
  · exact ⟨by omega, by omega, by omega, fun hless => absurd hless (by omega)⟩
  · exact ⟨by omega, by omega, by omega, fun _ => by omega⟩

/-- The sign, the exponent and the fraction are all there is in the bits. -/
theorem Binary.bits_eq_sum {bits : Nat} (hbits : bits < 2 ^ 64) :
    bits = 2 ^ 63 * ((bits >>> 63) % 2) + leadingBit * ((bits >>> 52) % 2048) +
      bits % leadingBit := by
  rw [Nat.shiftRight_eq_div_pow, Nat.shiftRight_eq_div_pow, leadingBit_eq]
  omega

/-- The parts of a finite float determine its bits. -/
theorem Binary.ofBits_inj {bits bits' : Nat} (hbits : bits < 2 ^ 64) (hbits' : bits' < 2 ^ 64)
    {negative : Bool} {m : Nat} {e : Int} (h : Binary.ofBits bits = .finite negative m e)
    (h' : Binary.ofBits bits' = .finite negative m e) : bits = bits' := by
  obtain ⟨hsign, hrest⟩ := bits_of_finite h
  obtain ⟨hsign', hrest'⟩ := bits_of_finite h'
  -- field by field, the bits agree
  have hnegative : (bits >>> 63) % 2 = (bits' >>> 63) % 2 := by
    have := hsign.symm.trans hsign'
    omega
  have hlt : bits % leadingBit < leadingBit := Nat.mod_lt _ (by decide)
  have hlt' : bits' % leadingBit < leadingBit := Nat.mod_lt _ (by decide)
  have hexponent : (bits >>> 52) % 2048 = (bits' >>> 52) % 2048 := by omega
  have hfraction : bits % leadingBit = bits' % leadingBit := by omega
  rw [bits_eq_sum hbits, bits_eq_sum hbits', hnegative, hexponent, hfraction]

/-! ## Fields -/

section Fields

open Float.Model

/-- The sign of 64 bits. -/
abbrev signField (bits : UInt64) : BitVec 1 :=
  @UnpackedFloat.unpackSign Format.binary64 bits.toBitVec

/-- Their exponent. -/
abbrev exponentField (bits : UInt64) : BitVec 11 :=
  @UnpackedFloat.unpackExponent Format.binary64 bits.toBitVec

/-- Their fraction. -/
abbrev fractionField (bits : UInt64) : BitVec 52 :=
  @UnpackedFloat.unpackMantissa Format.binary64 bits.toBitVec

/-- The sign is the highest bit. -/
theorem toNat_signField (bits : UInt64) :
    (signField bits).toNat = (bits.toNat >>> 63) % 2 := by
  rw [signField, UnpackedFloat.unpackSign, BitVec.toNat_cast, BitVec.extractLsb_toNat]
  rfl

/-- The exponent is in the eleven bits below it. -/
theorem toNat_exponentField (bits : UInt64) :
    (exponentField bits).toNat = (bits.toNat >>> 52) % 2048 := by
  rw [exponentField, UnpackedFloat.unpackExponent, BitVec.toNat_cast, BitVec.extractLsb_toNat]
  rfl

/-- The fraction is in the bits that are left. -/
theorem toNat_fractionField (bits : UInt64) :
    (fractionField bits).toNat = bits.toNat % leadingBit := by
  rw [fractionField, UnpackedFloat.unpackMantissa, BitVec.toNat_cast, BitVec.extractLsb_toNat]
  rfl

/-- Bits that do not stand for "not a number" are those of a float. -/
theorem toBits_ofBits {bits : UInt64} (h : Binary.ofBits bits.toNat ≠ .nan) :
    (Float.ofBits bits).toBits = bits := by
  -- the only invalid bits have the greatest exponent and a fraction, and these decode to a NaN
  have hvalid : Format.binary64.Valid bits.toBitVec := by
    refine ⟨fun hexponent hfraction => absurd ?_ h⟩
    have hspecial : (bits.toNat >>> 52) % 2048 = 2047 := by
      rw [← toNat_exponentField, exponentField, hexponent]
      rfl
    have hsome : bits.toNat % leadingBit ≠ 0 := by
      rw [← toNat_fractionField]
      exact fun hzero => hfraction (BitVec.eq_of_toNat_eq hzero)
    unfold Binary.ofBits
    simp only [hspecial, if_true, if_neg hsome]
  exact congrArg Float.toBits (Float.ofBits_toBits ⟨⟨bits, hvalid⟩⟩)

/-- The exponent of a finite float is not the one that is set aside for other floats. -/
theorem exponent_of_isFinite {x : Float} (h : x.isFinite = true) :
    (x.toBits.toNat >>> 52) % 2048 ≠ 2047 := by
  intro hexponent
  -- with all ones the float would be unpacked as no number
  have hones : @UnpackedFloat.unpackExponent Format.binary64 x.toModel.toBits.toBitVec =
      -BitVec.ofNat 11 1 := by
    apply BitVec.eq_of_toNat_eq
    exact (toNat_exponentField x.toBits).trans hexponent
  have hfinite :
      (UnpackedFloat.unpack Format.binary64 x.toModel.toBits.toBitVec).isFinite = true := h
  unfold UnpackedFloat.unpack at hfinite
  rw [if_pos hones] at hfinite
  split at hfinite <;> exact absurd hfinite Bool.false_ne_true

/-- A finite float has a sign, a mantissa and an exponent. -/
theorem Binary.view_of_isFinite {x : Float} (h : x.isFinite = true) :
    ∃ negative m e, Binary.view x = .finite negative m e := by
  have hexponent := exponent_of_isFinite h
  unfold view ofBits
  simp only [if_neg hexponent]
  split
  · exact ⟨_, _, _, rfl⟩
  · exact ⟨_, _, _, rfl⟩

/-- A float is its bits. -/
theorem eq_of_toBits {x y : Float} (h : x.toBits.toNat = y.toBits.toNat) : x = y := by
  rw [← Float.ofBits_toBits x, ← Float.ofBits_toBits y, UInt64.toNat_inj.1 h]

/-- The parts of a finite float determine it. -/
theorem Binary.view_inj {x y : Float} {negative : Bool} {m : Nat} {e : Int}
    (hx : Binary.view x = .finite negative m e) (hy : Binary.view y = .finite negative m e) :
    x = y :=
  eq_of_toBits (ofBits_inj x.toBits.toNat_lt y.toBits.toNat_lt hx hy)

/-- There is one infinity of each sign. -/
theorem Binary.eq_of_infinite {x y : Float} {negative : Bool}
    (hx : Binary.view x = .infinite negative) (hy : Binary.view y = .infinite negative) : x = y := by
  obtain ⟨hsign, hexponent, hfraction⟩ := bits_of_infinite hx
  obtain ⟨hsign', hexponent', hfraction'⟩ := bits_of_infinite hy
  -- only the sign is left to tell them apart
  have hnegative : (x.toBits.toNat >>> 63) % 2 = (y.toBits.toNat >>> 63) % 2 := by
    have := hsign.symm.trans hsign'
    omega
  apply eq_of_toBits
  rw [bits_eq_sum x.toBits.toNat_lt, bits_eq_sum y.toBits.toNat_lt, hnegative, hexponent,
    hexponent', hfraction, hfraction']

end Fields

/-! ## The order of floats -/

section Order

open Float.Model

/-- The bit of a sign. -/
def signBit : UnpackedFloat.Sign → Nat
  | .positive => 0
  | .negative => 2 ^ 63

/-- The bits of a finite number behind those of its sign. -/
def place (m : Nat) (e : Int) : Nat :=
  (e + 1074).toNat * leadingBit + m

/-- What stands for a number or an infinity in 64 bits. -/
inductive Packed : Nat → UnpackedFloat → Prop
  | infinity (s) : Packed (signBit s + 2047 * leadingBit) (.infinity s)
  | zero (s) : Packed (signBit s) (.zero s)
  | finite (s) {m : Nat} {e : Int} (hpos : 0 < m) (hcanonical : Canonical m e) :
    Packed (signBit s + place m e) (.finite s m e hpos)

namespace Canonical

variable {m m' : Nat} {e e' : Int}

/-- Greater exponents, and greater mantissas at one exponent, have greater bits. -/
theorem place_lt (h : Canonical m e) (h' : Canonical m' e') (hlt : e < e' ∨ e = e' ∧ m < m') :
    place m e < place m' e' := by
  have hleast := h.le_exponent
  have hbound := h.mantissa_lt
  unfold place
  rcases hlt with hlt | ⟨rfl, hlt⟩
  · -- a greater exponent is above the least one, so its mantissa has the leading bit
    have hfull := h'.full (by omega)
    calc (e + 1074).toNat * leadingBit + m < ((e + 1074).toNat + 1) * leadingBit + leadingBit := by
          rw [Nat.succ_mul]
          omega
      _ ≤ (e' + 1074).toNat * leadingBit + m' :=
          Nat.add_le_add (Nat.mul_le_mul_right _ (by omega)) hfull
  · exact Nat.add_lt_add_left hlt _

/-- Every finite float is placed below infinity. -/
theorem place_lt_infinity (h : Canonical m e) : place m e < 2047 * leadingBit := by
  have hbound := h.mantissa_lt
  have hmost := h.exponent_le
  calc (e + 1074).toNat * leadingBit + m < 2045 * leadingBit + 2 * leadingBit :=
        Nat.add_lt_add_of_le_of_lt (Nat.mul_le_mul_right _ (by omega)) hbound
    _ = 2047 * leadingBit := by rw [← Nat.add_mul]

/-- Every float but zero is placed above zero. -/
theorem place_pos (hm : 0 < m) (e : Int) : 0 < place m e :=
  Nat.lt_of_lt_of_le hm (Nat.le_add_left _ _)

end Canonical

/-- The sign bit counts by its place. -/
theorem signBit_ofBitVec (v : BitVec 1) : signBit (.ofBitVec v) = 2 ^ 63 * v.toNat := by
  revert v
  decide

/-- The hidden bit stands in front of the fraction. -/
theorem toNat_one_append (fraction : BitVec 52) :
    (1#1 ++ fraction).toNat = leadingBit + fraction.toNat := by
  rw [BitVec.toNat_append, ← Nat.shiftLeft_add_eq_or_of_lt fraction.isLt]
  rfl

/-- The bits of every float but the NaNs are packed from its parts. -/
theorem packed {x : Float} (h : x.isNaN = false) : Packed x.toBits.toNat x.toModel.unpack := by
  have hsum := Binary.bits_eq_sum x.toBits.toNat_lt
  rw [← toNat_signField, ← toNat_exponentField, ← toNat_fractionField, ← signBit_ofBitVec,
    Nat.add_assoc] at hsum
  have hfraction : (fractionField x.toBits).toNat < leadingBit := BitVec.isLt _
  have hexponent : (exponentField x.toBits).toNat < 2048 := BitVec.isLt _
  have hnan : (UnpackedFloat.unpack Format.binary64 x.toBits.toBitVec).isNaN = false := h
  show Packed _ (UnpackedFloat.unpack Format.binary64 x.toBits.toBitVec)
  rw [hsum]
  unfold UnpackedFloat.unpack at hnan ⊢
  dsimp only at hnan ⊢
  split
  next hones =>
    -- the greatest exponent: without a fraction it is an infinity, else a NaN
    rw [if_pos hones] at hnan
    split
    next hzero =>
      rw [exponentField, fractionField, hones, hzero]
      exact .infinity _
    next hzero =>
      rw [if_neg hzero] at hnan
      cases hnan
  next hones =>
    have hmax : (exponentField x.toBits).toNat ≠ 2047 := fun h => hones (BitVec.eq_of_toNat_eq h)
    split
    next hleast =>
      -- the least exponent: zero, or a fraction without a leading bit
      have hexponent : (exponentField x.toBits).toNat = 0 := congrArg BitVec.toNat hleast
      split
      next hzero =>
        rw [hexponent, fractionField, hzero]
        exact .zero _
      next hzero =>
        have hplace : leadingBit * 0 + (fractionField x.toBits).toNat =
            place (fractionField x.toBits).toNat (-1074) := by simp [place]
        rw [hexponent, hplace]
        exact .finite _ _ ⟨by omega, le_refl _, by decide, fun h => absurd h (lt_irrefl _)⟩
    next hleast =>
      -- any other exponent hides the leading bit
      have hpos : (exponentField x.toBits).toNat ≠ 0 := fun h => hleast (BitVec.eq_of_toNat_eq h)
      have hplace : leadingBit * (exponentField x.toBits).toNat + (fractionField x.toBits).toNat =
          place (1#1 ++ fractionField x.toBits).toNat ((exponentField x.toBits).toNat - 1075) := by
        rw [place, toNat_one_append, Nat.mul_comm, ← Nat.add_assoc, ← Nat.succ_mul]
        congr 2
        omega
      rw [hplace]
      refine .finite _ _ ⟨?_, ?_, ?_, fun _ => ?_⟩
      · rw [toNat_one_append]
        omega
      · omega
      · omega
      · rw [toNat_one_append]
        exact Nat.le_add_right _ _

/-- The place of 64 bits among all, by the number that they stand for. -/
def bitsRank (bits : Nat) : Int :=
  if bits < 2 ^ 63 then bits else 2 ^ 63 - 1 - bits

/-- Bits with a sign rank by their distance from zero, the negative ones downwards. -/
theorem bitsRank_signBit (s : UnpackedFloat.Sign) {p : Nat} (h : p < 2 ^ 63) :
    bitsRank (signBit s + p) = match s with
      | .positive => (p : Int)
      | .negative => -1 - p := by
  have hpositive : signBit .positive = 0 := rfl
  have hnegative : signBit .negative = 2 ^ 63 := rfl
  unfold bitsRank
  cases s with
  | positive => rw [if_pos (by omega), hpositive, Nat.zero_add]
  | negative =>
    rw [if_neg (by omega), hnegative]
    push_cast
    ring

/-- Exponents are compared first, and mantissas where they are equal. -/
theorem then_compare_eq_lt {m m' : Nat} {e e' : Int} :
    (compare e e').then (compare m m') = .lt ↔ e < e' ∨ e = e' ∧ m < m' := by
  rw [Ordering.then_eq_lt, compare_lt_iff_lt, compare_eq_iff_eq, compare_lt_iff_lt]

/-- The same with the greater one in front. -/
theorem then_compare_eq_gt {m m' : Nat} {e e' : Int} :
    (compare e e').then (compare m m') = .gt ↔ e' < e ∨ e' = e ∧ m' < m := by
  rw [Ordering.then_eq_gt, compare_gt_iff_gt, compare_eq_iff_eq, compare_gt_iff_gt, eq_comm]

/-- Packed bits rank as the floats that they are packed from are ordered. -/
theorem Packed.rank_lt {b c : Nat} {u v : UnpackedFloat} (hu : Packed b u) (hv : Packed c v)
    (h : u.lt v = true) : bitsRank b < bitsRank c := by
  have hbit : leadingBit = 2 ^ 52 := leadingBit_eq
  have hlt : u.compare v = some .lt := by simpa [UnpackedFloat.lt] using h
  have hzero (s) : bitsRank (signBit s) = bitsRank (signBit s + 0) := rfl
  -- floats of different kinds are ordered by their signs and kinds alone
  cases hu with
  | infinity s =>
    rw [bitsRank_signBit s (by omega)]
    cases hv with
    | infinity t =>
      rw [bitsRank_signBit t (by omega)]
      revert hlt
      cases s <;> cases t <;> decide
    | zero t =>
      rw [hzero, bitsRank_signBit t (by omega)]
      cases s <;> cases t <;> simp [UnpackedFloat.compare, hbit] at hlt ⊢
    | finite t hpos hcanonical =>
      have hplace := hcanonical.place_lt_infinity
      rw [bitsRank_signBit t (by omega)]
      cases s <;> cases t <;> simp [UnpackedFloat.compare] at hlt ⊢ <;> omega
  | zero s =>
    rw [hzero, bitsRank_signBit s (by omega)]
    cases hv with
    | infinity t =>
      rw [bitsRank_signBit t (by omega)]
      cases s <;> cases t <;> simp [UnpackedFloat.compare, hbit] at hlt ⊢
    | zero t => simp [UnpackedFloat.compare] at hlt
    | @finite t m e hpos hcanonical =>
      have hplace := hcanonical.place_lt_infinity
      have hplace_pos := Canonical.place_pos hpos e
      rw [bitsRank_signBit t (by omega)]
      cases s <;> cases t <;> simp [UnpackedFloat.compare] at hlt ⊢ <;> omega
  | @finite s m e hpos hcanonical =>
    have hplace := hcanonical.place_lt_infinity
    have hplace_pos := Canonical.place_pos hpos e
    rw [bitsRank_signBit s (by omega)]
    cases hv with
    | infinity t =>
      rw [bitsRank_signBit t (by omega)]
      cases s <;> cases t <;> simp [UnpackedFloat.compare] at hlt ⊢ <;> omega
    | zero t =>
      rw [hzero, bitsRank_signBit t (by omega)]
      cases s <;> cases t <;> simp [UnpackedFloat.compare] at hlt ⊢ <;> omega
    | @finite t m' e' hpos' hcanonical' =>
      have hplace' := hcanonical'.place_lt_infinity
      rw [bitsRank_signBit t (by omega)]
      -- two finite ones of the same sign are ordered as their places, in the direction of the sign
      cases s <;> cases t <;> simp only [UnpackedFloat.compare, Option.some.injEq] at hlt ⊢
      · have hgt := then_compare_eq_gt.1 (Ordering.swap_eq_lt.1 hlt)
        have hless := hcanonical'.place_lt hcanonical hgt
        omega
      · omega
      · cases hlt
      · have hmore := hcanonical.place_lt hcanonical' (then_compare_eq_lt.1 hlt)
        omega

/-- Numbers and infinities have ranks up to that of the infinity of their sign. -/
theorem Packed.bitsRank_bounds {b : Nat} {u : UnpackedFloat} (h : Packed b u) :
    -1 - (2047 * leadingBit : Nat) ≤ bitsRank b ∧ bitsRank b ≤ (2047 * leadingBit : Nat) := by
  have hbit : leadingBit = 2 ^ 52 := leadingBit_eq
  -- all places are up to that of the infinity
  have hbounds (s : UnpackedFloat.Sign) {p : Nat} (hp : p ≤ 2047 * leadingBit) :
      -1 - (2047 * leadingBit : Nat) ≤ bitsRank (signBit s + p) ∧
        bitsRank (signBit s + p) ≤ (2047 * leadingBit : Nat) := by
    rw [bitsRank_signBit s (by omega)]
    cases s with
    | positive =>
      dsimp only
      omega
    | negative =>
      dsimp only
      omega
  cases h with
  | infinity s => exact hbounds s (Nat.le_refl _)
  | zero s => exact hbounds s (Nat.zero_le _)
  | finite s hpos hcanonical => exact hbounds s hcanonical.place_lt_infinity.le

/-- Nothing is less or greater than what is no number. -/
theorem not_isNaN_of_lt {x y : Float} (h : x < y) : x.isNaN = false ∧ y.isNaN = false := by
  have hlt : x.toModel.unpack.lt y.toModel.unpack = true := of_decide_eq_true h
  show x.toModel.unpack.isNaN = false ∧ y.toModel.unpack.isNaN = false
  constructor
  · -- a NaN on the left compares with nothing
    cases hu : x.toModel.unpack with
    | notANumber =>
      rw [hu] at hlt
      cases hlt
    | _ => rfl
  · -- nor does one on the right
    cases hv : y.toModel.unpack with
    | notANumber =>
      rw [hv] at hlt
      cases hu : x.toModel.unpack <;> rw [hu] at hlt <;> cases hlt
    | _ => rfl

/-- Smaller floats have smaller ranks. -/
theorem bitsRank_lt_of_lt {x y : Float} (h : x < y) :
    bitsRank x.toBits.toNat < bitsRank y.toBits.toNat := by
  obtain ⟨hx, hy⟩ := not_isNaN_of_lt h
  exact (packed hx).rank_lt (packed hy) (of_decide_eq_true h)

end Order

end BrailleScript.Decimal
