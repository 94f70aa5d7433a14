import Mathlib
import BrailleScript.Decimal.Layout
import BrailleScript.Decimal.Reading
import BrailleScript.Proofs.Decimal.Parts

/-!
# The text of a float tells which float it is

However the digits of a float are laid out, the number they stand for can be read off the text, and
that number determines the float.

## Key results

- `Layout.numeral_magnitude`: the text of a magnitude is a numeral of its value
- `Numeral.unique`: a numeral stands for one number
- `Layout.write_inj`: finite floats with one text are one float
-/

namespace BrailleScript.Decimal

/-! ## Numerals -/

/-- Two texts that agree have their first characters without a property at one place. -/
theorem append_inj_of_all {p : Char → Bool} {w w' r r' : List Char} (hw : ∀ c ∈ w, p c = true)
    (hw' : ∀ c ∈ w', p c = true) (hr : ∀ c ∈ r.head?, p c = false)
    (hr' : ∀ c ∈ r'.head?, p c = false) (h : w ++ r = w' ++ r') : w = w' ∧ r = r' := by
  -- the first characters are those in front of the first one without the property
  have htake {w r : List Char} (hw : ∀ c ∈ w, p c = true) (hr : ∀ c ∈ r.head?, p c = false) :
      (w ++ r).takeWhile p = w := by
    rw [List.takeWhile_append_of_pos hw]
    cases r with
    | nil => simp
    | cons c r => rw [List.takeWhile_cons_of_neg (by simp [hr c rfl]), List.append_nil]
  have hwhole : w = w' := by rw [← htake hw hr, h, htake hw' hr']
  subst hwhole
  exact ⟨rfl, List.append_cancel_left h⟩

/-- A number as it is written: digits, perhaps a point and more digits, perhaps a power of ten. -/
structure Numeral where
  whole : List Char
  fraction : Option (List Char) := none
  /-- The sign of the power and its digits. -/
  power : Option (List Char × List Char) := none
  whole_ne : whole ≠ []
  whole_digits : ∀ c ∈ whole, c.isDigit = true
  fraction_digits : ∀ ds ∈ fraction, ∀ c ∈ ds, c.isDigit = true
  power_sign : ∀ p ∈ power, p.1 ∈ [[], ['+'], ['-']]
  power_digits : ∀ p ∈ power, ∀ c ∈ p.2, c.isDigit = true

namespace Numeral

/-- The point with the digits behind it, if there is one. -/
def fractionText (n : Numeral) : List Char :=
  n.fraction.elim [] ('.' :: ·)

/-- The power of ten with its letter, if there is one. -/
def powerText (n : Numeral) : List Char :=
  n.power.elim [] fun p => 'e' :: (p.1 ++ p.2)

/-- The characters of a numeral. -/
def text (n : Numeral) : List Char :=
  n.whole ++ (n.fractionText ++ n.powerText)

/-- The power of ten that is written. -/
def exponent (n : Numeral) : Int :=
  n.power.elim 0 fun p => if p.1 = ['-'] then -ofDigitChars p.2 else ofDigitChars p.2

/-- The number that a numeral stands for. -/
def value (n : Numeral) : ℚ :=
  ofDigitChars (n.whole ++ n.fraction.getD []) * 10 ^ (n.exponent - (n.fraction.getD []).length)

/-- A power of ten begins with its letter. -/
theorem head?_powerText (n : Numeral) : ∀ c ∈ n.powerText.head?, c = 'e' := by
  unfold powerText
  cases n.power <;> simp

/-- No digit follows the digits of the whole part. -/
theorem head?_rest (n : Numeral) :
    ∀ c ∈ (n.fractionText ++ n.powerText).head?, c.isDigit = false := by
  intro c hc
  unfold fractionText at hc
  -- the rest begins with the point or with the letter of the power
  cases hn : n.fraction with
  | none =>
    rw [hn] at hc
    rw [n.head?_powerText c hc]
    decide
  | some ds =>
    rw [hn] at hc
    obtain rfl : '.' = c := by simpa using hc
    decide

/-- The characters that numerals are written with. -/
theorem mem_text {n : Numeral} {c : Char} (h : c ∈ n.text) :
    c.isDigit = true ∨ c ∈ ['.', 'e', '+', '-'] := by
  unfold text fractionText powerText at h
  -- the whole part, the digits behind the point, and the power
  rcases List.mem_append.1 h with h | h
  · exact .inl (n.whole_digits c h)
  rcases List.mem_append.1 h with h | h
  · cases hn : n.fraction with
    | none => simp [hn] at h
    | some ds =>
      rw [hn] at h
      rcases List.mem_cons.1 h with rfl | h
      · exact .inr (by simp)
      · exact .inl (n.fraction_digits ds hn c h)
  · cases hn : n.power with
    | none => simp [hn] at h
    | some p =>
      rw [hn] at h
      rcases List.mem_cons.1 h with rfl | h
      · exact .inr (by simp)
      rcases List.mem_append.1 h with h | h
      · have hsign := n.power_sign p hn
        simp only [List.mem_cons, List.not_mem_nil, or_false] at hsign
        rcases hsign with hs | hs | hs <;> rw [hs] at h <;> simp at h <;> simp [h]
      · exact .inl (n.power_digits p hn c h)

/-- The mark of a fraction or of a power is seen. -/
theorem mark_mem_text {n : Numeral} (h : n.fraction.isSome = true ∨ n.power.isSome = true) :
    ∃ c ∈ n.text, c = '.' ∨ c = 'e' := by
  unfold text fractionText powerText
  rcases h with h | h
  · obtain ⟨ds, hds⟩ := Option.isSome_iff_exists.1 h
    exact ⟨'.', by simp [hds], .inl rfl⟩
  · obtain ⟨p, hp⟩ := Option.isSome_iff_exists.1 h
    exact ⟨'e', by simp [hp], .inr rfl⟩

/-- The text of a power determines its sign and its digits. -/
theorem power_eq {n n' : Numeral} (h : n.powerText = n'.powerText) : n.power = n'.power := by
  unfold powerText at h
  have hsign (n : Numeral) (p : List Char × List Char) (hp : n.power = some p) :
      ∀ c ∈ p.1, (!c.isDigit) = true := by
    have := n.power_sign p hp
    simp only [List.mem_cons, List.not_mem_nil, or_false] at this
    rcases this with hs | hs | hs <;> simp [hs, Char.isDigit]
  have hdigits (n : Numeral) (p : List Char × List Char) (hp : n.power = some p) :
      ∀ c ∈ p.2.head?, (!c.isDigit) = false := by
    intro c hc
    rw [n.power_digits p hp c (List.mem_of_mem_head? hc)]
    rfl
  -- two powers differ in their signs or in their digits
  cases hp : n.power with
  | none => cases hp' : n'.power with
    | none => rfl
    | some p' => simp [hp, hp'] at h
  | some p => cases hp' : n'.power with
    | none => simp [hp, hp'] at h
    | some p' =>
      simp only [hp, hp', Option.elim_some, List.cons.injEq, true_and] at h
      obtain ⟨h₁, h₂⟩ := append_inj_of_all (hsign n p hp) (hsign n' p' hp') (hdigits n p hp)
        (hdigits n' p' hp') h
      rw [Prod.ext h₁ h₂]

/-- A text is read as a numeral in one way. -/
theorem text_inj {n n' : Numeral} (h : n.text = n'.text) : n = n' := by
  obtain ⟨hwhole, hrest⟩ := append_inj_of_all n.whole_digits n'.whole_digits n.head?_rest
    n'.head?_rest h
  have hfollow (n : Numeral) : ∀ c ∈ n.powerText.head?, c.isDigit = false := by
    intro c hc
    rw [n.head?_powerText c hc]
    decide
  obtain ⟨hfraction, hpower⟩ : n.fraction = n'.fraction ∧ n.powerText = n'.powerText := by
    -- a numeral with a point and one without differ right after their whole parts
    have hpoint {n n' : Numeral} {ds : List Char} (hn : n.fraction = some ds)
        (hn' : n'.fraction = none) :
        n.fractionText ++ n.powerText ≠ n'.fractionText ++ n'.powerText := by
      intro heq
      have hhead := congrArg List.head? heq
      simp only [fractionText, hn, hn', Option.elim_some, Option.elim_none, List.cons_append,
        List.head?_cons, List.nil_append] at hhead
      exact absurd (n'.head?_powerText '.' hhead.symm) (by decide)
    cases hn : n.fraction with
    | none => cases hn' : n'.fraction with
      | none => simpa [fractionText, hn, hn'] using hrest
      | some ds' => exact absurd hrest.symm (hpoint hn' hn)
    | some ds => cases hn' : n'.fraction with
      | none => exact absurd hrest (hpoint hn hn')
      | some ds' =>
        simp only [fractionText, hn, hn', Option.elim_some, List.cons_append, List.cons.injEq,
          true_and] at hrest
        obtain ⟨rfl, hpower⟩ := append_inj_of_all (n.fraction_digits ds hn)
          (n'.fraction_digits ds' hn') (hfollow n) (hfollow n') hrest
        exact ⟨rfl, hpower⟩
  have hp := power_eq hpower
  cases n
  cases n'
  simp_all

end Numeral

/-! ## Digits -/

/-- Digits in front count by the number of digits behind them. -/
theorem ofDigitChars_append (a b : List Char) :
    ofDigitChars (a ++ b) = ofDigitChars a * 10 ^ b.length + ofDigitChars b := by
  have h : ofDigitChars (a ++ b) = Nat.ofDigitChars 10 b (ofDigitChars a) :=
    Nat.ofDigitChars_append 0
  rw [h, Nat.ofDigitChars_eq_ofDigitChars_zero, Nat.mul_comm]
  rfl

/-- Zeros have no value. -/
theorem ofDigitChars_zeros (n : Nat) : ofDigitChars (List.replicate n '0') = 0 := by
  have h : ofDigitChars (List.replicate n '0') = 10 ^ n * 0 := Nat.ofDigitChars_replicate_zero
  rw [h, Nat.mul_zero]

/-- The digits of a number have its value. -/
theorem ofDigitChars_natDigits (n : Nat) : ofDigitChars (natDigits n) = n :=
  Nat.ofDigitChars_ten_toDigits

/-- The digits of a number are digits. -/
theorem isDigit_of_mem_natDigits {n : Nat} {c : Char} (h : c ∈ natDigits n) : c.isDigit = true :=
  Nat.isDigit_of_mem_toDigits (by decide) (by decide) h

/-- Every number has a digit. -/
theorem natDigits_ne_nil (n : Nat) : natDigits n ≠ [] :=
  Nat.toDigits_ne_nil

/-- Digits with zeros in front of them, so that one stands before the point. -/
def padded (places digits : Nat) : List Char :=
  List.replicate (places + 1 - (natDigits digits).length) '0' ++ natDigits digits

/-- Padding leaves a digit in front of the point. -/
theorem lt_length_padded (places digits : Nat) : places < (padded places digits).length := by
  rw [padded, List.length_append, List.length_replicate]
  omega

/-- Padded digits are digits. -/
theorem isDigit_of_mem_padded {places digits : Nat} {c : Char} (h : c ∈ padded places digits) :
    c.isDigit = true := by
  rcases List.mem_append.1 h with h | h
  · rw [List.eq_of_mem_replicate h]
    decide
  · exact isDigit_of_mem_natDigits h

/-- Zeros in front have no value. -/
theorem ofDigitChars_padded (places digits : Nat) :
    ofDigitChars (padded places digits) = digits := by
  rw [padded, ofDigitChars_append, ofDigitChars_zeros, ofDigitChars_natDigits, Nat.zero_mul,
    Nat.zero_add]

/-! ## Layouts -/

/-- A numeral that is written for digits; where a point is asked for there is one, or a power. -/
structure Written (pointZero : Bool) (d : Digits) (cs : List Char) (n : Numeral) : Prop where
  text : n.text = cs
  value : n.value = d.value
  marked : pointZero = true → n.fraction.isSome = true ∨ n.power.isSome = true

/-- The numeral with a point in front of its last digits. -/
def Numeral.pointed (places digits : Nat) : Numeral where
  whole := (padded places digits).take ((padded places digits).length - places)
  fraction := some ((padded places digits).drop ((padded places digits).length - places))
  whole_ne h := by
    have hlength := congrArg List.length h
    have := lt_length_padded places digits
    rw [List.length_take, List.length_nil] at hlength
    omega
  whole_digits c hc := isDigit_of_mem_padded (List.mem_of_mem_take hc)
  fraction_digits := by
    rintro ds ⟨⟩ c hc
    exact isDigit_of_mem_padded (List.mem_of_mem_drop hc)
  power_sign := by rintro p ⟨⟩
  power_digits := by rintro p ⟨⟩

/-- The point in front of so many digits divides by their power of ten. -/
theorem Numeral.value_pointed (places digits : Nat) :
    (Numeral.pointed places digits).value = digits * 10 ^ (-places : Int) := by
  have hlength := lt_length_padded places digits
  -- so many digits stand behind the point
  have hfraction :
      ((padded places digits).drop ((padded places digits).length - places)).length = places := by
    rw [List.length_drop]
    omega
  simp only [value, pointed, exponent, Option.getD_some, List.take_append_drop,
    ofDigitChars_padded, hfraction, Option.elim_none, zero_sub]

/-- The digits of a whole number with all its zeros. -/
def wholeDigits (digits zeros : Nat) : List Char :=
  if digits = 0 then ['0'] else natDigits digits ++ List.replicate zeros '0'

/-- Zeros behind multiply by their power of ten. -/
theorem ofDigitChars_wholeDigits (digits zeros : Nat) :
    ofDigitChars (wholeDigits digits zeros) = digits * 10 ^ zeros := by
  unfold wholeDigits
  split
  case isTrue h =>
    rw [h, Nat.zero_mul]
    rfl
  case isFalse =>
    rw [ofDigitChars_append, ofDigitChars_natDigits, ofDigitChars_zeros, List.length_replicate,
      Nat.add_zero]

/-- The numeral of a whole number. -/
def Numeral.integral (pointZero : Bool) (digits zeros : Nat) : Numeral where
  whole := wholeDigits digits zeros
  fraction := if pointZero then some ['0'] else none
  whole_ne h := by
    unfold wholeDigits at h
    split at h
    · cases h
    · exact natDigits_ne_nil digits (List.append_eq_nil_iff.1 h).1
  whole_digits c hc := by
    unfold wholeDigits at hc
    split at hc
    · rw [List.mem_singleton.1 hc]
      decide
    · rcases List.mem_append.1 hc with hc | hc
      · exact isDigit_of_mem_natDigits hc
      · rw [List.eq_of_mem_replicate hc]
        decide
  fraction_digits ds hds c hc := by
    cases pointZero with
    | false => cases hds
    | true =>
      cases hds
      rw [List.mem_singleton.1 hc]
      decide
  power_sign := by rintro p ⟨⟩
  power_digits := by rintro p ⟨⟩

/-- With them, the digits have the value of the whole number. -/
theorem Numeral.value_integral (pointZero : Bool) (digits zeros : Nat) :
    (Numeral.integral pointZero digits zeros).value = digits * 10 ^ (zeros : Int) := by
  have hzero : ofDigitChars ['0'] = 0 := rfl
  cases pointZero
  · simp [value, integral, exponent, ofDigitChars_wholeDigits]
  · simp [value, integral, exponent, ofDigitChars_append, ofDigitChars_wholeDigits, hzero]

/-- What is written without a power of ten stands for the digits. -/
theorem written_positional (pointZero : Bool) (d : Digits) :
    ∃ n, Written pointZero d (positionalChars pointZero d) n := by
  obtain ⟨digits, exponent⟩ := d
  -- a negative exponent needs the point
  rcases Int.lt_or_le exponent 0 with hneg | hpos
  · obtain ⟨places, rfl⟩ : ∃ places : Nat, exponent = -places := ⟨(-exponent).toNat, by omega⟩
    refine ⟨.pointed places digits, ?_, Numeral.value_pointed places digits, fun _ => .inl rfl⟩
    rw [positionalChars, if_neg (not_le.2 hneg)]
    simp [Numeral.text, Numeral.fractionText, Numeral.powerText, Numeral.pointed, padded]
  · obtain ⟨zeros, rfl⟩ := Int.eq_ofNat_of_zero_le hpos
    refine ⟨.integral pointZero digits zeros, ?_, Numeral.value_integral pointZero digits zeros, ?_⟩
    · rw [positionalChars, if_pos hpos]
      cases pointZero <;>
        simp [Numeral.text, Numeral.fractionText, Numeral.powerText, Numeral.integral, wholeDigits]
    · rintro rfl
      exact .inl rfl

/-- The sign of a power of ten. -/
def powerSign (plusSign : Bool) (power : Int) : List Char :=
  if power < 0 then ['-'] else if plusSign then ['+'] else []

/-- The numeral with one digit before the point and a power of ten. -/
def Numeral.scientific (plusSign : Bool) (first : Char) (more : List Char) (power : Int)
    (h : ∀ c ∈ first :: more, c.isDigit = true) : Numeral where
  whole := [first]
  fraction := if more = [] then none else some more
  power := some (powerSign plusSign power, natDigits power.natAbs)
  whole_ne := by simp
  whole_digits c hc := h c (by simp_all)
  fraction_digits ds hds c hc := by
    split at hds
    · cases hds
    · cases hds
      exact h c (.tail _ hc)
  power_sign := by
    rintro p ⟨⟩
    unfold powerSign
    split
    · simp
    · split <;> simp
  power_digits := by
    rintro p ⟨⟩ c hc
    exact isDigit_of_mem_natDigits hc

/-- The digits behind the first one are behind the point, which the power counts. -/
theorem Numeral.value_scientific {plusSign : Bool} {first : Char} {more : List Char} {power : Int}
    (h : ∀ c ∈ first :: more, c.isDigit = true) :
    (Numeral.scientific plusSign first more power h).value =
      ofDigitChars (first :: more) * 10 ^ (power - more.length) := by
  have hfraction : (if more = [] then none else some more).getD [] = more := by
    split
    case isTrue hmore => rw [hmore]; rfl
    case isFalse => rfl
  -- the sign in front of the power is left out or written, but its value is read back either way
  have hpower : (Numeral.scientific plusSign first more power h).exponent = power := by
    simp only [exponent, scientific, Option.elim_some, ofDigitChars_natDigits]
    unfold powerSign
    split
    · rw [if_pos rfl]
      omega
    · rw [if_neg (by split <;> simp)]
      omega
  rw [value, hpower]
  simp only [scientific, hfraction, List.singleton_append]

/-- What is written with a power of ten stands for the digits. -/
theorem written_scientific (pointZero plusSign : Bool) (d : Digits) :
    ∃ n, Written pointZero d (scientificChars plusSign d) n := by
  obtain ⟨first, more, hds⟩ := List.exists_cons_of_ne_nil (natDigits_ne_nil d.digits)
  have hdigits : ∀ c ∈ first :: more, c.isDigit = true := fun c hc =>
    isDigit_of_mem_natDigits (hds ▸ hc)
  refine ⟨.scientific plusSign first more (d.exponent + more.length) hdigits, ?_, ?_,
    fun _ => .inr rfl⟩
  · have hpower : d.exponent + (first :: more).length - 1 = d.exponent + more.length := by
      rw [List.length_cons]
      omega
    simp only [scientificChars, hds, hpower]
    -- a single digit is written without a point
    cases more <;>
      simp [Numeral.text, Numeral.fractionText, Numeral.powerText, Numeral.scientific, powerSign]
  · rw [Numeral.value_scientific, ← hds, ofDigitChars_natDigits, Int.add_sub_cancel]
    rfl

/-- Every layout writes numerals. -/
theorem Layout.written (layout : Layout) (d : Digits) :
    ∃ n, Written layout.pointZero d (layout.magnitude d) n := by
  unfold magnitude
  split
  · exact written_positional layout.pointZero d
  · simp only
    split
    · exact written_positional layout.pointZero d
    · exact written_scientific layout.pointZero layout.plusSign d

/-- The text of a magnitude determines its value. -/
theorem Layout.magnitude_inj {layout : Layout} {d d' : Digits}
    (h : layout.magnitude d = layout.magnitude d') : d.value = d'.value := by
  obtain ⟨n, hn⟩ := layout.written d
  obtain ⟨n', hn'⟩ := layout.written d'
  have heq : n = n' := Numeral.text_inj (by rw [hn.text, hn'.text, h])
  rw [← hn.value, ← hn'.value, heq]

/-- Magnitudes begin with a digit. -/
theorem Layout.head?_magnitude (layout : Layout) (d : Digits) :
    ∃ c ∈ (layout.magnitude d).head?, c.isDigit = true := by
  obtain ⟨n, hn⟩ := layout.written d
  obtain ⟨c, rest, hwhole⟩ := List.exists_cons_of_ne_nil n.whole_ne
  refine ⟨c, ?_, n.whole_digits c (by simp [hwhole])⟩
  rw [← hn.text, Numeral.text, hwhole]
  rfl

/-! ## Floats -/

/-- Finite floats that are written alike are alike. -/
theorem Layout.write_inj {layout : Layout} {x y : Float} (hx : x.isFinite = true)
    (hy : y.isFinite = true) (h : layout.write x = layout.write y) : x = y := by
  obtain ⟨negative, m, e, hx⟩ := Binary.view_of_isFinite hx
  obtain ⟨negative', m', e', hy⟩ := Binary.view_of_isFinite hy
  have hchars := congrArg String.toList h
  simp only [write, hx, hy, String.toList_ofList] at hchars
  -- a magnitude begins with a digit, so the signs agree
  have hdash (d : Digits) : (layout.magnitude d).head? ≠ some '-' := by
    intro hhead
    obtain ⟨c, hc, hdigit⟩ := layout.head?_magnitude d
    rw [hhead] at hc
    cases hc
    exact absurd hdigit (by decide)
  have hsame : negative = negative' ∧ layout.magnitude (shortest layout.tie m e) =
      layout.magnitude (shortest layout.tie m' e') := by
    cases negative <;> cases negative'
    · exact ⟨rfl, hchars⟩
    · exact absurd (congrArg List.head? hchars) (hdash _)
    · exact absurd (congrArg List.head? hchars).symm (hdash _)
    · exact ⟨rfl, (List.cons.inj hchars).2⟩
  obtain ⟨rfl, hmagnitude⟩ := hsame
  obtain ⟨rfl, rfl⟩ := shortest_inj (Binary.canonical hx) (Binary.canonical hy)
    (Layout.magnitude_inj hmagnitude)
  exact Binary.view_inj hx hy

/-- A finite float is written as a numeral, perhaps with a sign in front of it. -/
theorem Layout.write_eq (layout : Layout) {x : Float} (h : x.isFinite = true) :
    ∃ (sign : List Char) (n : Numeral), (layout.write x).toList = sign ++ n.text ∧
      (sign = [] ∨ sign = ['-']) ∧
      (layout.pointZero = true → n.fraction.isSome = true ∨ n.power.isSome = true) := by
  obtain ⟨negative, m, e, hx⟩ := Binary.view_of_isFinite h
  obtain ⟨n, hn⟩ := layout.written (shortest layout.tie m e)
  rw [write, hx]
  cases negative with
  | false => exact ⟨[], n, by simp [hn.text], .inl rfl, hn.marked⟩
  | true => exact ⟨['-'], n, by simp [hn.text], .inr rfl, hn.marked⟩

end BrailleScript.Decimal
