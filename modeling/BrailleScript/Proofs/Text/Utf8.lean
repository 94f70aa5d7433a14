import BrailleScript.Text.Utf8

/-!
# Reading back what was written

The bytes of a character are cut off as that character, whatever follows them, so reading the bytes
of a text gives the text.  The segments of any bytes at all, put together, are these bytes.

## Key results

- `continues_first`: what a segment takes besides its lead
- `segments_encodeChar`: the bytes of a character at the front
- `decodeLossy_encode`: the bytes of a text
- `flatMap_bytes_segments`: no byte is lost, be it part of a character or not
-/

namespace BrailleScript.Text.Utf8

/-! ## Bytes of a character -/

/-- A number below 256 is a byte. -/
theorem toNat_ofNat {n : Nat} (h : n < 256) : (UInt8.ofNat n).toNat = n := by
  rw [UInt8.toNat_ofNat']
  exact Nat.mod_eq_of_lt h

/-- A continuation byte that carries the last six bits of a number. -/
def tail (n : Nat) : UInt8 :=
  UInt8.ofNat (n % 0x40 + 0x80)

/-- A tail byte carries six bits above its mark. -/
theorem toNat_tail (n : Nat) : (tail n).toNat = n % 0x40 + 0x80 :=
  toNat_ofNat (by omega)

/-- It is one. -/
theorem isTail_tail (n : Nat) : isTail (tail n) = true := by
  have hn := toNat_tail n
  simp only [isTail, UInt8.le_iff_toNat_le, hn, Bool.and_eq_true, decide_eq_true_eq]
  simp only [UInt8.toNat_ofNat, Nat.reducePow, Nat.reduceMod]
  omega

/-- Its payload is these six bits. -/
theorem payload_tail (n : Nat) : payload (tail n) = n % 0x40 := by
  rw [payload, toNat_tail]
  omega

/-- What the lead byte says of the second byte, in numbers. -/
theorem isSecond_iff {lead b : UInt8} : isSecond lead b = true ↔ isTail b = true ∧
    (lead.toNat = 0xE0 → 0x20 ≤ payload b) ∧ (lead.toNat = 0xED → payload b < 0x20) ∧
    (lead.toNat = 0xF0 → 0x10 ≤ payload b) ∧ (lead.toNat = 0xF4 → payload b < 0x10) := by
  simp only [isSecond, isTail, payload, UInt8.le_iff_toNat_le, ← UInt8.toNat_inj]
  simp only [UInt8.toNat_ofNat, Nat.reducePow, Nat.reduceMod]
  repeat' split
  all_goals
    simp only [Bool.and_eq_true, decide_eq_true_eq]
    omega

/-- The second byte of a character is a tail byte. -/
theorem isTail_of_isSecond {lead b : UInt8} (h : isSecond lead b = true) : isTail b = true :=
  (isSecond_iff.1 h).1

/-- The second byte of a character whose further bytes carry `n`, which the lead byte allows as long
as the character is neither too long for its number nor a surrogate. -/
theorem isSecond_tail {lead : UInt8} {n : Nat} (hE0 : lead.toNat = 0xE0 → 0x20 ≤ n % 0x40)
    (hED : lead.toNat = 0xED → n % 0x40 < 0x20) (hF0 : lead.toNat = 0xF0 → 0x10 ≤ n % 0x40)
    (hF4 : lead.toNat = 0xF4 → n % 0x40 < 0x10) : isSecond lead (tail n) = true := by
  rw [isSecond_iff, payload_tail]
  exact ⟨isTail_tail n, hE0, hED, hF0, hF4⟩

/-! ## Leads -/

section Leads

variable {lead : UInt8} {rest : List UInt8}

/-- A byte lies in a range when its number does. -/
theorem within_iff {lo hi b : UInt8} :
    (lo ≤ b && b ≤ hi) = true ↔ lo.toNat ≤ b.toNat ∧ b.toNat ≤ hi.toNat := by
  simp only [UInt8.le_iff_toNat_le, Bool.and_eq_true, decide_eq_true_eq]

/-- A byte from 128 on is no character alone. -/
theorem not_single (h : 0x80 ≤ lead.toNat) : ¬lead < 0x80 := fun hlt =>
  Nat.not_lt.2 h (UInt8.lt_iff_toNat_lt.1 hlt)

/-- Below that it is. -/
theorem first_of_single (h : lead.toNat < 0x80) :
    first lead rest = (.char (Char.ofNat lead.toNat), rest) := by
  rw [first, if_pos (UInt8.lt_iff_toNat_lt.2 h)]

/-- These bytes lead two. -/
theorem first_of_pair (h : 0xC2 ≤ lead.toNat) (h' : lead.toNat ≤ 0xDF) :
    first lead rest = pair lead rest := by
  have hpair : (0xC2 ≤ lead && lead ≤ 0xDF) = true := within_iff.2 ⟨h, h'⟩
  rw [first, if_neg (not_single (Nat.le_trans (by decide) h)), if_pos hpair]

/-- These lead three. -/
theorem first_of_triple (h : 0xE0 ≤ lead.toNat) (h' : lead.toNat ≤ 0xEF) :
    first lead rest = triple lead rest := by
  have hpair : ¬(0xC2 ≤ lead && lead ≤ 0xDF) = true := fun hw =>
    absurd (Nat.le_trans h (within_iff.1 hw).2) (by decide)
  have htriple : (0xE0 ≤ lead && lead ≤ 0xEF) = true := within_iff.2 ⟨h, h'⟩
  rw [first, if_neg (not_single (Nat.le_trans (by decide) h)), if_neg hpair, if_pos htriple]

/-- These lead four. -/
theorem first_of_quadruple (h : 0xF0 ≤ lead.toNat) (h' : lead.toNat ≤ 0xF4) :
    first lead rest = quadruple lead rest := by
  -- the lead is above those of shorter characters
  have hpair : ¬(0xC2 ≤ lead && lead ≤ 0xDF) = true := fun hw =>
    absurd (Nat.le_trans h (within_iff.1 hw).2) (by decide)
  have htriple : ¬(0xE0 ≤ lead && lead ≤ 0xEF) = true := fun hw =>
    absurd (Nat.le_trans h (within_iff.1 hw).2) (by decide)
  have hquadruple : (0xF0 ≤ lead && lead ≤ 0xF4) = true := within_iff.2 ⟨h, h'⟩
  rw [first, if_neg (not_single (Nat.le_trans (by decide) h)), if_neg hpair, if_neg htriple,
    if_pos hquadruple]

/-- Two bytes are read as their payloads in a row. -/
theorem pair_tail (n : Nat) : pair lead (tail n :: rest) =
    (.char (Char.ofNat (lead.toNat % 0x20 * 0x40 + n % 0x40)), rest) := by
  rw [pair, if_pos (isTail_tail n), payload_tail]

/-- So are three. -/
theorem triple_tail {m : Nat} (h : isSecond lead (tail m) = true) (n : Nat) :
    triple lead (tail m :: tail n :: rest) =
      (.char (Char.ofNat (lead.toNat % 0x10 * 0x1000 + m % 0x40 * 0x40 + n % 0x40)), rest) := by
  simp only [triple, h, isTail_tail, payload_tail, if_true]

/-- So are four. -/
theorem quadruple_tail {k : Nat} (h : isSecond lead (tail k) = true) (m n : Nat) :
    quadruple lead (tail k :: tail m :: tail n :: rest) =
      (.char (Char.ofNat (lead.toNat % 0x08 * 0x40000 + k % 0x40 * 0x1000 + m % 0x40 * 0x40 +
        n % 0x40)), rest) := by
  simp only [quadruple, h, isTail_tail, payload_tail, if_true]

end Leads

/-! ## What a segment takes -/

/-- The second list is what is left of the first when some continuation bytes are taken off. -/
inductive Continues : List UInt8 → List UInt8 → Prop
  | done {bs : List UInt8} : Continues bs bs
  | step {b : UInt8} {bs bs' : List UInt8} (hb : isTail b = true) (h : Continues bs bs') :
    Continues (b :: bs) bs'

/-- Reading two bytes goes on behind the first. -/
theorem continues_pair (lead : UInt8) (rest : List UInt8) : Continues rest (pair lead rest).2 := by
  unfold pair
  split
  · split
    next hb => exact .step hb .done
    next => exact .done
  · exact .done

/-- So does reading three. -/
theorem continues_triple (lead : UInt8) (rest : List UInt8) :
    Continues rest (triple lead rest).2 := by
  unfold triple
  split
  · split
    next hb =>
      -- what is taken so far are continuation bytes, and the reading may stop behind each
      refine .step (isTail_of_isSecond hb) ?_
      split
      · split
        next hc => exact .step hc .done
        next => exact .done
      · exact .done
    next => exact .done
  · exact .done

/-- So does reading four. -/
theorem continues_quadruple (lead : UInt8) (rest : List UInt8) :
    Continues rest (quadruple lead rest).2 := by
  unfold quadruple
  split
  · split
    next hb =>
      refine .step (isTail_of_isSecond hb) ?_
      split
      · split
        next hc =>
          refine .step hc ?_
          split
          · split
            next hd => exact .step hd .done
            next => exact .done
          · exact .done
        next => exact .done
      · exact .done
    next => exact .done
  · exact .done

/-- A segment takes continuation bytes only, apart from its lead. -/
theorem continues_first (lead : UInt8) (rest : List UInt8) :
    Continues rest (first lead rest).2 := by
  unfold first
  -- the lead tells which of the readings follows
  split
  · exact .done
  · split
    · exact continues_pair lead rest
    · split
      · exact continues_triple lead rest
      · split
        · exact continues_quadruple lead rest
        · exact .done

/-! ## Characters and texts -/

/-- The bytes of a character: a lead byte and its tails. -/
theorem encodeChar_eq (c : Char) : String.utf8EncodeChar c =
    if c.toNat ≤ 0x7F then [UInt8.ofNat c.toNat]
    else if c.toNat ≤ 0x7FF then [UInt8.ofNat (c.toNat / 0x40 % 0x20 + 0xC0), tail c.toNat]
    else if c.toNat ≤ 0xFFFF then
      [UInt8.ofNat (c.toNat / 0x1000 % 0x10 + 0xE0), tail (c.toNat / 0x40), tail c.toNat]
    else
      [UInt8.ofNat (c.toNat / 0x40000 % 0x08 + 0xF0), tail (c.toNat / 0x1000),
        tail (c.toNat / 0x40), tail c.toNat] := rfl

/-- The codes of characters leave out the surrogates. -/
theorem toNat_valid (c : Char) : c.toNat < 0xD800 ∨ 0xDFFF < c.toNat ∧ c.toNat < 0x110000 :=
  c.valid

/-- A character is made of its own code. -/
theorem ofNat_eq {c : Char} {n : Nat} (h : n = c.toNat) : Char.ofNat n = c := by
  rw [h, Char.ofNat_toNat]

/-- No character begins with a continuation byte. -/
theorem encodeChar_head (c : Char) :
    ∃ lead more, String.utf8EncodeChar c = lead :: more ∧ isTail lead = false := by
  have hvalid := toNat_valid c
  -- a leading byte is below the continuation bytes or above them
  have hlead {n : Nat} (hn : n < 0x80 ∨ 0xC0 ≤ n) (hlt : n < 0x100) :
      isTail (UInt8.ofNat n) = false := by
    rw [Bool.eq_false_iff, isTail, Ne, within_iff, toNat_ofNat hlt]
    simp only [UInt8.toNat_ofNat, Nat.reducePow, Nat.reduceMod]
    omega
  rw [encodeChar_eq]
  split
  · exact ⟨_, _, rfl, hlead (by omega) (by omega)⟩
  · split
    · exact ⟨_, _, rfl, hlead (by omega) (by omega)⟩
    · split
      · exact ⟨_, _, rfl, hlead (by omega) (by omega)⟩
      · exact ⟨_, _, rfl, hlead (by omega) (by omega)⟩

/-- No byte of a character is as large as 248. -/
theorem encodeChar_lt {c : Char} {b : UInt8} (hb : b ∈ String.utf8EncodeChar c) :
    b.toNat < 0xF8 := by
  have hlead {n : Nat} (hn : n < 0xF8) : (UInt8.ofNat n).toNat < 0xF8 := by
    rwa [toNat_ofNat (Nat.lt_trans hn (by decide))]
  -- continuation bytes are below 192
  have htail (n : Nat) : (tail n).toNat < 0xF8 := by
    rw [toNat_tail]
    omega
  rw [encodeChar_eq] at hb
  revert hb
  repeat' split
  all_goals
    simp only [List.mem_cons, List.not_mem_nil, or_false]
    rintro hb
  · exact hb ▸ hlead (by omega)
  · rcases hb with rfl | rfl
    · exact hlead (by omega)
    · exact htail _
  · rcases hb with rfl | rfl | rfl
    · exact hlead (by omega)
    · exact htail _
    · exact htail _
  · rcases hb with rfl | rfl | rfl | rfl
    · exact hlead (by omega)
    · exact htail _
    · exact htail _
    · exact htail _

/-- A character's own bytes come off the front as that character. -/
theorem segments_encodeChar (c : Char) (rest : List UInt8) :
    segments (String.utf8EncodeChar c ++ rest) = .char c :: segments rest := by
  suffices h : ∃ lead more, String.utf8EncodeChar c = lead :: more ∧
      first lead (more ++ rest) = (.char c, rest) by
    obtain ⟨lead, more, hc, hfirst⟩ := h
    rw [hc, List.cons_append, segments, hfirst]
  have hvalid := toNat_valid c
  rw [encodeChar_eq]
  -- one case for each number of bytes; a lead byte must name the number that follow it
  split
  · refine ⟨_, _, rfl, ?_⟩
    have hlead : (UInt8.ofNat c.toNat).toNat = c.toNat := toNat_ofNat (by omega)
    rw [List.nil_append, first_of_single (by omega), ofNat_eq hlead]
  · split
    · refine ⟨_, _, rfl, ?_⟩
      have hlead : (UInt8.ofNat (c.toNat / 0x40 % 0x20 + 0xC0)).toNat = c.toNat / 0x40 + 0xC0 := by
        rw [toNat_ofNat (by omega)]
        omega
      rw [first_of_pair (by omega) (by omega), List.cons_append, List.nil_append, pair_tail,
        ofNat_eq (c := c) (by omega)]
    · split
      · refine ⟨_, _, rfl, ?_⟩
        have hlead : (UInt8.ofNat (c.toNat / 0x1000 % 0x10 + 0xE0)).toNat =
            c.toNat / 0x1000 + 0xE0 := by
          rw [toNat_ofNat (by omega)]
          omega
        have hsecond : isSecond (UInt8.ofNat (c.toNat / 0x1000 % 0x10 + 0xE0))
            (tail (c.toNat / 0x40)) = true :=
          isSecond_tail (by omega) (by omega) (by omega) (by omega)
        rw [first_of_triple (by omega) (by omega), List.cons_append, List.cons_append,
          List.nil_append, triple_tail hsecond, ofNat_eq (c := c) (by omega)]
      · refine ⟨_, _, rfl, ?_⟩
        have hlead : (UInt8.ofNat (c.toNat / 0x40000 % 0x08 + 0xF0)).toNat =
            c.toNat / 0x40000 + 0xF0 := by
          rw [toNat_ofNat (by omega)]
          omega
        have hsecond : isSecond (UInt8.ofNat (c.toNat / 0x40000 % 0x08 + 0xF0))
            (tail (c.toNat / 0x1000)) = true :=
          isSecond_tail (by omega) (by omega) (by omega) (by omega)
        rw [first_of_quadruple (by omega) (by omega), List.cons_append, List.cons_append,
          List.cons_append, List.nil_append, quadruple_tail hsecond,
          ofNat_eq (c := c) (by omega)]

/-- Encoded characters are read as themselves. -/
theorem segments_encode (cs : List Char) : segments (encode cs) = cs.map .char := by
  induction cs with
  | nil => rw [encode, List.flatMap_nil, segments, List.map_nil]
  | cons c cs ih =>
    rw [encode, List.flatMap_cons, segments_encodeChar, List.map_cons]
    exact congrArg _ ih

/-- Reading the bytes of a text gives the text. -/
theorem decodeLossy_encode (cs : List Char) : decodeLossy (encode cs) = cs := by
  rw [decodeLossy, segments_encode, List.map_map]
  exact List.map_id _

/-! ## Nothing is lost -/

/-- The bytes that a segment was cut from. -/
def Segment.bytes : Segment → List UInt8
  | .char c => String.utf8EncodeChar c
  | .invalid bs => bs

section Cut

variable {lead b c d : UInt8}

/-- A continuation byte is the one that carries its payload. -/
theorem tail_eq {n : Nat} (hb : isTail b = true) (hn : n % 0x40 = payload b) : tail n = b := by
  have hrange := within_iff.1 hb
  simp only [UInt8.toNat_ofNat, Nat.reducePow, Nat.reduceMod] at hrange
  rw [← UInt8.toNat_inj, toNat_tail, hn, payload]
  omega

/-- A valid code is that of its character. -/
theorem toNat_ofNat_char {n : Nat} (h : n < 0xD800 ∨ 0xDFFF < n ∧ n < 0x110000) :
    (Char.ofNat n).toNat = n := by
  rw [Char.ofNat, dif_pos h]
  rfl

/-- A byte is made of its own number. -/
theorem ofNat_toNat_eq {n : Nat} (hn : n = b.toNat) : UInt8.ofNat n = b := by
  rw [hn, UInt8.ofNat_toNat]

/-- A single byte encodes the character it was read as. -/
theorem encodeChar_of_single (h : lead.toNat < 0x80) :
    String.utf8EncodeChar (Char.ofNat lead.toNat) = [lead] := by
  have hn : (Char.ofNat lead.toNat).toNat = lead.toNat := toNat_ofNat_char (by omega)
  rw [encodeChar_eq, hn, if_pos (by omega), UInt8.ofNat_toNat]

/-- So do two bytes. -/
theorem encodeChar_of_pair (h : 0xC2 ≤ lead.toNat) (h' : lead.toNat ≤ 0xDF)
    (hb : isTail b = true) :
    String.utf8EncodeChar (Char.ofNat (lead.toNat % 0x20 * 0x40 + payload b)) = [lead, b] := by
  have hpayload : payload b < 0x40 := Nat.mod_lt _ (by decide)
  generalize hn : lead.toNat % 0x20 * 0x40 + payload b = n
  have hchar : (Char.ofNat n).toNat = n := toNat_ofNat_char (by omega)
  have hlead : UInt8.ofNat (n / 0x40 % 0x20 + 0xC0) = lead := ofNat_toNat_eq (by omega)
  rw [encodeChar_eq, hchar, if_neg (by omega), if_pos (by omega), hlead, tail_eq hb (by omega)]

/-- So do three. -/
theorem encodeChar_of_triple (h : 0xE0 ≤ lead.toNat) (h' : lead.toNat ≤ 0xEF)
    (hb : isSecond lead b = true) (hc : isTail c = true) :
    String.utf8EncodeChar
      (Char.ofNat (lead.toNat % 0x10 * 0x1000 + payload b * 0x40 + payload c)) = [lead, b, c] := by
  obtain ⟨hb, hlong, hsurrogate, -, -⟩ := isSecond_iff.1 hb
  have hpb : payload b < 0x40 := Nat.mod_lt _ (by decide)
  have hpc : payload c < 0x40 := Nat.mod_lt _ (by decide)
  generalize hn : lead.toNat % 0x10 * 0x1000 + payload b * 0x40 + payload c = n
  -- neither too long for its number nor a surrogate
  have hchar : (Char.ofNat n).toNat = n := toNat_ofNat_char (by omega)
  have hlead : UInt8.ofNat (n / 0x1000 % 0x10 + 0xE0) = lead := ofNat_toNat_eq (by omega)
  rw [encodeChar_eq, hchar, if_neg (by omega), if_neg (by omega), if_pos (by omega), hlead,
    tail_eq hb (by omega), tail_eq hc (by omega)]

/-- So do four. -/
theorem encodeChar_of_quadruple (h : 0xF0 ≤ lead.toNat) (h' : lead.toNat ≤ 0xF4)
    (hb : isSecond lead b = true) (hc : isTail c = true) (hd : isTail d = true) :
    String.utf8EncodeChar (Char.ofNat (lead.toNat % 0x08 * 0x40000 + payload b * 0x1000 +
      payload c * 0x40 + payload d)) = [lead, b, c, d] := by
  obtain ⟨hb, -, -, hlong, hlast⟩ := isSecond_iff.1 hb
  have hpb : payload b < 0x40 := Nat.mod_lt _ (by decide)
  have hpc : payload c < 0x40 := Nat.mod_lt _ (by decide)
  have hpd : payload d < 0x40 := Nat.mod_lt _ (by decide)
  generalize hn : lead.toNat % 0x08 * 0x40000 + payload b * 0x1000 + payload c * 0x40 +
    payload d = n
  -- the number that was read is that of a character
  have hchar : (Char.ofNat n).toNat = n := toNat_ofNat_char (by omega)
  have hlead : UInt8.ofNat (n / 0x40000 % 0x08 + 0xF0) = lead := ofNat_toNat_eq (by omega)
  rw [encodeChar_eq, hchar, if_neg (by omega), if_neg (by omega), if_neg (by omega), hlead,
    tail_eq hb (by omega), tail_eq hc (by omega), tail_eq hd (by omega)]

/-- What was read of two bytes has them. -/
theorem bytes_pair (h : 0xC2 ≤ lead.toNat) (h' : lead.toNat ≤ 0xDF) (rest : List UInt8) :
    (pair lead rest).1.bytes ++ (pair lead rest).2 = lead :: rest := by
  unfold pair
  split
  · split
    next hb =>
      dsimp only [Segment.bytes]
      -- both bytes are there, and otherwise the segment keeps what it has read
      rw [encodeChar_of_pair h h' hb]
      rfl
    next => rfl
  · rfl

/-- So has what was read of three. -/
theorem bytes_triple (h : 0xE0 ≤ lead.toNat) (h' : lead.toNat ≤ 0xEF) (rest : List UInt8) :
    (triple lead rest).1.bytes ++ (triple lead rest).2 = lead :: rest := by
  unfold triple
  split
  · split
    next hb =>
      split
      · split
        next hc =>
          dsimp only [Segment.bytes]
          -- all three bytes are there, and otherwise the segment keeps what it has read
          rw [encodeChar_of_triple h h' hb hc]
          rfl
        next => rfl
      · rfl
    next => rfl
  · rfl

/-- So has what was read of four. -/
theorem bytes_quadruple (h : 0xF0 ≤ lead.toNat) (h' : lead.toNat ≤ 0xF4) (rest : List UInt8) :
    (quadruple lead rest).1.bytes ++ (quadruple lead rest).2 = lead :: rest := by
  unfold quadruple
  split
  · split
    next hb =>
      split
      · split
        next hc =>
          split
          · split
            next hd =>
              dsimp only [Segment.bytes]
              rw [encodeChar_of_quadruple h h' hb hc hd]
              rfl
            next => rfl
          · rfl
        next => rfl
      · rfl
    next => rfl
  · rfl

/-- A segment and what is behind it are the bytes it was cut from. -/
theorem bytes_first (lead : UInt8) (rest : List UInt8) :
    (first lead rest).1.bytes ++ (first lead rest).2 = lead :: rest := by
  unfold first
  -- the leading byte tells how many bytes are read
  split
  next h =>
    dsimp only [Segment.bytes]
    rw [encodeChar_of_single (UInt8.lt_iff_toNat_lt.1 h)]
    rfl
  · split
    next h => exact bytes_pair (within_iff.1 h).1 (within_iff.1 h).2 rest
    next =>
      split
      next h => exact bytes_triple (within_iff.1 h).1 (within_iff.1 h).2 rest
      next =>
        split
        next h => exact bytes_quadruple (within_iff.1 h).1 (within_iff.1 h).2 rest
        next => rfl

/-- The segments give back every byte. -/
theorem flatMap_bytes_segments (bs : List UInt8) : (segments bs).flatMap Segment.bytes = bs := by
  fun_induction segments bs with
  | case1 => rfl
  | case2 lead rest ih => rw [List.flatMap_cons, ih, bytes_first]

end Cut

end BrailleScript.Text.Utf8
