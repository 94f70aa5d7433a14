import BrailleScript.Proofs.Json.Quote
import BrailleScript.Proofs.Text.Blank
import BrailleScript.Proofs.Text.Utf8
import BrailleScript.Symbol

/-!
# Texts in cells

A text written in cells is read back as it was, and none of its cells marks the end of a string or a
comment.  Cells of any kind stand for at most as many characters as there are cells, and for a name
that no other cells have.

## Key results

- `decodeChars_encodeChars`: reading back
- `decodeNameChars_encodeChars`: reading back as a name
- `isStructural_of_mem_encodeChars`: the cells of a text are no marks
- `decodeNameChars_inj`: different words of cells have different names
- `length_decodeChars_le`: reading does not lengthen
-/

namespace BrailleScript.Cell

open Text.Utf8

/-! ## Cells and bytes -/

/-- A cell stands by its byte behind the first of all cells. -/
theorem toNat_ofByte (b : UInt8) : (ofByte b).toNat = base + b.toNat := by
  have hb := b.toNat_lt
  exact toNat_ofNat_char (.inl (by unfold base; omega))

/-- The cell of a byte is a cell. -/
theorem isCell_ofByte (b : UInt8) : isCell (ofByte b) = true := by
  have hb := b.toNat_lt
  rw [isCell, toNat_ofByte, Bool.and_eq_true, decide_eq_true_eq, decide_eq_true_eq]
  omega

/-- No cell is a blank. -/
theorem isBlank_of_isCell {c : Char} (hc : isCell c = true) : Text.isBlank c = false := by
  have hrange : 0x2800 ≤ c.toNat ∧ c.toNat ≤ 0x28FF := by
    rwa [isCell, Bool.and_eq_true, decide_eq_true_eq, decide_eq_true_eq] at hc
  -- no range of blanks touches that of the cells
  have hclear : ∀ r ∈ Text.blankTable, r.2 < 0x2800 ∨ 0x28FF < r.1 := by decide
  rw [← Bool.not_eq_true]
  intro hblank
  obtain ⟨r, hr, hlo, hhi⟩ := Text.RangeTable.exists_mem_of_contains hblank
  rcases hclear r hr with hr | hr <;> omega

/-- The byte of the cell of a byte is that byte. -/
theorem toByte?_ofByte (b : UInt8) : toByte? (ofByte b) = some b := by
  rw [toByte?, if_pos (isCell_ofByte b), toNat_ofByte, Nat.add_sub_cancel_left, UInt8.ofNat_toNat]

/-! ## Reading back -/

/-- So it is with many bytes. -/
theorem bytes_map_ofByte (bs : List UInt8) : bytes (bs.map ofByte) = bs := by
  induction bs with
  | nil => rfl
  | cons b bs ih =>
    rw [bytes] at ih ⊢
    rw [List.map_cons, List.flatMap_cons, toByte?_ofByte, ih, List.singleton_append]

/-- A text is read back as it was written. -/
theorem decodeChars_encodeChars (cs : List Char) : decodeChars (encodeChars cs) = cs := by
  rw [decodeChars, encodeChars, bytes_map_ofByte, decodeLossy_encode]

/-- A text is read as a name with its backslashes doubled. -/
theorem decodeNameChars_encodeChars (cs : List Char) :
    decodeNameChars (encodeChars cs) =
      cs.flatMap fun c => if c = '\\' then ['\\', '\\'] else [c] := by
  rw [decodeNameChars, encodeChars, bytes_map_ofByte, segments_encode, List.flatMap_map]
  rfl

/-- A text has cells unless it is empty. -/
theorem encodeChars_ne_nil {cs : List Char} (h : cs ≠ []) : encodeChars cs ≠ [] := by
  obtain ⟨c, cs, rfl⟩ := List.exists_cons_of_ne_nil h
  obtain ⟨lead, more, hlead, -⟩ := encodeChar_head c
  simp [encodeChars, encode, hlead]

/-- The last cells are in no text. -/
theorem ne_of_mem_encodeChars {cs : List Char} {c mark : Char} (hc : c ∈ encodeChars cs)
    (hmark : base + 0xF8 ≤ mark.toNat) : c ≠ mark := by
  obtain ⟨b, hb, rfl⟩ := List.mem_map.1 hc
  obtain ⟨c', -, hb⟩ := List.mem_flatMap.1 hb
  have hlt := encodeChar_lt hb
  rintro rfl
  rw [toNat_ofByte] at hmark
  omega

/-- No cell of a text is a mark. -/
theorem isStructural_of_mem_encodeChars {cs : List Char} {c : Char} (hc : c ∈ encodeChars cs) :
    Symbol.isStructural c = false := by
  have hne {mark : Char} (hmark : base + 0xF8 ≤ mark.toNat) : (c == mark) = false :=
    beq_eq_false_iff_ne.2 (ne_of_mem_encodeChars hc hmark)
  rw [Symbol.isStructural, hne (by decide), hne (by decide), hne (by decide)]
  rfl

/-- A text is written in cells only. -/
theorem isCell_of_mem_encodeChars {cs : List Char} {c : Char} (hc : c ∈ encodeChars cs) :
    isCell c = true := by
  obtain ⟨b, -, rfl⟩ := List.mem_map.1 hc
  exact isCell_ofByte b

/-! ## Names -/

/-- The bytes that a name was made of: a doubled backslash is one, `\x` and two digits are a byte,
and any other character stands for its own bytes. -/
def nameBytes : List Char → List UInt8
  | '\\' :: '\\' :: cs => String.utf8EncodeChar '\\' ++ nameBytes cs
  | '\\' :: 'x' :: hi :: lo :: cs =>
    UInt8.ofNat (16 * Json.hexValue hi + Json.hexValue lo) :: nameBytes cs
  | c :: cs => String.utf8EncodeChar c ++ nameBytes cs
  | [] => []

/-- A character that begins no escape stands for its own bytes. -/
theorem nameBytes_cons {c : Char} (hc : c ≠ '\\') (cs : List Char) :
    nameBytes (c :: cs) = String.utf8EncodeChar c ++ nameBytes cs := by
  rw [nameBytes]
  · exact fun cs' h => absurd h hc
  · exact fun hi lo cs' h => absurd h hc

/-- An escaped byte is read back from its two digits. -/
theorem nameBytes_escapeByte (b : UInt8) (cs : List Char) :
    nameBytes (escapeByte b ++ cs) = b :: nameBytes cs := by
  have hdigit : ∀ n < 16, Json.hexValue (Nat.digitChar n) = n := by decide
  have hb := b.toNat_lt
  have hvalue : 16 * (b.toNat / 16) + b.toNat % 16 = b.toNat := Nat.div_add_mod _ _
  rw [escapeByte, List.cons_append, List.cons_append, List.cons_append, List.cons_append,
    List.nil_append, nameBytes, hdigit _ (by omega), hdigit _ (by omega), hvalue,
    UInt8.ofNat_toNat]

/-- What a segment adds to a name is read back as its bytes, whatever follows. -/
theorem nameBytes_nameChars (seg : Segment) (cs : List Char) :
    nameBytes (nameChars seg ++ cs) = seg.bytes ++ nameBytes cs := by
  -- a character may need an escape, and an invalid byte always has one
  cases seg with
  | char c =>
    rw [nameChars, Segment.bytes]
    split
    next hc =>
      rw [hc]
      rfl
    next hc => exact nameBytes_cons hc cs
  | invalid bs =>
    rw [nameChars, Segment.bytes]
    induction bs with
    | nil => rfl
    | cons b bs ih =>
      rw [List.flatMap_cons, List.append_assoc, nameBytes_escapeByte, ih, List.cons_append]

/-- A name for some segments stands for their bytes. -/
theorem nameBytes_flatMap (segs : List Segment) :
    nameBytes (segs.flatMap nameChars) = segs.flatMap Segment.bytes := by
  induction segs with
  | nil => rfl
  | cons seg segs ih =>
    rw [List.flatMap_cons, List.flatMap_cons, nameBytes_nameChars, ih]

/-- The bytes of a word are read back from its name. -/
theorem nameBytes_decodeNameChars (cs : List Char) : nameBytes (decodeNameChars cs) = bytes cs := by
  rw [decodeNameChars, nameBytes_flatMap, flatMap_bytes_segments]

/-- The cell of the byte of a cell is that cell. -/
theorem ofByte_toByte? {c : Char} {b : UInt8} (h : toByte? c = some b) : ofByte b = c := by
  unfold toByte? at h
  split at h
  next hc =>
    have hrange : base ≤ c.toNat ∧ c.toNat ≤ base + 0xFF := by
      rwa [isCell, Bool.and_eq_true, decide_eq_true_eq, decide_eq_true_eq] at hc
    rw [← Option.some.inj h, ofByte, toNat_ofNat (by omega)]
    exact ofNat_eq (by omega)
  next => exact nomatch h

/-- Cells are read back from their bytes. -/
theorem map_ofByte_bytes {cs : List Char} (h : ∀ c ∈ cs, isCell c = true) :
    (bytes cs).map ofByte = cs := by
  induction cs with
  | nil => rfl
  | cons c cs ih =>
    rw [List.forall_mem_cons] at h
    have hc : toByte? c = some (UInt8.ofNat (c.toNat - base)) := if_pos h.1
    rw [bytes, List.flatMap_cons, hc]
    exact congrArg₂ _ (ofByte_toByte? hc) (ih h.2)

/-- Different words of cells have different names. -/
theorem decodeNameChars_inj {v w : List Char} (hv : ∀ c ∈ v, isCell c = true)
    (hw : ∀ c ∈ w, isCell c = true) (h : decodeNameChars v = decodeNameChars w) : v = w := by
  rw [← map_ofByte_bytes hv, ← map_ofByte_bytes hw, ← nameBytes_decodeNameChars v, h,
    nameBytes_decodeNameChars]

/-! ## Lengths -/

/-- Continuation bytes at the front are those of cells. -/
theorem bytes_of_continues {bs bs' : List UInt8} (h : Continues bs bs') {cs : List Char}
    (hcs : bytes cs = bs) : ∃ cs', bytes cs' = bs' ∧ cs'.length ≤ cs.length := by
  induction h generalizing cs with
  | done => exact ⟨cs, hcs, Nat.le_refl _⟩
  | step hb h ih =>
    cases cs with
    | nil => exact nomatch hcs
    | cons c cs =>
      rw [bytes, List.flatMap_cons] at hcs
      split at hcs
      next b' _ =>
        obtain ⟨cs', hcs', hle⟩ := ih (List.cons.inj hcs).2
        exact ⟨cs', hcs', Nat.le_succ_of_le hle⟩
      next =>
        -- a character of its own would begin with another byte
        obtain ⟨lead, more, hlead, hno⟩ := encodeChar_head c
        rw [hlead, List.cons_append] at hcs
        rw [(List.cons.inj hcs).1, hb] at hno
        exact nomatch hno

/-- There are no more segments than characters. -/
theorem length_segments_bytes_le (cs : List Char) : (segments (bytes cs)).length ≤ cs.length := by
  -- what a segment takes is no less than one character, so the rest is shorter
  induction hn : cs.length using Nat.strongRecOn generalizing cs with
  | ind n ih =>
    cases cs with
    | nil => simp [bytes, segments]
    | cons c cs =>
      rw [List.length_cons] at hn
      rw [bytes, List.flatMap_cons]
      split
      next b _ =>
        rw [List.singleton_append, segments, List.length_cons]
        obtain ⟨cs', hcs', hle⟩ := bytes_of_continues (continues_first b (bytes cs)) rfl
        have hrest := ih cs'.length (by omega) cs' rfl
        rw [hcs'] at hrest
        exact Nat.le_trans (Nat.succ_le_succ hrest) (by omega)
      next =>
        rw [segments_encodeChar, List.length_cons]
        have hrest := ih cs.length (by omega) cs rfl
        exact Nat.le_trans (Nat.succ_le_succ hrest) (by omega)

/-- Reading cells does not give more characters than there are cells. -/
theorem length_decodeChars_le (cs : List Char) : (decodeChars cs).length ≤ cs.length := by
  rw [decodeChars, decodeLossy, List.length_map]
  exact length_segments_bytes_le cs

end BrailleScript.Cell
