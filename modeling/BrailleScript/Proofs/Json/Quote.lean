import BrailleScript.Json.Printer

/-!
# Quoted strings end where they end

The text of a quoted string determines the string, also when more text follows: the escapes form
a prefix code, which `unescape` reads back, and no escape starts with a quote.

## Key results

- `unescape_escapeChar`: an escaped character is read back
- `quote_append_inj`: a quoted string and what follows it are told apart
- `digits_inj`, `comma_not_mem_digits`: the digits of a number
-/

namespace BrailleScript.Json

/-- The value of a lower-case hexadecimal digit. -/
def hexValue (c : Char) : Nat :=
  if c.toNat < 0x3a then c.toNat - 0x30 else c.toNat - 0x57

/-- The character that a letter after a backslash stands for. -/
def shortEscape (c : Char) : Char :=
  if c = 'n' then '\n'
  else if c = 'r' then '\r'
  else if c = 't' then '\t'
  else if c = 'b' then '\x08'
  else if c = 'f' then '\x0c'
  else c

/-- Reads one character between quotes, and gives the rest of the text. -/
def unescape : List Char → Option (Char × List Char)
  | [] => none
  | c :: rest =>
    if c = '\\' then
      match rest with
      | [] => none
      | e :: rest =>
        if e = 'u' then
          some (Char.ofNat (16 * hexValue (rest.getD 2 '0') + hexValue (rest.getD 3 '0')),
            rest.drop 4)
        else some (shortEscape e, rest)
    else some (c, rest)

/-- The control characters are read back from their two digits. -/
private theorem hex_roundtrip : ∀ n < 0x20,
    Char.ofNat (16 * hexValue (Nat.digitChar (n / 16)) + hexValue (Nat.digitChar (n % 16))) =
      Char.ofNat n := by
  decide

/-- An escaped character is read back, with the rest behind it. -/
theorem unescape_escapeChar (c : Char) (rest : List Char) :
    unescape (escapeChar c ++ rest) = some (c, rest) := by
  unfold escapeChar
  -- one case for each short escape, one for control characters, one for all others
  split
  · rename_i h; subst h; rfl
  split
  · rename_i h; subst h; rfl
  split
  · rename_i h; subst h; rfl
  split
  · rename_i h; subst h; rfl
  split
  · rename_i h; subst h; rfl
  split
  · rename_i h; subst h; rfl
  split
  · rename_i h; subst h; rfl
  split
  · rename_i hcontrol
    have hc := hex_roundtrip c.toNat hcontrol
    rw [Char.ofNat_toNat] at hc
    simp [unescape, hc]
  · rename_i hbackslash _ _ _ _ _ _
    simp [unescape, hbackslash]

/-- No escape begins with a quote. -/
theorem escapeChar_head (c : Char) : ∃ first rest, escapeChar c = first :: rest ∧ first ≠ '"' := by
  unfold escapeChar
  split
  · exact ⟨_, _, rfl, by decide⟩
  · rename_i hquote
    repeat' split
    all_goals first | exact ⟨_, _, rfl, by decide⟩ | exact ⟨_, _, rfl, hquote⟩

/-- Escaped text is told apart from the closing quote and what follows it. -/
private theorem flatMap_escapeChar_inj (s s' t t' : List Char)
    (h : s.flatMap escapeChar ++ '"' :: t = s'.flatMap escapeChar ++ '"' :: t') :
    s = s' ∧ t = t' := by
  induction s generalizing s' with
  | nil =>
    cases s' with
    | nil => exact ⟨rfl, (List.cons.inj h).2⟩
    | cons c' s' =>
      obtain ⟨first, rest, he, hne⟩ := escapeChar_head c'
      rw [List.flatMap_cons, he] at h
      exact absurd (List.cons.inj h).1.symm hne
  | cons c s ih =>
    cases s' with
    | nil =>
      obtain ⟨first, rest, he, hne⟩ := escapeChar_head c
      rw [List.flatMap_cons, he] at h
      exact absurd (List.cons.inj h).1 hne
    | cons c' s' =>
      rw [List.flatMap_cons, List.flatMap_cons, List.append_assoc, List.append_assoc] at h
      -- reading one character on both sides gives the characters and the rests
      have hread := congrArg unescape h
      rw [unescape_escapeChar, unescape_escapeChar] at hread
      obtain ⟨hc, hrest⟩ := Prod.mk.inj (Option.some.inj hread)
      obtain ⟨hs, ht⟩ := ih s' hrest
      exact ⟨by rw [hc, hs], ht⟩

/-- Where a quoted text ends can be told from its characters. -/
theorem quote_append_inj {s s' : String} {t t' : List Char}
    (h : (quote s).toList ++ t = (quote s').toList ++ t') : s = s' ∧ t = t' := by
  unfold quote at h
  rw [String.toList_ofList, String.toList_ofList, List.append_assoc, List.append_assoc] at h
  obtain ⟨hs, ht⟩ := flatMap_escapeChar_inj _ _ t t' (List.cons.inj h).2
  exact ⟨String.toList_inj.1 hs, ht⟩

/-! ## Numbers -/

/-- A number is written by its digits. -/
theorem compact_ofNat (n : Nat) : (Json.ofNat n).compact.toList = Nat.toDigits 10 n := by
  show (Nat.repr n).toList = _
  rw [Nat.repr_eq_ofList_toDigits, String.toList_ofList]

/-- Numbers that are written alike are equal. -/
theorem digits_inj {m n : Nat} (h : Nat.toDigits 10 m = Nat.toDigits 10 n) : m = n := by
  rw [← Nat.ofDigitChars_ten_toDigits (n := m), h, Nat.ofDigitChars_ten_toDigits]

/-- There is no comma among digits. -/
theorem comma_not_mem_digits (n : Nat) : ',' ∉ Nat.toDigits 10 n := by
  intro h
  have hdigit := Nat.isDigit_of_mem_toDigits (by decide) (by decide) h
  exact absurd hdigit (by decide)

end BrailleScript.Json
