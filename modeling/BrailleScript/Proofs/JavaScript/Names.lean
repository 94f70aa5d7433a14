import BrailleScript.JavaScript.Name
import Mathlib.Logic.Function.Basic

/-!
# Names of emitted code are names, and stay apart

`unsanitize` reads a name of the emitted code back: a mark `$_` in front is dropped, the digits
between two `$` are a code point, and every other character stands for itself.  So the escapes,
the mark of reserved names and the sign of the empty name never meet, whatever a name looks like.

## Key results

- `unsanitize_sanitize`: a name is read back
- `isIdentifierContinue_of_start`: a character that may begin an identifier may continue it
- `sanitize_faithful`: different names stay different, and each one is a usable name
-/

namespace BrailleScript.JavaScript

/-! ## Reading a name back -/

/-- The value of a lower-case hexadecimal digit. -/
def digitValue (c : Char) : Nat :=
  if c.toNat < 0x3a then c.toNat - 0x30 else c.toNat - 0x57

/-- Reads the escapes of a name, here after some digits of a code point or between characters. -/
def readEscapes : Option Nat → List Char → List Char
  | _, [] => []
  | none, c :: rest => if c = '$' then readEscapes (some 0) rest else c :: readEscapes none rest
  | some n, c :: rest =>
    if c = '$' then Char.ofNat n :: readEscapes none rest
    else readEscapes (some (16 * n + digitValue c)) rest

/-- The characters of a name without the mark of a reserved one. -/
def unmark : List Char → List Char
  | '$' :: '_' :: rest => rest
  | cs => cs

/-- The name of the program for a name of the emitted code. -/
def unsanitize (name : String) : String :=
  String.ofList (readEscapes none (unmark name.toList))

/-- Digits are no marks of an escape. -/
private theorem digitChar_ne : ∀ k < 16, Nat.digitChar k ≠ '$' ∧ Nat.digitChar k ≠ '_' := by
  decide

/-- A digit has the value that it was written for. -/
private theorem digitValue_digitChar : ∀ k < 16, digitValue (Nat.digitChar k) = k := by
  decide

/-- The digits of a number are read, and the number ends where a `$` stands. -/
theorem readEscapes_hex (n m : Nat) (rest : List Char) :
    ∃ k, readEscapes (some m) (Text.hex n ++ rest) = readEscapes (some (k * m + n)) rest := by
  -- the last digit is read behind those of the quotient
  induction n using Nat.strongRecOn generalizing rest with
  | ind n ih =>
    rw [Text.hex, Nat.toDigits_eq_if (by decide)]
    split
    next hlt =>
      refine ⟨16, ?_⟩
      rw [List.singleton_append, readEscapes, if_neg (digitChar_ne n hlt).1,
        digitValue_digitChar n hlt]
    next hge =>
      have hlast : n % 16 < 16 := Nat.mod_lt _ (by decide)
      obtain ⟨k, hk⟩ := ih (n / 16) (by omega) (Nat.digitChar (n % 16) :: rest)
      -- one digit more multiplies what was read before by sixteen
      refine ⟨16 * k, ?_⟩
      rw [List.append_assoc, List.singleton_append, ← Text.hex, hk, readEscapes,
        if_neg (digitChar_ne _ hlast).1, digitValue_digitChar _ hlast]
      congr 2
      rw [Nat.mul_add, Nat.mul_assoc]
      omega

/-- An escaped character is read back. -/
theorem readEscapes_escapeNameChar (c : Char) (rest : List Char) :
    readEscapes none (escapeNameChar c ++ rest) = c :: readEscapes none rest := by
  rw [escapeNameChar, List.append_assoc, List.cons_append, readEscapes, if_pos rfl]
  obtain ⟨k, hk⟩ := readEscapes_hex c.toNat 0 (['$'] ++ rest)
  rw [hk, Nat.mul_zero, Nat.zero_add, List.singleton_append, readEscapes, if_pos rfl,
    Char.ofNat_toNat]

/-- A character that may stand in an identifier is no `$`, so it stands for itself. -/
private theorem readEscapes_cons {c : Char} (h : c ≠ '$') (rest : List Char) :
    readEscapes none (c :: rest) = c :: readEscapes none rest := by
  rw [readEscapes, if_neg h]

/-- So is the first one of a name. -/
theorem readEscapes_firstChar (c : Char) (rest : List Char) :
    readEscapes none (firstChar c ++ rest) = c :: readEscapes none rest := by
  unfold firstChar
  -- a plain character stands for itself, as no escape begins with one
  split
  next hc =>
    refine readEscapes_cons ?_ rest
    rintro rfl
    exact absurd hc (by decide +kernel)
  next => exact readEscapes_escapeNameChar c rest

/-- So is every later one. -/
theorem readEscapes_laterChar (c : Char) (rest : List Char) :
    readEscapes none (laterChar c ++ rest) = c :: readEscapes none rest := by
  unfold laterChar
  split
  next hc =>
    refine readEscapes_cons ?_ rest
    rintro rfl
    exact absurd hc (by decide +kernel)
  next => exact readEscapes_escapeNameChar c rest

/-- So is a whole name. -/
theorem readEscapes_escapeName (cs : List Char) : readEscapes none (escapeName cs) = cs := by
  -- behind the first character all are read in the same way
  have hlater (cs : List Char) : readEscapes none (cs.flatMap laterChar) = cs := by
    induction cs with
    | nil => rfl
    | cons c cs ih => rw [List.flatMap_cons, readEscapes_laterChar, ih]
  cases cs with
  | nil => rfl
  | cons c cs => rw [escapeName, readEscapes_firstChar, hlater]

/-- A hexadecimal number begins with a digit. -/
theorem hex_head (n : Nat) : ∃ k < 16, ∃ rest, Text.hex n = Nat.digitChar k :: rest := by
  -- the digits in front are those of a sixteenth
  induction n using Nat.strongRecOn with
  | ind n ih =>
    rw [Text.hex, Nat.toDigits_eq_if (by decide)]
    split
    next hlt => exact ⟨n, hlt, [], rfl⟩
    next hge =>
      obtain ⟨k, hk, rest, hhex⟩ := ih (n / 16) (by omega)
      exact ⟨k, hk, rest ++ [Nat.digitChar (n % 16)], by rw [← Text.hex, hhex]; rfl⟩

/-- An escape begins with a digit after its `$`, which is not the mark of a reserved name. -/
theorem unmark_escapeName (cs : List Char) : unmark (escapeName cs) = escapeName cs := by
  cases cs with
  | nil => rfl
  | cons c cs =>
    rw [escapeName]
    unfold firstChar
    split
    next hc =>
      -- the first character stands for itself, and is no mark of an escape
      have hne : c ≠ '$' := by
        rintro rfl
        exact absurd hc (by decide +kernel)
      unfold unmark
      split
      next h => exact absurd (List.cons.inj h).1 hne
      next => rfl
    next =>
      -- it is escaped, and behind the mark stands a digit
      obtain ⟨k, hk, rest, hhex⟩ := hex_head c.toNat
      rw [escapeNameChar, hhex]
      unfold unmark
      split
      next h => exact absurd (List.cons.inj (List.cons.inj h).2).1 (digitChar_ne k hk).2
      next => rfl

/-- Marked or not, the escaped name is what stands behind the mark. -/
theorem unmark_sanitize (name : String) :
    unmark (sanitize name).toList = escapeName name.toList := by
  rw [sanitize, String.toList_ofList]
  split
  next => rfl
  next => exact unmark_escapeName _

/-- The name is read back from its sanitized form. -/
theorem unsanitize_sanitize (name : String) : unsanitize (sanitize name) = name := by
  rw [unsanitize, unmark_sanitize, readEscapes_escapeName, String.ofList_toList]

example : unsanitize "$_await" = "await" := by decide

/-! ## Identifier characters -/

/-- Every range of the second table lies in a range of the first one, which is read along. -/
def covers (outer : Text.RangeTable) : Text.RangeTable → Bool
  | [] => true
  | (lo, hi) :: inner =>
    match outer.dropWhile fun r => r.1 ≤ lo && r.2 < lo with
    | [] => false
    | r :: outer => r.1 ≤ lo && hi ≤ r.2 && covers (r :: outer) inner

/-- A range that ends below a code point says nothing of it. -/
private theorem containsCode_of_dropWhile {table : Text.RangeTable} {n lo : Nat} (hlo : lo ≤ n)
    (h : Text.RangeTable.containsCode n (table.dropWhile fun r => r.1 ≤ lo && r.2 < lo) = true) :
    table.containsCode n = true := by
  induction table with
  | nil => exact h
  | cons r table ih =>
    rw [List.dropWhile_cons] at h
    split at h
    next hr =>
      simp only [Bool.and_eq_true, decide_eq_true_eq] at hr
      -- the range that is dropped ends below the code point
      rw [Text.RangeTable.containsCode, if_neg (by omega), if_neg (by omega)]
      exact ih h
    next => exact h

/-- A table that covers another one contains its codes. -/
theorem containsCode_of_covers {outer inner : Text.RangeTable} {n : Nat}
    (h : covers outer inner = true) (hn : inner.containsCode n = true) :
    outer.containsCode n = true := by
  -- the covering table may drop the ranges below the first one of the other table
  induction inner generalizing outer with
  | nil => cases hn
  | cons range inner ih =>
    unfold covers at h
    split at h
    next => cases h
    next r rest hrest =>
      simp only [Bool.and_eq_true, decide_eq_true_eq] at h
      obtain ⟨⟨hlo, hhi⟩, hinner⟩ := h
      rw [Text.RangeTable.containsCode] at hn
      split at hn
      next => cases hn
      next hge =>
        have hr : Text.RangeTable.containsCode n (r :: rest) = true := by
          split at hn
          next hle => rw [Text.RangeTable.containsCode, if_neg (by omega), if_pos (by omega)]
          next => exact ih hinner hn
        exact containsCode_of_dropWhile (Nat.not_lt.1 hge) (hrest ▸ hr)

/-- A character that may begin an identifier may stand inside of one. -/
theorem isIdentifierContinue_of_start {c : Char} (h : Text.isIdentifierStart c = true) :
    Text.isIdentifierContinue c = true := by
  have hcovers : covers Text.identifierContinueTable Text.identifierStartTable = true := by
    decide +kernel
  exact containsCode_of_covers hcovers h

/-! ## Usable names -/

/-- A character of an identifier of the language. -/
def IsNameChar (c : Char) : Prop :=
  c = '$' ∨ c = '_' ∨ Text.isIdentifierContinue c = true

/-- A character that an identifier of the language may begin with. -/
def BeginsName (c : Char) : Prop :=
  c = '$' ∨ c = '_' ∨ Text.isIdentifierStart c = true

/-- An identifier that neither the language nor the support code has taken. -/
structure IsUsable (name : String) : Prop where
  begins : ∃ c rest, name.toList = c :: rest ∧ BeginsName c
  continues : ∀ c ∈ name.toList, IsNameChar c
  unreserved : name ∉ reserved
  notInternal : ¬['_', '_'] <+: name.toList

/-- Hexadecimal digits may stand in names. -/
theorem isNameChar_of_mem_hex {n : Nat} {c : Char} (h : c ∈ Text.hex n) : IsNameChar c := by
  have hdigit : ∀ k < 16, Text.isIdentifierContinue (Nat.digitChar k) = true := by
    decide +kernel
  -- the last digit, or one of those of the quotient
  induction n using Nat.strongRecOn with
  | ind n ih =>
    rw [Text.hex, Nat.toDigits_eq_if (by decide)] at h
    split at h
    next hlt => exact .inr (.inr (List.mem_singleton.1 h ▸ hdigit n hlt))
    next hge =>
      rcases List.mem_append.1 h with h | h
      · exact ih (n / 16) (by omega) h
      · exact .inr (.inr (List.mem_singleton.1 h ▸ hdigit _ (Nat.mod_lt _ (by decide))))

/-- So may every character of an escape. -/
theorem isNameChar_of_mem_escapeNameChar {c d : Char} (h : d ∈ escapeNameChar c) :
    IsNameChar d := by
  simp only [escapeNameChar, List.mem_cons, List.mem_append, List.not_mem_nil, or_false] at h
  rcases h with (rfl | h) | rfl
  · exact .inl rfl
  · exact isNameChar_of_mem_hex h
  · exact .inl rfl

/-- An escaped name consists of such characters. -/
theorem isNameChar_of_mem_escapeName {cs : List Char} {d : Char} (h : d ∈ escapeName cs) :
    IsNameChar d := by
  cases cs with
  | nil => exact .inl (List.mem_singleton.1 h)
  | cons c rest =>
    -- the first character and the later ones are escaped by different rules
    rcases List.mem_append.1 h with h | h
    · unfold firstChar at h
      split at h
      next hc =>
        obtain rfl := List.mem_singleton.1 h
        rcases Bool.or_eq_true_iff.1 hc with hc | hc
        · exact .inr (.inl (of_decide_eq_true hc))
        · exact .inr (.inr (isIdentifierContinue_of_start hc))
      next => exact isNameChar_of_mem_escapeNameChar h
    · obtain ⟨c, -, h⟩ := List.mem_flatMap.1 h
      unfold laterChar at h
      split at h
      next hc => exact .inr (.inr (List.mem_singleton.1 h ▸ hc))
      next => exact isNameChar_of_mem_escapeNameChar h

/-- Its first one may begin a name. -/
theorem escapeName_begins (cs : List Char) : ∃ c rest, escapeName cs = c :: rest ∧ BeginsName c := by
  cases cs with
  | nil => exact ⟨_, _, rfl, .inl rfl⟩
  | cons c rest =>
    rw [escapeName]
    unfold firstChar
    -- a character that may not begin a name is escaped, and escapes begin with a dollar sign
    split
    next hc =>
      exact ⟨c, _, rfl, .inr ((Bool.or_eq_true_iff.1 hc).imp_left of_decide_eq_true)⟩
    next => exact ⟨_, _, rfl, .inl rfl⟩

/-- The mark of a reserved name makes it neither reserved nor internal. -/
theorem isReserved_marked (cs : List Char) : isReserved ('$' :: '_' :: cs) = false := by
  have hwords : ∀ s ∈ reserved, s.toList.head? ≠ some '$' := by decide
  rw [isReserved, Bool.or_eq_false_iff]
  refine ⟨?_, rfl⟩
  rw [List.contains_eq_mem, decide_eq_false_iff_not]
  intro h
  exact hwords _ h (by rw [String.toList_ofList]; rfl)

/-- A sanitized name is no reserved word. -/
theorem isReserved_sanitize (name : String) : isReserved (sanitize name).toList = false := by
  rw [sanitize, String.toList_ofList]
  split
  next => exact isReserved_marked _
  next h => exact Bool.eq_false_iff.2 h

/-- A name of emitted code is an identifier that nothing else uses. -/
theorem isUsable_sanitize (name : String) : IsUsable (sanitize name) := by
  have hfree := isReserved_sanitize name
  rw [isReserved, Bool.or_eq_false_iff, String.ofList_toList, List.contains_eq_mem,
    decide_eq_false_iff_not] at hfree
  -- a reserved name gets a mark in front, and every other one is the escaped name
  constructor
  case begins =>
    rw [sanitize, String.toList_ofList]
    split
    next => exact ⟨_, _, rfl, .inl rfl⟩
    next => exact escapeName_begins _
  case continues =>
    rw [sanitize, String.toList_ofList]
    split
    next =>
      rw [List.forall_mem_cons, List.forall_mem_cons]
      exact ⟨.inl rfl, .inr (.inl rfl), fun _ => isNameChar_of_mem_escapeName⟩
    next => exact fun _ => isNameChar_of_mem_escapeName
  case unreserved => exact hfree.1
  case notInternal =>
    rw [← List.isPrefixOf_iff_prefix, hfree.2]
    exact Bool.false_ne_true

/-- Different names of a program stay different in emitted code, and each of them is an identifier
there that neither the language nor the support code uses. -/
theorem sanitize_faithful :
    Function.Injective sanitize ∧ ∀ name, IsUsable (sanitize name) := by
  refine ⟨fun name name' h => ?_, isUsable_sanitize⟩
  calc name = unsanitize (sanitize name) := (unsanitize_sanitize name).symm
    _ = unsanitize (sanitize name') := congrArg unsanitize h
    _ = name' := unsanitize_sanitize name'

end BrailleScript.JavaScript
