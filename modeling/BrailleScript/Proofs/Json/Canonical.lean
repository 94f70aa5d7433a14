import Mathlib
import BrailleScript.Proofs.Decimal.Layout
import BrailleScript.Proofs.Json.Quote

/-!
# Compact texts are canonical

Two values with one compact text are one value.  A value is told apart from what follows it: strings,
arrays and objects end with a mark of their own, and a number ends where no character of a number
follows.  Values that hold something other than finite numbers have no text of their own.

## Key results

- `floatText_inj`: finite floats are told apart
- `compact_append_inj`: a value and what follows it are told apart
- `compact_inj`: different values have different texts
-/

namespace BrailleScript.Json

mutual

/-- All floats in the value are finite numbers. -/
def isFinite : Json → Bool
  | float x => x.isFinite
  | array items => itemsFinite items
  | object fields => fieldsFinite fields
  | null | bool _ | int _ | text _ => true

/-- Are the numbers of all items finite? -/
def itemsFinite : List Json → Bool
  | [] => true
  | j :: rest => isFinite j && itemsFinite rest

/-- Are those of all fields? -/
def fieldsFinite : List (String × Json) → Bool
  | [] => true
  | (_, j) :: rest => isFinite j && fieldsFinite rest

end

/-! ## Numbers -/

/-- The characters that numbers are written with. -/
def isNumberChar (c : Char) : Bool :=
  c.isDigit || c = '.' || c = 'e' || c = '+' || c = '-'

/-- Digits stand in numbers. -/
theorem isNumberChar_of_isDigit {c : Char} (h : c.isDigit = true) : isNumberChar c = true := by
  simp [isNumberChar, h]

/-- An integer is written by its digits behind its sign. -/
theorem toList_toString_int (n : Int) :
    (toString n).toList = if n < 0 then '-' :: Nat.toDigits 10 n.natAbs
      else Nat.toDigits 10 n.natAbs := by
  -- the sign is all that the two kinds of integers differ in
  cases n with
  | ofNat m =>
    rw [if_neg (by simp)]
    show (Nat.repr m).toList = _
    rw [Nat.repr_eq_ofList_toDigits, String.toList_ofList]
    rfl
  | negSucc m =>
    rw [if_pos (Int.negSucc_lt_zero m)]
    show ("-" ++ Nat.repr (m + 1)).toList = _
    rw [Nat.repr_eq_ofList_toDigits]
    simp

/-- Integers that are written alike are equal. -/
theorem int_inj {n n' : Int} (h : (toString n).toList = (toString n').toList) : n = n' := by
  -- a dash is no digit, so the signs of two equal texts agree
  have hdash (m : Nat) (rest : List Char) : Nat.toDigits 10 m ≠ '-' :: rest := by
    intro heq
    have hdigit := Nat.isDigit_of_mem_toDigits (by decide) (by decide)
      (heq ▸ List.mem_cons_self : '-' ∈ Nat.toDigits 10 m)
    exact absurd hdigit (by decide)
  rw [toList_toString_int, toList_toString_int] at h
  split_ifs at h with hn hn' hn'
  · have := digits_inj (List.cons.inj h).2
    omega
  · exact absurd h.symm (hdash _ _)
  · exact absurd h (hdash _ _)
  · have := digits_inj h
    omega

/-- Integers are written with digits and a sign. -/
theorem mem_toString_int {n : Int} {c : Char} (h : c ∈ (toString n).toList) :
    c.isDigit = true ∨ c = '-' := by
  have hdigit {c : Char} (hc : c ∈ Nat.toDigits 10 n.natAbs) : c.isDigit = true :=
    Nat.isDigit_of_mem_toDigits (by decide) (by decide) hc
  rw [toList_toString_int] at h
  -- a negative number has a dash in front
  split at h
  · rcases List.mem_cons.1 h with rfl | h
    · exact .inr rfl
    · exact .inl (hdigit h)
  · exact .inl (hdigit h)

/-- So are finite floats. -/
theorem floatText_inj {x y : Float} (hx : x.isFinite = true) (hy : y.isFinite = true)
    (h : floatText x = floatText y) : x = y := by
  rw [floatText, if_pos hx, floatText, if_pos hy] at h
  exact Decimal.Layout.write_inj hx hy h

/-- Finite floats are written with the characters of numbers, among them a point or a power. -/
theorem floatText_chars {x : Float} (h : x.isFinite = true) :
    (∀ c ∈ (floatText x).toList, isNumberChar c = true) ∧
      ∃ c ∈ (floatText x).toList, c = '.' ∨ c = 'e' := by
  -- the layout of a float is a numeral with a point or a power behind a sign
  obtain ⟨sign, n, htext, hsign, hmarked⟩ := floatLayout.write_eq h
  rw [floatText, if_pos h, htext]
  constructor
  · intro c hc
    rcases List.mem_append.1 hc with hc | hc
    · rcases hsign with rfl | rfl
      · cases hc
      · rw [List.mem_singleton.1 hc]
        decide
    · rcases Decimal.Numeral.mem_text hc with hdigit | hmark
      · exact isNumberChar_of_isDigit hdigit
      · simp only [List.mem_cons, List.not_mem_nil, or_false] at hmark
        rcases hmark with rfl | rfl | rfl | rfl <;> decide
  · obtain ⟨c, hc, hmark⟩ := Decimal.Numeral.mark_mem_text (hmarked rfl)
    exact ⟨c, List.mem_append_right _ hc, hmark⟩

/-! ## First characters -/

/-- The kind of value that a character begins. -/
inductive Kind where
  | null | true | false | number | text | array | object | none
  deriving DecidableEq

/-- The kind of value that a character begins. -/
def kindOf (c : Char) : Kind :=
  if c = 'n' then .null
  else if c = 't' then .true
  else if c = 'f' then .false
  else if c = '"' then .text
  else if c = '[' then .array
  else if c = '\x7b' then .object
  else if isNumberChar c then .number
  else .none

/-- The kind of a value. -/
def kind : Json → Kind
  | null => .null
  | bool b => if b then .true else .false
  | int _ | float _ => .number
  | text _ => .text
  | array _ => .array
  | object _ => .object

/-- The characters of numbers begin numbers. -/
theorem kindOf_number {c : Char} (h : isNumberChar c = true) : kindOf c = .number := by
  have hne (d : Char) (hd : isNumberChar d = false) : c ≠ d := by
    rintro rfl
    simp [hd] at h
  simp [kindOf, h, hne 'n' (by decide), hne 't' (by decide), hne 'f' (by decide),
    hne '"' (by decide), hne '[' (by decide), hne '\x7b' (by decide)]

/-- Every value begins with a character of its kind. -/
theorem kindOf_head (j : Json) (h : j.isFinite = true) :
    ∃ c ∈ j.compact.toList.head?, kindOf c = j.kind := by
  -- what is made of the characters of numbers begins with one of them
  have hnumber {cs : List Char} (hne : cs ≠ []) (hcs : ∀ c ∈ cs, isNumberChar c = true) :
      ∃ c ∈ cs.head?, kindOf c = .number := by
    obtain ⟨c, rest, rfl⟩ := List.exists_cons_of_ne_nil hne
    exact ⟨c, rfl, kindOf_number (hcs c (.head _))⟩
  cases j with
  | null => exact ⟨'n', rfl, rfl⟩
  | bool b =>
    cases b
    · exact ⟨'f', rfl, rfl⟩
    · exact ⟨'t', rfl, rfl⟩
  | int n =>
    apply hnumber
    · show (toString n).toList ≠ []
      rw [toList_toString_int]
      split <;> simp [Nat.toDigits_ne_nil]
    · intro c hc
      rcases mem_toString_int hc with hdigit | rfl
      · exact isNumberChar_of_isDigit hdigit
      · decide
  | float x =>
    obtain ⟨hchars, c, hc, -⟩ := floatText_chars h
    exact hnumber (List.ne_nil_of_mem hc) hchars
  | text s => exact ⟨'"', by simp [compact, scalar, quote], rfl⟩
  | array items => exact ⟨'[', by simp [compact], rfl⟩
  | object fields => exact ⟨'\x7b', by simp [compact], rfl⟩

/-! ## Items and fields -/

/-- The items behind the first one. -/
def itemsTail (items : List Json) : List Char :=
  items.flatMap fun j => ',' :: j.compact.toList

/-- A field. -/
def fieldChars (k : String) (j : Json) : List Char :=
  (quote k).toList ++ ':' :: j.compact.toList

/-- The fields behind the first one. -/
def fieldsTail (fields : List (String × Json)) : List Char :=
  fields.flatMap fun p => ',' :: fieldChars p.1 p.2

/-- Commas stand in front of all parts but the first. -/
private theorem intercalate_comma (a : List Char) (rest : List (List Char)) :
    [','].intercalate (a :: rest) = a ++ rest.flatMap (',' :: ·) := by
  induction rest generalizing a with
  | nil => simp
  | cons b rest ih => simp [List.intercalate_cons_cons, ih]

/-- The items of an array are written one by one. -/
theorem compactItems_eq (items : List Json) : compactItems items = items.map compact := by
  induction items with
  | nil => rw [compactItems, List.map_nil]
  | cons j rest ih => rw [compactItems, ih, List.map_cons]

/-- So are the fields of an object. -/
theorem compactFields_eq (fields : List (String × Json)) :
    compactFields fields = fields.map fun p => String.ofList (fieldChars p.1 p.2) := by
  induction fields with
  | nil => rw [compactFields, List.map_nil]
  | cons p rest ih =>
    obtain ⟨k, j⟩ := p
    have hfield : quote k ++ ":" ++ j.compact = String.ofList (fieldChars k j) := by
      apply String.toList_inj.1
      simp [fieldChars]
    rw [compactFields, ih, List.map_cons, hfield]

/-- Each item stands behind a comma. -/
theorem itemsTail_cons (j : Json) (rest : List Json) :
    itemsTail (j :: rest) = ',' :: (j.compact.toList ++ itemsTail rest) := rfl

/-- So does each field. -/
theorem fieldsTail_cons (p : String × Json) (rest : List (String × Json)) :
    fieldsTail (p :: rest) = ',' :: (fieldChars p.1 p.2 ++ fieldsTail rest) := rfl

/-- Between the brackets the first comma is left out. -/
theorem compact_array (items : List Json) :
    (array items).compact.toList = '[' :: ((itemsTail items).tail ++ [']']) := by
  rw [compact, compactItems_eq, String.toList_append, String.toList_append,
    String.toList_intercalate]
  show '[' :: ([','].intercalate _ ++ [']']) = _
  -- the first comma stands in front of the first item
  cases items with
  | nil => rfl
  | cons j rest =>
    rw [List.map_cons, List.map_cons, intercalate_comma, List.map_map, List.flatMap_map]
    rfl

/-- An object is written in braces, without the comma in front. -/
theorem compact_object (fields : List (String × Json)) :
    (object fields).compact.toList = '\x7b' :: ((fieldsTail fields).tail ++ ['\x7d']) := by
  rw [compact, compactFields_eq, String.toList_append, String.toList_append,
    String.toList_intercalate]
  show '\x7b' :: ([','].intercalate _ ++ ['\x7d']) = _
  cases fields with
  | nil => rfl
  | cons p rest =>
    rw [List.map_cons, List.map_cons, intercalate_comma, List.map_map, List.flatMap_map]
    simp [fieldsTail]

/-! ## Values -/

/-- No character of a number comes first. -/
def NoNumberChar (t : List Char) : Prop :=
  ∀ c ∈ t.head?, isNumberChar c = false

/-- A comma goes on with no number. -/
theorem NoNumberChar.comma (t : List Char) : NoNumberChar (',' :: t) := by
  rintro c ⟨⟩
  decide

/-- Nor does what stands behind an item. -/
theorem NoNumberChar.itemsTail (items : List Json) (t : List Char) :
    NoNumberChar (itemsTail items ++ ']' :: t) := by
  cases items with
  | nil =>
    rintro c ⟨⟩
    decide
  | cons j rest => exact .comma _

/-- Nor does what stands behind a field. -/
theorem NoNumberChar.fieldsTail (fields : List (String × Json)) (t : List Char) :
    NoNumberChar (fieldsTail fields ++ '\x7d' :: t) := by
  cases fields with
  | nil =>
    rintro c ⟨⟩
    decide
  | cons p rest => exact .comma _

/-- Numbers are told apart from each other and from what follows them. -/
theorem number_append_inj {j j' : Json} (hkind : j.kind = .number) (hkind' : j'.kind = .number)
    (hj : j.isFinite = true) (hj' : j'.isFinite = true) {t t' : List Char} (ht : NoNumberChar t)
    (ht' : NoNumberChar t') (h : j.compact.toList ++ t = j'.compact.toList ++ t') :
    j = j' ∧ t = t' := by
  have hchars {j : Json} (hkind : j.kind = .number) (hj : j.isFinite = true) :
      ∀ c ∈ j.compact.toList, isNumberChar c = true := by
    cases j with
    | int n =>
      intro c hc
      rcases mem_toString_int hc with hdigit | rfl
      · exact isNumberChar_of_isDigit hdigit
      · decide
    | float x => exact (floatText_chars hj).1
    | bool b => cases b <;> cases hkind
    | null | text | array | object => cases hkind
  -- integers have neither a point nor a power, and floats have one of them
  have hmixed {n : Int} {x : Float} (hx : x.isFinite = true) :
      (toString n).toList ≠ (floatText x).toList := by
    intro heq
    obtain ⟨-, c, hc, hmark⟩ := floatText_chars hx
    have := mem_toString_int (heq ▸ hc)
    rcases hmark with rfl | rfl <;> exact absurd this (by decide)
  obtain ⟨htext, hrest⟩ := Decimal.append_inj_of_all (hchars hkind hj) (hchars hkind' hj') ht ht' h
  refine ⟨?_, hrest⟩
  cases j with
  | int n => cases j' with
    | int n' => rw [int_inj htext]
    | float x' => exact absurd htext (hmixed hj')
    | bool b => cases b <;> cases hkind'
    | null | text | array | object => cases hkind'
  | float x => cases j' with
    | int n' => exact absurd htext.symm (hmixed hj)
    | float x' => rw [floatText_inj hj hj' (String.toList_inj.1 htext)]
    | bool b => cases b <;> cases hkind'
    | null | text | array | object => cases hkind'
  | bool b => cases b <;> cases hkind
  | null | text | array | object => cases hkind

/-- Values whose texts agree are of one kind. -/
theorem kind_eq {j j' : Json} (hj : j.isFinite = true) (hj' : j'.isFinite = true) {t t' : List Char}
    (h : j.compact.toList ++ t = j'.compact.toList ++ t') : j.kind = j'.kind := by
  -- the first characters agree, and they tell the kind
  have hhead {j : Json} {c : Char} (hc : c ∈ j.compact.toList.head?) (t : List Char) :
      (j.compact.toList ++ t).head? = some c := by
    rw [List.head?_append, hc]
    rfl
  obtain ⟨c, hc, hkind⟩ := kindOf_head j hj
  obtain ⟨c', hc', hkind'⟩ := kindOf_head j' hj'
  have heq := congrArg List.head? h
  rw [hhead hc, hhead hc'] at heq
  rw [← hkind, ← hkind', Option.some.inj heq]

/-- No value begins with the end of an array. -/
theorem compact_ne_bracket {j : Json} (hj : j.isFinite = true) {t t' : List Char} :
    j.compact.toList ++ t ≠ ']' :: t' := by
  intro h
  obtain ⟨c, hc, hkind⟩ := kindOf_head j hj
  have hhead := congrArg List.head? h
  rw [List.head?_append, hc] at hhead
  cases hhead
  cases j with
  | bool b => cases b <;> cases hkind
  | null | int | float | text | array | object => cases hkind

/-- Arrays that are written alike have items that are. -/
theorem itemsTail_eq {items items' : List Json} (hj : itemsFinite items = true)
    (hj' : itemsFinite items' = true) {t t' : List Char}
    (h : (array items).compact.toList ++ t = (array items').compact.toList ++ t') :
    itemsTail items ++ ']' :: t = itemsTail items' ++ ']' :: t' := by
  rw [compact_array, compact_array] at h
  simp only [List.cons_append, List.append_assoc, List.nil_append, List.cons.injEq, true_and] at h
  -- a closing bracket begins no value, so that both are empty or neither is
  cases items with
  | nil => cases items' with
    | nil => exact h
    | cons j' rest' =>
      rw [itemsTail_cons, List.tail_cons, List.append_assoc] at h
      exact absurd h.symm (compact_ne_bracket (Bool.and_eq_true_iff.1 hj').1)
  | cons j rest => cases items' with
    | nil =>
      rw [itemsTail_cons, List.tail_cons, List.append_assoc] at h
      exact absurd h (compact_ne_bracket (Bool.and_eq_true_iff.1 hj).1)
    | cons j' rest' =>
      simp only [itemsTail_cons, List.tail_cons] at h
      simp only [itemsTail_cons, List.cons_append, h]

/-- Objects that are written alike have fields that are. -/
theorem fieldsTail_eq {fields fields' : List (String × Json)} {t t' : List Char}
    (h : (object fields).compact.toList ++ t = (object fields').compact.toList ++ t') :
    fieldsTail fields ++ '\x7d' :: t = fieldsTail fields' ++ '\x7d' :: t' := by
  -- the first character of a field is a quote
  have hquote (p : String × Json) (rest : List (String × Json)) (t t' : List Char) :
      (fieldsTail (p :: rest)).tail ++ t ≠ '\x7d' :: t' := by
    rw [fieldsTail_cons, List.tail_cons, fieldChars, quote, String.toList_ofList]
    simp
  rw [compact_object, compact_object] at h
  simp only [List.cons_append, List.append_assoc, List.nil_append, List.cons.injEq, true_and] at h
  cases fields with
  | nil => cases fields' with
    | nil => exact h
    | cons p' rest' => exact absurd h.symm (hquote p' rest' _ _)
  | cons p rest => cases fields' with
    | nil => exact absurd h (hquote p rest _ _)
    | cons p' rest' =>
      simp only [fieldsTail_cons, List.tail_cons] at h
      simp only [fieldsTail_cons, List.cons_append, h]

mutual

/-- A value is told apart from what follows it. -/
theorem compact_append_inj (j j' : Json) (hj : j.isFinite = true) (hj' : j'.isFinite = true)
    {t t' : List Char} (ht : NoNumberChar t) (ht' : NoNumberChar t')
    (h : j.compact.toList ++ t = j'.compact.toList ++ t') : j = j' ∧ t = t' := by
  -- the first character tells the kind, so values of different kinds are out at once
  have hkind := kind_eq hj hj' h
  cases j with
  | int n => exact number_append_inj rfl hkind.symm hj hj' ht ht' h
  | float x => exact number_append_inj rfl hkind.symm hj hj' ht ht' h
  | null => cases j' with
    | null => exact ⟨rfl, List.append_cancel_left h⟩
    | bool b => cases b <;> cases hkind
    | int | float | text | array | object => cases hkind
  | bool b => cases j' with
    | bool b' =>
      obtain rfl : b = b' := by cases b <;> cases b' <;> first | rfl | cases hkind
      exact ⟨rfl, List.append_cancel_left h⟩
    | null | int | float | text | array | object => cases b <;> cases hkind
  | text s => cases j' with
    | text s' =>
      obtain ⟨rfl, hrest⟩ := quote_append_inj h
      exact ⟨rfl, hrest⟩
    | bool b => cases b <;> cases hkind
    | null | int | float | array | object => cases hkind
  | array items => cases j' with
    | array items' =>
      obtain ⟨rfl, hrest⟩ := itemsTail_append_inj items items' hj hj' (itemsTail_eq hj hj' h)
      exact ⟨rfl, hrest⟩
    | bool b => cases b <;> cases hkind
    | null | int | float | text | object => cases hkind
  | object fields => cases j' with
    | object fields' =>
      obtain ⟨rfl, hrest⟩ := fieldsTail_append_inj fields fields' hj hj' (fieldsTail_eq h)
      exact ⟨rfl, hrest⟩
    | bool b => cases b <;> cases hkind
    | null | int | float | text | array => cases hkind

/-- So are the items of an array, one after the other. -/
theorem itemsTail_append_inj (items items' : List Json) (hj : itemsFinite items = true)
    (hj' : itemsFinite items' = true) {t t' : List Char}
    (h : itemsTail items ++ ']' :: t = itemsTail items' ++ ']' :: t') :
    items = items' ∧ t = t' := by
  cases items with
  | nil => cases items' with
    | nil => exact ⟨rfl, (List.cons.inj h).2⟩
    | cons j' rest' => exact absurd (List.cons.inj h).1 (by decide)
  | cons j rest => cases items' with
    | nil => exact absurd (List.cons.inj h).1 (by decide)
    | cons j' rest' =>
      obtain ⟨hfirst, hrest⟩ := Bool.and_eq_true_iff.1 hj
      obtain ⟨hfirst', hrest'⟩ := Bool.and_eq_true_iff.1 hj'
      simp only [itemsTail_cons, List.cons_append, List.append_assoc, List.cons.injEq,
        true_and] at h
      -- behind a value stands a comma or a bracket, which tells where it ends
      obtain ⟨rfl, htail⟩ := compact_append_inj j j' hfirst hfirst' (.itemsTail rest t)
        (.itemsTail rest' t') h
      obtain ⟨rfl, ht⟩ := itemsTail_append_inj rest rest' hrest hrest' htail
      exact ⟨rfl, ht⟩

/-- And the fields of an object, first the name and then the value of each. -/
theorem fieldsTail_append_inj (fields fields' : List (String × Json))
    (hj : fieldsFinite fields = true) (hj' : fieldsFinite fields' = true) {t t' : List Char}
    (h : fieldsTail fields ++ '\x7d' :: t = fieldsTail fields' ++ '\x7d' :: t') :
    fields = fields' ∧ t = t' := by
  cases fields with
  | nil => cases fields' with
    | nil => exact ⟨rfl, (List.cons.inj h).2⟩
    | cons p' rest' => exact absurd (List.cons.inj h).1 (by decide)
  | cons p rest => cases fields' with
    | nil => exact absurd (List.cons.inj h).1 (by decide)
    | cons p' rest' =>
      cases p with | mk k j => cases p' with | mk k' j' =>
      obtain ⟨hfirst, hrest⟩ := Bool.and_eq_true_iff.1 hj
      obtain ⟨hfirst', hrest'⟩ := Bool.and_eq_true_iff.1 hj'
      simp only [fieldsTail_cons, fieldChars, List.cons_append, List.append_assoc, List.cons.injEq,
        true_and] at h
      -- a name ends at its quote, and its value where a comma or a brace follows
      obtain ⟨rfl, hvalue⟩ := quote_append_inj h
      obtain ⟨rfl, htail⟩ := compact_append_inj j j' hfirst hfirst' (.fieldsTail rest t)
        (.fieldsTail rest' t') (List.cons.inj hvalue).2
      obtain ⟨rfl, ht⟩ := fieldsTail_append_inj rest rest' hrest hrest' htail
      exact ⟨rfl, ht⟩

end

/-- Different values have different compact texts. -/
theorem compact_inj {j j' : Json} (hj : j.isFinite = true) (hj' : j'.isFinite = true)
    (h : j.compact = j'.compact) : j = j' := by
  have hend : NoNumberChar [] := by rintro c ⟨⟩
  exact (compact_append_inj j j' hj hj' hend hend (by rw [h])).1

end BrailleScript.Json
