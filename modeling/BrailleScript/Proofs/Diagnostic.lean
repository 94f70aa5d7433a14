import BrailleScript.Diagnostic
import Mathlib.Data.List.DropRight

/-!
# What an excerpt shows

The line of a place is the one with as many line feeds in front of it, and the character there stands
in it behind the characters since the last line feed.  `MarksColumn` says where the mark of an excerpt
stands under the line that is shown.  It stands one place to the right of the column, since the
gutter under the line is wider by a space than the gutter in front of it.

## Key results

- `Text.linesFrom_getElem?`, `lineAt_getElem?`: the character in its line
- `lineAt_noFeed`: a line has no line feed in it
- `excerpt_marksColumn`, `MarksColumn.unique`: where the mark stands, and that it stands nowhere else
-/

namespace BrailleScript

/-! ## Lines -/

namespace Text

variable {current : List Char}

/-- Dropping a carriage return adds no line feed. -/
theorem noFeed_dropReturn {line : List Char} (h : '\n' ∉ line) : '\n' ∉ dropReturn line := by
  unfold dropReturn
  split
  · exact fun hmem => h (List.dropLast_subset line hmem)
  · exact h

/-- No line holds a line feed. -/
theorem linesFrom_noFeed (cs : List Char) (hcurrent : '\n' ∉ current) :
    ∀ line ∈ linesFrom current cs, '\n' ∉ line := by
  -- the line in progress has no line feed, and takes no character that is one
  induction cs generalizing current with
  | nil =>
    unfold linesFrom
    split
    · exact fun line hline => absurd hline List.not_mem_nil
    · exact List.forall_mem_singleton.2 (by simpa using hcurrent)
  | cons c cs ih =>
    unfold linesFrom
    split
    · have hline : '\n' ∉ dropReturn current.reverse := noFeed_dropReturn (by simpa using hcurrent)
      exact List.forall_mem_cons.2 ⟨hline, ih List.not_mem_nil⟩
    · next hc => exact ih (List.not_mem_cons_of_ne_of_not_mem (Ne.symm hc) hcurrent)

/-- Only the last character of a line can be dropped, and only a carriage return. -/
theorem dropReturn_getElem? {cs : List Char} {k : Nat} {c : Char} (h : cs[k]? = some c)
    (hc : c ≠ '\r') : (dropReturn cs)[k]? = some c := by
  unfold dropReturn
  split
  · next hlast =>
    obtain ⟨front, rfl⟩ := List.getLast?_eq_some_iff.1 hlast
    rw [List.dropLast_concat]
    -- the character stands in front of the last one, or is it
    rcases Nat.lt_or_ge k front.length with hk | hk
    · rwa [List.getElem?_append_left hk] at h
    · have hmem := List.mem_of_getElem? (List.getElem?_append_right hk ▸ h)
      exact absurd (List.mem_singleton.1 hmem) hc
  · exact h

/-- The line in progress comes first, with what is behind it up to the next line feed. -/
theorem linesFrom_zero (cs : List Char) {k : Nat} {c : Char} (h : current.reverse[k]? = some c)
    (hc : c ≠ '\r') : ∃ shown, (linesFrom current cs)[0]? = some shown ∧ shown[k]? = some c := by
  induction cs generalizing current with
  | nil =>
    have hne : current.isEmpty = false := by
      cases current with
      | nil => exact nomatch h
      | cons d current => rfl
    exact ⟨current.reverse, by rw [linesFrom, hne]; rfl, h⟩
  | cons d cs ih =>
    unfold linesFrom
    split
    · -- at the line feed the line in progress is complete; the return that may be dropped is behind
      -- the character
      exact ⟨_, rfl, dropReturn_getElem? h hc⟩
    · obtain ⟨hk, -⟩ := List.getElem?_eq_some_iff.1 h
      exact ih (by rwa [List.reverse_cons, List.getElem?_append_left hk])

/-- What stands in front of the last line feed is not in the line. -/
theorem rtakeWhile_feed (front line : List Char) :
    (front ++ '\n' :: line).rtakeWhile (· != '\n') = line.rtakeWhile (· != '\n') := by
  induction line using List.reverseRecOn with
  | nil => exact List.rtakeWhile_concat_neg _ _ _ (by simp)
  | append_singleton line c ih =>
    rw [← List.cons_append, ← List.append_assoc, List.rtakeWhile_concat, List.rtakeWhile_concat, ih]

/-- A text without line feeds is its own last line. -/
theorem rtakeWhile_noFeed {line : List Char} (h : '\n' ∉ line) :
    line.rtakeWhile (· != '\n') = line := by
  rw [List.rtakeWhile_eq_self_iff]
  rintro c hc
  rw [bne_iff_ne]
  rintro rfl
  exact h hc

/-- A character stands in the line with as many line feeds in front of it, behind the characters
since the last of them. -/
theorem linesFrom_getElem? (before after : List Char) {c : Char} (hfeed : c ≠ '\n')
    (hreturn : c ≠ '\r') (hcurrent : '\n' ∉ current) :
    ∃ shown, (linesFrom current (before ++ c :: after))[before.count '\n']? = some shown ∧
      shown[((current.reverse ++ before).rtakeWhile (· != '\n')).length]? = some c := by
  induction before generalizing current with
  | nil =>
    rw [List.nil_append, linesFrom, if_neg hfeed, List.append_nil,
      rtakeWhile_noFeed (by simpa using hcurrent)]
    exact linesFrom_zero after (by simp) hreturn
  | cons d before ih =>
    rw [List.cons_append, linesFrom]
    split
    · next hd =>
      -- the next line begins
      subst hd
      obtain ⟨line, hline, hget⟩ := @ih [] List.not_mem_nil
      rw [List.count_cons_self, rtakeWhile_feed]
      exact ⟨line, hline, hget⟩
    · next hd =>
      obtain ⟨line, hline, hget⟩ := ih (List.not_mem_cons_of_ne_of_not_mem (Ne.symm hd) hcurrent)
      rw [List.count_cons_of_ne hd]
      rw [List.reverse_cons, List.append_assoc] at hget
      exact ⟨line, hline, hget⟩

end Text

namespace Diagnostic

/-- The line of a number holds no line feed. -/
theorem lineAt_noFeed (source : String) (n : Nat) : '\n' ∉ (lineAt source n).toList := by
  unfold lineAt Text.linesOf
  rw [List.getD_eq_getElem?_getD, List.getElem?_map]
  cases hline : (Text.linesFrom [] source.toList)[n - 1]? with
  | none => exact List.not_mem_nil
  | some line =>
    have hmem := Text.linesFrom_noFeed _ List.not_mem_nil line (List.mem_of_getElem? hline)
    simpa using hmem

/-- The line of a character, and the character in it. -/
theorem lineAt_getElem? {source : String} {before after : List Char} {c : Char}
    (hsource : source.toList = before ++ c :: after) (hfeed : c ≠ '\n') (hreturn : c ≠ '\r') :
    (lineAt source (1 + before.count '\n')).toList[(before.rtakeWhile (· != '\n')).length]? =
      some c := by
  obtain ⟨line, hline, hget⟩ :=
    Text.linesFrom_getElem? before after hfeed hreturn (List.not_mem_nil : '\n' ∉ [])
  unfold lineAt Text.linesOf
  rw [List.getD_eq_getElem?_getD, List.getElem?_map, hsource, Nat.add_sub_cancel_left, hline]
  simpa using hget

/-! ## Marks -/

/-- The text ends with the line, behind a gutter, and with a mark under it.  The mark stands `shift`
places to the right of the column. -/
def MarksColumn (shift : Nat) (text line : String) (col : Nat) : Prop :=
  ∃ head gutter indent : List Char,
    text.toList = (head ++ '\n' :: (gutter ++ line.toList)) ++ '\n' :: (indent ++ ['^']) ∧
    ('\n' ∉ gutter ∧ '\n' ∉ line.toList ∧ '\n' ∉ indent) ∧
    indent.length + 1 = gutter.length + col + shift

/-- There is one last line feed. -/
theorem last_feed_unique {a b a' b' : List Char} (h : a ++ '\n' :: b = a' ++ '\n' :: b')
    (hb : '\n' ∉ b) (hb' : '\n' ∉ b') : a = a' ∧ b = b' := by
  -- the part that one split has more would hold the other one's line feed
  rcases List.append_eq_append_iff.1 h with ⟨mid, rfl, hmid⟩ | ⟨mid, rfl, hmid⟩
  · cases mid with
    | nil => exact ⟨by simp, by simpa using hmid⟩
    | cons d mid =>
      obtain ⟨rfl, rfl⟩ := List.cons.inj hmid
      exact absurd (by simp) hb
  · cases mid with
    | nil => exact ⟨by simp, by simpa using hmid.symm⟩
    | cons d mid =>
      obtain ⟨rfl, rfl⟩ := List.cons.inj hmid
      exact absurd (by simp) hb'

/-- A line marks a column with one shift only. -/
theorem MarksColumn.unique {shift shift' : Nat} {text line : String} {col : Nat}
    (h : MarksColumn shift text line col) (h' : MarksColumn shift' text line col) :
    shift = shift' := by
  obtain ⟨head, gutter, indent, htext, ⟨hgutter, hline, hindent⟩, hcol⟩ := h
  obtain ⟨head', gutter', indent', htext', ⟨hgutter', -, hindent'⟩, hcol'⟩ := h'
  -- the marks are the last line, and the excerpt is the one before
  obtain ⟨hshown, hmark⟩ := last_feed_unique (htext.symm.trans htext')
    (by simpa using hindent) (by simpa using hindent')
  obtain ⟨-, hgutters⟩ := last_feed_unique hshown
    (by simp [hgutter, hline]) (by simp [hgutter', hline])
  have hindents := congrArg List.length hmark
  have hlength := congrArg List.length hgutters
  simp only [List.length_append] at hindents hlength
  omega

/-- So many spaces are so many characters. -/
theorem length_spaces (n : Nat) : (spaces n).length = n := by
  rw [spaces, String.length_ofList, List.length_replicate]

/-- Spaces hold no line feed. -/
theorem noFeed_spaces (n : Nat) : '\n' ∉ (spaces n).toList := by
  rw [spaces, String.toList_ofList]
  exact fun h => absurd (List.eq_of_mem_replicate h) (by decide)

/-- Padding adds no line feed. -/
theorem noFeed_padLeft {s : String} (h : '\n' ∉ s.toList) (width : Nat) :
    '\n' ∉ (padLeft width s).toList := by
  rw [padLeft, String.toList_append, List.mem_append]
  exact fun hmem => hmem.elim (noFeed_spaces _) h

/-- A printed number holds no line feed. -/
theorem noFeed_toString (n : Nat) : '\n' ∉ (toString n).toList := by
  intro h
  have hdigit := Nat.isDigit_of_mem_toDigits (b := 10) (by decide) (by decide)
    (show '\n' ∈ Nat.toDigits 10 n by simpa [toString, Nat.repr_eq_ofList_toDigits] using h)
  cases hdigit

/-- The mark stands one place to the right of the column: there is a space in front of the gutter in
the line of the mark, and none in the line that is shown. -/
theorem excerpt_marksColumn (file source title : String) (pos : Pos) (hcol : 0 < pos.col) :
    MarksColumn 1 (excerpt file source title pos 1) (lineAt source pos.line) pos.col := by
  have hnumber := noFeed_padLeft (noFeed_toString pos.line) 4
  unfold excerpt
  generalize padLeft 4 (toString pos.line) = number at hnumber
  -- in front of the line that is shown, its gutter, and what stands before the mark
  refine ⟨("error: " ++ title ++ "\n" ++ "--> " ++ file ++ ":" ++ pos.text ++ "\n" ++ " " ++
    spaces number.length ++ " |").toList, (number ++ " | ").toList,
    (" " ++ spaces number.length ++ " | " ++ spaces (pos.col - 1)).toList, ?_,
    ⟨?_, lineAt_noFeed source pos.line, ?_⟩, ?_⟩
  · simp only [String.toList_append, List.append_assoc, List.cons_append, List.nil_append,
      show "\n".toList = ['\n'] from rfl, show " |\n".toList = " |".toList ++ ['\n'] from rfl,
      show (String.ofList (List.replicate (max 1 1) '^')).toList = ['^'] from rfl]
  · rw [String.toList_append, List.mem_append]
    exact fun h => h.elim hnumber (by decide)
  · simp [noFeed_spaces]
  · simp only [String.toList_append, List.length_append, String.length_toList, length_spaces,
      show " ".toList = [' '] from rfl, show " | ".toList = [' ', '|', ' '] from rfl,
      List.length_cons, List.length_nil]
    omega

end Diagnostic

end BrailleScript
