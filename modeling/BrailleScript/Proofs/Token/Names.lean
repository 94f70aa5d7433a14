import BrailleScript.Proofs.Token.Spelling

/-!
# Names and strings in cells

Every word of cells may be a name, and no two words are the same name, be they UTF-8 or not.  An
escape in front of a word makes a name of it, and a word that is a name without one has the same
name then.  A string may have any text, since no cell of a text ends it.

## Key results

- `Lexer.wordKind_eq_identifier_iff`: which words are names without an escape
- `Lexer.exists_wordKind_of_tokenize`: a word is one token or none
- `names_never_merge`: words and their names
- `string_carries_text`: texts and their strings
-/

namespace BrailleScript

/-! ## Words -/

/-- Cells that form a word: there are some, and none is a mark. -/
structure IsWord (w : String) : Prop where
  ne_nil : w.toList ≠ []
  cells : ∀ c ∈ w.toList, Symbol.isWordCell c = true

/-- Words that need no escape to be names: two cells or more, of which the first is no number sign,
or one cell that has no role and is no number sign. -/
def IsPlainName (w : String) : Prop :=
  (2 ≤ w.toList.length ∧ w.toList.head? ≠ some Symbol.numberSign) ∨
    ∃ c, w.toList = [c] ∧ Role.ofCell? c = none ∧ c ≠ Symbol.numberSign

/-- The source is one token, of this kind. -/
def ReadsAs (lenient : Bool) (source : String) (kind : TokenKind) : Prop :=
  ∃ tokens, tokenize lenient source = .ok tokens ∧ tokens.map (·.kind) = [kind, .endOfInput]

/-- A source that is scanned whole is read as one token. -/
theorem Lexer.ScansAs.readsAs {lenient : Bool} {source : String} {kind : TokenKind}
    (h : ScansAs lenient source.toList [] kind) : ReadsAs lenient source kind := by
  have hlexes : Lexes lenient (source.toList ++ []) [kind] := .append h .nil
  rw [List.append_nil] at hlexes
  exact hlexes Cursor.start

/-- A word consists of cells. -/
theorem IsWord.isCell {w : String} (h : IsWord w) : ∀ c ∈ w.toList, Cell.isCell c = true :=
  fun c hc => Lexer.isCell_of_isWordCell (h.cells c hc)

namespace Lexer

variable {lenient : Bool} {w : String} {kind : TokenKind} {name : String}

/-- A word is a name without an escape if it needs none, and then it has the name of its cells. -/
theorem wordKind_eq_identifier_iff (h : IsWord w) :
    wordKind w.toList = .ok (.identifier name) ↔ IsPlainName w ∧ name = Cell.decodeName w := by
  obtain ⟨c, cells, hcs⟩ := List.exists_cons_of_ne_nil h.ne_nil
  rw [IsPlainName, Cell.decodeName, hcs, wordKind]
  by_cases hsign : c = Symbol.numberSign
  · -- behind a number sign stands a number or nothing that can be read
    rw [if_pos hsign]
    cases number? cells <;> simp [hsign]
  · rw [if_neg hsign]
    cases cells with
    | nil => cases hrole : Role.ofCell? c with
      | none => simp [hrole, hsign, eq_comm]
      | some role => cases role <;> simp [hrole]
    | cons d cells => simp [hsign, eq_comm]

/-- A word is one token, of the kind that its cells have. -/
theorem readsAs_word (h : IsWord w) (hkind : wordKind w.toList = .ok kind) :
    ReadsAs lenient w kind := by
  obtain ⟨c, cells, hcs⟩ := List.exists_cons_of_ne_nil h.ne_nil
  refine ScansAs.readsAs ?_
  rw [hcs] at hkind ⊢
  exact scansAs_word (hcs ▸ h.cells) hkind (by simp)

/-- A word that is tokenized is one token of its kind. -/
theorem exists_wordKind_of_tokenize (h : IsWord w) {tokens : List Token}
    (ht : tokenize lenient w = .ok tokens) :
    ∃ kind, wordKind w.toList = .ok kind ∧ tokens.map (·.kind) = [kind, .endOfInput] := by
  cases hkind : wordKind w.toList with
  | ok kind =>
    have hreads : ReadsAs lenient w kind := readsAs_word h hkind
    obtain ⟨tokens', ht', hkinds⟩ := hreads
    exact ⟨kind, rfl, Except.ok.inj (ht'.symm.trans ht) ▸ hkinds⟩
  | error fault =>
    -- a word that cannot be read makes the source one that cannot
    obtain ⟨c, cells, hcs⟩ := List.exists_cons_of_ne_nil h.ne_nil
    have hcells := hcs ▸ h.cells
    have hscan : scan lenient c cells = .error fault := by
      have hword : scan lenient c (cells ++ []) = _ := scan_word hcells (by simp)
      rw [List.append_nil, ← hcs, hkind] at hword
      exact hword
    have hblank := Cell.isBlank_of_isCell (h.isCell c (hcs ▸ List.mem_cons_self))
    rw [tokenize, hcs, tokensFrom, if_neg (by simp [hblank])] at ht
    split at ht
    · cases ht
    next hs =>
      rw [hscan] at hs
      cases hs

end Lexer

/-! ## Names -/

/-- Different words have different names.  A word behind an escape is one name, whatever blanks
stand between them, and so is a word that needs no escape, but no other word; the name is always
that of the cells of the word. -/
theorem names_never_merge (lenient : Bool) {v w blanks : String} (hv : IsWord v) (hw : IsWord w)
    (hblanks : ∀ c ∈ blanks.toList, Text.isBlank c = true) :
    (v ≠ w → Cell.decodeName v ≠ Cell.decodeName w) ∧
    ReadsAs lenient (Symbol.identifierEscape.toString ++ blanks ++ w)
      (.identifier (Cell.decodeName w)) ∧
    (IsPlainName w → ReadsAs lenient w (.identifier (Cell.decodeName w))) ∧
    (∀ tokens name, tokenize lenient w = .ok tokens → .identifier name ∈ tokens.map (·.kind) →
      IsPlainName w ∧ name = Cell.decodeName w) := by
  refine ⟨fun hne h => hne ?_, ?_, fun hplain => ?_, fun tokens name ht hname => ?_⟩
  · -- the cells can be read off from the name
    have hchars := congrArg String.toList h
    rw [Cell.decodeName, Cell.decodeName, String.toList_ofList, String.toList_ofList] at hchars
    exact String.toList_inj.1 (Cell.decodeNameChars_inj hv.isCell hw.isCell hchars)
  · refine Lexer.ScansAs.readsAs ?_
    -- the escape takes the blanks and the word behind it
    have hescape : Lexer.ScansAs lenient _ [] _ :=
      Lexer.scansAs_escapedWord hblanks hw.ne_nil hw.cells (by simp)
    simpa [Char.toString, Cell.decodeName] using hescape
  · exact Lexer.readsAs_word hw ((Lexer.wordKind_eq_identifier_iff hw).2 ⟨hplain, rfl⟩)
  · -- what is read of the whole word is one token, and a name only if nothing else comes first
    obtain ⟨kind, hkind, hkinds⟩ := Lexer.exists_wordKind_of_tokenize hw ht
    rw [hkinds] at hname
    obtain rfl : kind = .identifier name := by simpa [eq_comm] using hname
    exact (Lexer.wordKind_eq_identifier_iff hw).1 hkind

/-- The cell of a stray byte and the four cells that spell its name are two names. -/
theorem names_never_merge_lookalike :
    Cell.decodeName "⢀" = "\\x80" ∧ Cell.decodeName "⡜⡸⠸⠰" = "\\\\x80" ∧
    ReadsAs false "⣽ \n⢀" (.identifier "\\x80") ∧
    ReadsAs true "⡜⡸⠸⠰" (.identifier "\\\\x80") := by
  have hstray : IsWord "⢀" := ⟨by decide, List.all_eq_true.1 (by decide)⟩
  have hspelled : IsWord "⡜⡸⠸⠰" := ⟨by decide, List.all_eq_true.1 (by decide)⟩
  have hneeds : IsPlainName "⡜⡸⠸⠰" := .inl ⟨by decide, by decide⟩
  have hname : Cell.decodeName "⢀" = "\\x80" := by decide +kernel
  have hname' : Cell.decodeName "⡜⡸⠸⠰" = "\\\\x80" := by decide +kernel
  have hblanks : ∀ c ∈ (" \n" : String).toList, Text.isBlank c = true :=
    List.all_eq_true.1 (by decide)
  -- one is read behind an escape, and the other one without
  have hescaped := (names_never_merge false hspelled hstray hblanks).2.1
  have hplain := (names_never_merge true hstray hspelled hblanks).2.2.1
  exact ⟨hname, hname', hname ▸ hescaped, hname' ▸ hplain hneeds⟩

/-! ## Strings -/

/-- A text is read back from its cells, none of which is a number sign or a mark, and between marks
it is one string. -/
theorem string_carries_text (lenient : Bool) (t : String) :
    Cell.decodeText (Cell.encodeText t) = t ∧
    (∀ c ∈ (Cell.encodeText t).toList, c ≠ Symbol.numberSign ∧ c ≠ Symbol.identifierEscape ∧
      c ≠ Symbol.commentMark ∧ c ≠ Symbol.stringMark) ∧
    ReadsAs lenient
      (Symbol.stringMark.toString ++ Cell.encodeText t ++ Symbol.stringMark.toString)
      (.text t) := by
  refine ⟨?_, fun c hc => ?_, ?_⟩
  · rw [Cell.decodeText, Cell.encodeText, String.toList_ofList, Cell.decodeChars_encodeChars,
      String.ofList_toList]
  · rw [Cell.encodeText, String.toList_ofList] at hc
    -- marks and the number sign are cells of their own
    have hne {mark : Char} (hmark : Cell.base + 0xF8 ≤ mark.toNat) : c ≠ mark :=
      Cell.ne_of_mem_encodeChars hc hmark
    exact ⟨hne (by decide), hne (by decide), hne (by decide), hne (by decide)⟩
  · refine Lexer.ScansAs.readsAs ?_
    have htext : Lexer.ScansAs lenient _ [] _ := Lexer.scansAs_text t.toList
    simpa [Char.toString, Cell.encodeText] using htext

end BrailleScript
