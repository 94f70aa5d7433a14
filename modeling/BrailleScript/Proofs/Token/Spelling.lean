import BrailleScript.Proofs.Decimal.Nearest
import BrailleScript.Proofs.Readable
import BrailleScript.Proofs.Token.Texts
import Mathlib.Data.List.Forall2

/-!
# What readable text means

Spelling a readable text in cells and reading the cells gives one token for each part of the text:
`Lexeme.Means` says which.  Words are written in cells that no other word runs into, since a space
or a blank follows each of them, and the cells of a name are neither marks nor a number sign.

## Key results

- `Lexer.Lexes.append`: a token in front of the rest of a source
- `Readable.scansAs_wordCells`: the cells of a word are one token
- `Readable.Lexeme.Means.unique`: a part of a text stands for one token
- `Readable.Splits.renders`: the cells of a text are the tokens of its parts
- `tokenize_spell`: reading what was spelled
-/

namespace BrailleScript

/-! ## Tokens in front -/

namespace Lexer

variable {lenient : Bool}

/-- The tokens of a source are of these kinds, wherever the source stands. -/
def Lexes (lenient : Bool) (cs : List Char) (kinds : List TokenKind) : Prop :=
  ∀ here, ∃ tokens, tokensFrom lenient here cs = .ok tokens ∧
    tokens.map (·.kind) = kinds ++ [.endOfInput]

/-- The cells before the rest of a source are one token. -/
inductive ScansAs (lenient : Bool) : List Char → List Char → TokenKind → Prop
  | intro {c : Char} {cells rest : List Char} {kind : TokenKind} (raw : List Char)
    (hc : Text.isBlank c = false) (hs : scan lenient c (cells ++ rest) = .ok ⟨kind, raw, rest⟩) :
    ScansAs lenient (c :: cells) rest kind

/-- An empty source has no token. -/
theorem Lexes.nil : Lexes lenient [] [] := by
  intro here
  refine ⟨[endToken here], ?_, rfl⟩
  rw [tokensFrom]

/-- A blank adds none. -/
theorem Lexes.blank {c : Char} {cs : List Char} {kinds : List TokenKind}
    (hc : Text.isBlank c = true) (h : Lexes lenient cs kinds) : Lexes lenient (c :: cs) kinds := by
  intro here
  obtain ⟨tokens, ht, hkinds⟩ := h (here.advance c)
  refine ⟨tokens, ?_, hkinds⟩
  rw [tokensFrom, if_pos hc, ht]

/-- A token in front of the others. -/
theorem Lexes.append {cells rest : List Char} {kind : TokenKind} {kinds : List TokenKind}
    (hfront : ScansAs lenient cells rest kind) (h : Lexes lenient rest kinds) :
    Lexes lenient (cells ++ rest) (kind :: kinds) := by
  obtain @⟨c, cells, rest, kind, raw, hc, hs⟩ := hfront
  intro here
  obtain ⟨tokens, ht, hkinds⟩ := h (here.advanceAll raw)
  rw [List.cons_append, tokensFrom, if_neg (by simp [hc])]
  split
  next hs' =>
    rw [hs] at hs'
    cases hs'
  next hs' =>
    rw [hs] at hs'
    cases hs'
    rw [ht]
    exact ⟨_, rfl, congrArg _ hkinds⟩

section Scans

variable {rest : List Char}

/-- A comment without blanks around it is given back. -/
theorem scansAs_comment {t : List Char} (ht : Text.trimChars t = t)
    (hrest : ∀ c ∈ rest.head?, c = '\n') :
    ScansAs lenient (Symbol.commentMark :: Cell.encodeChars t) rest
      (.comment (String.ofList t)) := by
  apply ScansAs.intro _ (by decide)
  rw [scan_eq_iff.2 (.comment rfl), Readable.Spelled.scanComment_encodeChars t hrest, ht]

/-- An encoded text between its marks is scanned as it. -/
theorem scansAs_text (t : List Char) :
    ScansAs lenient (Symbol.stringMark :: (Cell.encodeChars t ++ [Symbol.stringMark])) rest
      (.text (String.ofList t)) := by
  apply ScansAs.intro _ (by decide)
  refine scan_eq_iff.2 (.string rfl ?_)
  rw [List.append_assoc, List.singleton_append, Readable.Spelled.scanString_encodeChars]

/-- The cells of encoded characters stand in words. -/
theorem isWordCell_of_mem_encodeChars {t : List Char} {c : Char} (hc : c ∈ Cell.encodeChars t) :
    Symbol.isWordCell c = true := by
  simp [Symbol.isWordCell, Cell.isCell_of_mem_encodeChars hc,
    Cell.isStructural_of_mem_encodeChars hc]

/-- What stands in a word is a cell. -/
theorem isCell_of_isWordCell {c : Char} (hc : Symbol.isWordCell c = true) :
    Cell.isCell c = true := by
  rw [Symbol.isWordCell, Bool.and_eq_true] at hc
  exact hc.1

/-- An escape, blanks and a word are a name. -/
theorem scansAs_escapedWord {blanks word : List Char}
    (hblanks : ∀ c ∈ blanks, Text.isBlank c = true) (hne : word ≠ [])
    (hword : ∀ c ∈ word, Symbol.isWordCell c = true)
    (hrest : ∀ c ∈ rest.head?, Symbol.isWordCell c = false) :
    ScansAs lenient (Symbol.identifierEscape :: (blanks ++ word)) rest
      (.identifier (String.ofList (Cell.decodeNameChars word))) := by
  -- the blanks end where the word begins
  have hstop : ∀ c ∈ (word ++ rest).head?, Text.isBlank c = false := by
    obtain ⟨c, cells, rfl⟩ := List.exists_cons_of_ne_nil hne
    intro d hd
    obtain rfl : c = d := Option.some.inj hd
    exact Cell.isBlank_of_isCell (isCell_of_isWordCell (hword c List.mem_cons_self))
  obtain ⟨hskipped, hskip⟩ := Text.span_append hblanks hstop
  obtain ⟨htake, hdrop⟩ := Text.span_append hword hrest
  apply ScansAs.intro _ (by decide)
  refine scan_eq_iff.2 (.escaped rfl ?_)
  rw [scanEscaped, List.append_assoc, hskipped, hskip, htake, hdrop, if_neg (by simp [hne])]

/-- An escaped word is a name. -/
theorem scansAs_escaped {name : List Char} (hname : name ≠ [])
    (hrest : ∀ c ∈ rest.head?, Symbol.isWordCell c = false) :
    ScansAs lenient (Symbol.identifierEscape :: Cell.encodeChars name) rest
      (.identifier (String.ofList (Cell.decodeNameChars (Cell.encodeChars name)))) :=
  scansAs_escapedWord (List.forall_mem_nil _) (Cell.encodeChars_ne_nil hname)
    (fun _ => isWordCell_of_mem_encodeChars) hrest

/-- Word cells are taken together, and are what they are as a word. -/
theorem scan_word {c : Char} {cells : List Char}
    (hcells : ∀ a ∈ c :: cells, Symbol.isWordCell a = true)
    (hrest : ∀ a ∈ rest.head?, Symbol.isWordCell a = false) :
    scan lenient c (cells ++ rest) =
      (wordKind (c :: cells)).map fun kind => ⟨kind, c :: cells, rest⟩ := by
  obtain ⟨htake, hdrop⟩ := Text.span_append hcells hrest
  refine scan_eq_iff.2 (.word (hcells c List.mem_cons_self) ?_)
  rw [scanWord, ← List.cons_append, htake, hdrop]
  cases wordKind (c :: cells) <;> rfl

/-- A word is scanned where it ends. -/
theorem scansAs_word {c : Char} {cells : List Char} {kind : TokenKind}
    (hcells : ∀ a ∈ c :: cells, Symbol.isWordCell a = true)
    (hkind : wordKind (c :: cells) = .ok kind)
    (hrest : ∀ a ∈ rest.head?, Symbol.isWordCell a = false) :
    ScansAs lenient (c :: cells) rest kind := by
  have hblank := Cell.isBlank_of_isCell (isCell_of_isWordCell (hcells c List.mem_cons_self))
  refine .intro (c :: cells) hblank ?_
  rw [scan_word hcells hrest, hkind]
  rfl

end Scans

end Lexer

/-! ## The kinds of words -/

/-- The token that a role is. -/
def Role.kind : Role → TokenKind
  | keyword k => .keyword k
  | operator o => .operator o
  | delimiter d => .delimiter d

namespace Role

/-- Every role is listed. -/
theorem mem_all (role : Role) : role ∈ all := by
  cases role with
  | keyword k => cases k <;> decide
  | operator o => cases o <;> decide
  | delimiter d => cases d <;> decide

/-- A role is found by its cell. -/
theorem ofCell?_cell (role : Role) : ofCell? role.cell = some role := by
  have hall : ∀ role ∈ all, ofCell? role.cell = some role := by decide
  exact hall role role.mem_all

/-- This cell stands in words and begins no number. -/
theorem isWordCell_cell (role : Role) :
    Symbol.isWordCell role.cell = true ∧ role.cell ≠ Symbol.numberSign := by
  have hall : ∀ role ∈ all,
      Symbol.isWordCell role.cell = true ∧ role.cell ≠ Symbol.numberSign := by decide
  exact hall role role.mem_all

/-! ### Spellings -/

/-- A role that is found has the spelling it was found by. -/
theorem spelling_of_ofSpelling? {s : String} {role : Role} (h : ofSpelling? s = some role) :
    role.spelling = s := by
  simpa using List.find?_some h

/-- Where none is found, none has the spelling. -/
theorem spelling_ne_of_ofSpelling? {s : String} (h : ofSpelling? s = none) (role : Role) :
    role.spelling ≠ s := by
  simpa using List.find?_eq_none.1 h role role.mem_all

/-- A role is found by its spelling. -/
theorem ofSpelling?_spelling (role : Role) : ofSpelling? role.spelling = some role := by
  have hall : ∀ role ∈ all, ofSpelling? role.spelling = some role := by decide +kernel
  exact hall role role.mem_all

/-- No two roles have one spelling. -/
theorem spelling_inj {role role' : Role} (h : role.spelling = role'.spelling) : role = role' := by
  have hrole := role.ofSpelling?_spelling
  rw [h, role'.ofSpelling?_spelling] at hrole
  exact (Option.some.inj hrole).symm

/-- The spelling of a role is neither escaped nor a numeral. -/
theorem spelling_plain (role : Role) : role.spelling.toList.head? ≠ some '@' ∧
    Readable.isNumberWord role.spelling.toList = false := by
  have hall : ∀ role ∈ all, role.spelling.toList.head? ≠ some '@' ∧
      Readable.isNumberWord role.spelling.toList = false := by decide +kernel
  exact hall role role.mem_all

end Role

namespace Lexer

/-- The cell of a role is a word of its kind. -/
theorem wordKind_role (role : Role) : wordKind [role.cell] = .ok role.kind := by
  rw [wordKind, if_neg role.isWordCell_cell.2, if_pos List.isEmpty_nil, role.ofCell?_cell]
  cases role <;> rfl

/-- The cell of a character of a numeral. -/
def numeralCell (c : Char) : Char :=
  if c.isDigit then Symbol.digitCell (c.toNat - '0'.toNat) else Symbol.decimalPoint

/-- The cell of a digit or a point is read back, and stands in words. -/
theorem numeralCell_spec {c : Char} (hc : c.isDigit = true ∨ c = '.') :
    digitChar? (numeralCell c) = some c ∧ Symbol.isWordCell (numeralCell c) = true := by
  have hdigit : ∀ d < 10, digitChar? (numeralCell (Nat.digitChar d)) = some (Nat.digitChar d) ∧
      Symbol.isWordCell (numeralCell (Nat.digitChar d)) = true := by decide
  rcases hc with hc | rfl
  · obtain ⟨d, hd, rfl⟩ := Decimal.exists_digitChar hc
    exact hdigit d hd
  · decide

/-- So it is with a whole numeral. -/
theorem mapM_numeralCell {cs : List Char} (h : ∀ c ∈ cs, c.isDigit = true ∨ c = '.') :
    (cs.map numeralCell).mapM digitChar? = some cs := by
  induction cs with
  | nil => rfl
  | cons c cs ih =>
    rw [List.forall_mem_cons] at h
    rw [List.map_cons, List.mapM_cons, (numeralCell_spec h.1).1, ih h.2]
    rfl

/-- A numeral behind its sign is a number. -/
theorem wordKind_numeral {cs : List Char} {x : Float} (h : Decimal.IsNumeral cs)
    (hx : Decimal.readUnsigned? false cs = some x) :
    wordKind (Symbol.numberSign :: cs.map numeralCell) = .ok (.number x) := by
  have hnumber : number? (cs.map numeralCell) = some x := by
    rw [number?, mapM_numeralCell h.chars]
    dsimp only
    rw [if_pos h.point, hx]
  rw [wordKind, if_pos rfl, hnumber]

/-- The cells of a text are a name, unless there is one only and it has a role. -/
theorem wordKind_encodeChars {cs : List Char} (hcs : cs ≠ [])
    (hrole : ∀ c, Cell.encodeChars cs = [c] → Role.ofCell? c = none) :
    wordKind (Cell.encodeChars cs) =
      .ok (.identifier (String.ofList (Cell.decodeNameChars (Cell.encodeChars cs)))) := by
  obtain ⟨c, cells, hcells⟩ := List.exists_cons_of_ne_nil (Cell.encodeChars_ne_nil hcs)
  have hc : c ≠ Symbol.numberSign :=
    Cell.ne_of_mem_encodeChars (hcells ▸ List.mem_cons_self) (by decide)
  rw [hcells, wordKind, if_neg hc]
  -- only a single cell can have a role
  cases cells with
  | nil => rw [if_pos List.isEmpty_nil, hrole c hcells]
  | cons d cells => rw [if_neg (by simp)]

end Lexer

/-! ## The meaning of words -/

namespace Readable

/-- A name with its backslashes doubled. -/
def doubled (cs : List Char) : List Char :=
  cs.flatMap fun c => if c = '\\' then ['\\', '\\'] else [c]

/-- The token that a part of a readable text stands for.  A numeral is the float that its digits, with
the point among them, are rounded to. -/
inductive Lexeme.Means : Lexeme → TokenKind → Prop
  | text (cs : List Char) : Means (.text cs) (.text (String.ofList cs))
  | comment (cs : List Char) : Means (.comment cs) (.comment (String.ofList cs))
  | escaped (name : List Char) :
    Means (.word ('@' :: name)) (.identifier (String.ofList (doubled name)))
  | role (role : Role) : Means (.word role.spelling.toList) role.kind
  | number {cs : List Char} {x : Float} (hcs : Decimal.IsNumeral cs)
    (hx : Decimal.Rounds (Decimal.numeralValue cs) x) : Means (.word cs) (.number x)
  | name {cs : List Char} (hescaped : cs.head? ≠ some '@')
    (hrole : ∀ role : Role, role.spelling.toList ≠ cs) (hnumber : ¬Decimal.IsNumeral cs) :
    Means (.word cs) (.identifier (String.ofList (doubled cs)))

/-- The words for numbers are the numerals. -/
theorem isNumberWord_iff {cs : List Char} : isNumberWord cs = true ↔ Decimal.IsNumeral cs := by
  simp only [isNumberWord, Bool.and_eq_true, List.any_eq_true, List.all_eq_true, Bool.or_eq_true,
    beq_iff_eq, decide_eq_true_eq]
  exact ⟨fun h => ⟨h.1.1, h.1.2, h.2⟩, fun h => ⟨⟨h.digit, h.chars⟩, h.point⟩⟩

namespace Lexeme.Means

variable {cs : List Char} {w : Lexeme} {kind kind' : TokenKind}

/-- A word means an escaped name, a role, a number or a name. -/
theorem word_cases (h : Means (.word cs) kind) :
    (∃ name, cs = '@' :: name ∧ kind = .identifier (String.ofList (doubled name))) ∨
    (∃ role : Role, cs = role.spelling.toList ∧ kind = role.kind) ∨
    (Decimal.IsNumeral cs ∧
      ∃ x, Decimal.Rounds (Decimal.numeralValue cs) x ∧ kind = .number x) ∨
    (cs.head? ≠ some '@' ∧ (∀ role : Role, role.spelling.toList ≠ cs) ∧
      ¬Decimal.IsNumeral cs ∧ kind = .identifier (String.ofList (doubled cs))) := by
  generalize hw : Lexeme.word cs = w at h
  cases h with
  | text => cases hw
  | comment => cases hw
  | escaped name =>
    cases hw
    exact .inl ⟨name, rfl, rfl⟩
  | role role =>
    cases hw
    exact .inr (.inl ⟨role, rfl, rfl⟩)
  | number hcs hx =>
    cases hw
    exact .inr (.inr (.inl ⟨hcs, _, hx, rfl⟩))
  | name hescaped hrole hnumber =>
    cases hw
    exact .inr (.inr (.inr ⟨hescaped, hrole, hnumber, rfl⟩))

/-- A part of a text stands for one token. -/
theorem unique (h : w.Means kind) (h' : w.Means kind') : kind' = kind := by
  have hescaped {name : List Char} : ¬Decimal.IsNumeral ('@' :: name) := fun h =>
    h.not_mem (by decide) (by decide) List.mem_cons_self
  have hrole (role : Role) : ¬Decimal.IsNumeral role.spelling.toList := by
    rw [← isNumberWord_iff, role.spelling_plain.2]
    exact Bool.false_ne_true
  cases w with
  | text cs =>
    cases h
    cases h'
    rfl
  | comment cs =>
    cases h
    cases h'
    rfl
  | word cs =>
    -- escaped words, the spellings of roles, numerals and names exclude each other
    rcases h.word_cases with ⟨name, rfl, rfl⟩ | ⟨role, rfl, rfl⟩ | ⟨hnumber, x, hx, rfl⟩ |
      ⟨hat, hno, hnumber, rfl⟩
    · rcases h'.word_cases with ⟨name', hname, rfl⟩ | ⟨role, hname, -⟩ | ⟨hnumber, -⟩ | ⟨hat, -⟩
      · rw [List.cons.inj hname |>.2]
      · exact absurd (congrArg List.head? hname).symm role.spelling_plain.1
      · exact absurd hnumber hescaped
      · exact absurd rfl hat
    · rcases h'.word_cases with ⟨name, hname, -⟩ | ⟨role', hname, rfl⟩ | ⟨hnumber, -⟩ | ⟨-, hno, -⟩
      · exact absurd (congrArg List.head? hname) role.spelling_plain.1
      · rw [Role.spelling_inj (String.toList_inj.1 hname)]
      · exact absurd hnumber (hrole role)
      · exact absurd rfl (hno role)
    · rcases h'.word_cases with ⟨name, rfl, -⟩ | ⟨role, rfl, -⟩ | ⟨-, y, hy, rfl⟩ | ⟨-, -, hno, -⟩
      · exact absurd hnumber hescaped
      · exact absurd hnumber (hrole role)
      · rw [hx.unique (Decimal.numeralValue_nonneg cs) hy]
      · exact absurd hnumber hno
    · rcases h'.word_cases with ⟨name, rfl, -⟩ | ⟨role, rfl, -⟩ | ⟨hnumber', -⟩ | ⟨-, -, -, rfl⟩
      · exact absurd rfl hat
      · exact absurd rfl (hno role)
      · exact absurd hnumber' hnumber
      · rfl

end Lexeme.Means

/-- The cells of a numeral are scanned as the number it means. -/
theorem scansAs_numeral {lenient : Bool} {cs rest : List Char} (h : Decimal.IsNumeral cs)
    (hrest : ∀ c ∈ rest.head?, Symbol.isWordCell c = false) :
    ∃ kind, Lexeme.Means (.word cs) kind ∧
      Lexer.ScansAs lenient (Symbol.numberSign :: cs.map Lexer.numeralCell) rest kind := by
  obtain ⟨x, hx, hvalue⟩ := h.rounds_readUnsigned?
  -- the sign and the digits are all word cells
  have hcells : ∀ c ∈ Symbol.numberSign :: cs.map Lexer.numeralCell,
      Symbol.isWordCell c = true := by
    rw [List.forall_mem_cons, List.forall_mem_map]
    exact ⟨by decide, fun c hc => (Lexer.numeralCell_spec (h.chars c hc)).2⟩
  refine ⟨.number x, .number h hvalue, ?_⟩
  exact Lexer.scansAs_word hcells (Lexer.wordKind_numeral h hx) hrest

/-- The cells of a name, which may have an escape before them and need one if they are a single cell
with a role. -/
theorem scansAs_name {lenient : Bool} {cs cells rest : List Char} (hcs : cs ≠ [])
    (hcells : cells = Symbol.identifierEscape :: Cell.encodeChars cs ∨
      cells = Cell.encodeChars cs ∧ ∀ c, cells = [c] → Role.ofCell? c = none)
    (hrest : ∀ c ∈ rest.head?, Symbol.isWordCell c = false) :
    Lexer.ScansAs lenient cells rest (.identifier (String.ofList (doubled cs))) := by
  rw [doubled, ← Cell.decodeNameChars_encodeChars]
  -- with an escape in front, or as a word that has no role
  rcases hcells with rfl | ⟨rfl, hrole⟩
  · exact Lexer.scansAs_escaped hcs hrest
  · have hkind := Lexer.wordKind_encodeChars hcs hrole
    have hword : ∀ c ∈ Cell.encodeChars cs, Symbol.isWordCell c = true := fun c =>
      Lexer.isWordCell_of_mem_encodeChars
    generalize Cell.decodeNameChars (Cell.encodeChars cs) = name at hkind ⊢
    obtain ⟨c, cells, hc⟩ := List.exists_cons_of_ne_nil (Cell.encodeChars_ne_nil hcs)
    rw [hc] at hkind hword ⊢
    exact Lexer.scansAs_word hword hkind hrest

/-- The cells of a word are the token it stands for, where no word cell follows. -/
theorem scansAs_wordCells {lenient : Bool} {w rest : List Char} (hw : w ≠ []) (hat : w ≠ ['@'])
    (hrest : ∀ c ∈ rest.head?, Symbol.isWordCell c = false) :
    ∃ kind, Lexeme.Means (.word w) kind ∧ Lexer.ScansAs lenient (wordCells w) rest kind := by
  unfold wordCells
  split
  next name =>
    have hname : name ≠ [] := by
      rintro rfl
      exact hat rfl
    exact ⟨_, .escaped name, scansAs_name hname (.inl rfl) hrest⟩
  next hescaped =>
    split
    next role hrole =>
      have hspelled : role.spelling.toList = w := by
        rw [Role.spelling_of_ofSpelling? hrole, String.toList_ofList]
      rw [← hspelled]
      refine ⟨_, .role role, ?_⟩
      exact Lexer.scansAs_word (List.forall_mem_singleton.2 role.isWordCell_cell.1)
        (Lexer.wordKind_role role) hrest
    next hrole =>
      split
      next hnumber => exact scansAs_numeral (isNumberWord_iff.1 hnumber) hrest
      next hnumber =>
        refine ⟨.identifier (String.ofList (doubled w)), .name ?_ ?_ ?_, ?_⟩
        · intro h
          obtain ⟨name, rfl⟩ := List.head?_eq_some_iff.1 h
          exact hescaped name rfl
        · rintro role rfl
          exact Role.spelling_ne_of_ofSpelling? hrole role String.ofList_toList.symm
        · exact fun h => hnumber (isNumberWord_iff.2 h)
        · apply scansAs_name hw _ hrest
          split
          next only honly =>
            -- a single cell with a role is escaped
            rw [honly]
            split
            · exact .inl rfl
            next hplain =>
              rw [Bool.or_eq_true, not_or, Option.not_isSome_iff_eq_none] at hplain
              refine .inr ⟨rfl, ?_⟩
              rintro c hc
              cases hc
              exact hplain.1
          next hmany => exact .inr ⟨rfl, fun c hc => absurd hc (hmany c)⟩

/-! ## Whole texts -/

/-- The cells of a piece and of those behind it, with a space before them or not. -/
theorem lexes_joinFrom {lenient : Bool} {p : Piece} {ps : List Piece} {kinds : List TokenKind}
    (h : Lexer.Lexes lenient (p.cells ++ joinFrom p.needsSpace ps) kinds) (needSpace : Bool) :
    Lexer.Lexes lenient (joinFrom needSpace (p :: ps)) kinds := by
  rw [joinFrom]
  split
  · exact .blank (by decide) h
  · exact h

/-- No blank stands in a word. -/
theorem isWordCell_of_isBlank {c : Char} (hc : Text.isBlank c = true) :
    Symbol.isWordCell c = false := by
  have hcell : Cell.isCell c = false := by
    rw [← Bool.not_eq_true]
    intro hcell
    rw [Cell.isBlank_of_isCell hcell] at hc
    cases hc
  simp [Symbol.isWordCell, hcell]

variable {cs : List Char} {ws : List Lexeme}

/-- Behind a word or a string no word cell follows. -/
theorem Splits.head_joinFrom (h : Splits cs ws) :
    ∀ c ∈ (joinFrom true (pieces cs)).head?, Symbol.isWordCell c = false := by
  intro c hc
  apply isWordCell_of_isBlank
  have hspace : Text.isBlank ' ' = true := by decide
  -- every other piece begins behind a space or is a blank itself
  cases h with
  | nil =>
    rw [pieces_nil] at hc
    cases hc
  | blank hblank h =>
    rw [pieces_blank hblank] at hc
    cases hc
    exact hblank
  | mark hmark h =>
    rw [pieces_mark hmark] at hc
    cases hc
    exact hspace
  | text hcs h =>
    rw [pieces_text hcs] at hc
    cases hc
    exact hspace
  | comment hline hrest h =>
    rw [pieces_comment hline hrest] at hc
    cases hc
    exact hspace
  | word hw hend h =>
    rw [pieces_word hw hend] at hc
    cases hc
    exact hspace

/-- Behind a comment the line ends. -/
theorem head_joinFrom_line {rest : List Char} (hrest : ∀ c ∈ rest.head?, c = '\n') :
    ∀ c ∈ (joinFrom false (pieces rest)).head?, c = '\n' := by
  intro c hc
  cases rest with
  | nil =>
    rw [pieces_nil] at hc
    cases hc
  | cons d rest =>
    obtain rfl := hrest d rfl
    rw [pieces_blank (by decide)] at hc
    cases hc
    rfl

/-- The cells of the pieces are the tokens that the parts stand for, with a space before them or
not. -/
def Renders (lenient : Bool) (ps : List Piece) (ws : List Lexeme) : Prop :=
  ∃ kinds, List.Forall₂ Lexeme.Means ws kinds ∧
    ∀ needSpace, Lexer.Lexes lenient (joinFrom needSpace ps) kinds

namespace Renders

variable {lenient : Bool} {ps : List Piece}

/-- No piece renders nothing. -/
theorem nil : Renders lenient [] [] :=
  ⟨[], .nil, fun _ => .nil⟩

/-- A blank renders nothing. -/
theorem blank {c : Char} (hc : Text.isBlank c = true) (h : Renders lenient ps ws) :
    Renders lenient (.blank c :: ps) ws := by
  obtain ⟨kinds, hmeans, hlexes⟩ := h
  exact ⟨kinds, hmeans, lexes_joinFrom (.blank hc (hlexes false))⟩

/-- A piece that is one token. -/
theorem cons {p : Piece} {w : Lexeme} {kind : TokenKind} (hkind : w.Means kind)
    (hscan : Lexer.ScansAs lenient p.cells (joinFrom p.needsSpace ps) kind)
    (h : Renders lenient ps ws) : Renders lenient (p :: ps) (w :: ws) := by
  obtain ⟨kinds, hmeans, hlexes⟩ := h
  exact ⟨kind :: kinds, .cons hkind hmeans, lexes_joinFrom (.append hscan (hlexes _))⟩

/-- A word renders itself, where the next piece ends it. -/
theorem word {w : List Char} (hw : w ≠ []) (hat : w ≠ ['@'])
    (hstop : ∀ c ∈ (joinFrom true ps).head?, Symbol.isWordCell c = false)
    (h : Renders lenient ps ws) : Renders lenient (.word w :: ps) (.word w :: ws) := by
  obtain ⟨kind, hkind, hscan⟩ := scansAs_wordCells hw hat hstop
  exact .cons hkind hscan h

end Renders

/-- The cells of a text are the tokens of its parts, if none of these is an escape alone. -/
theorem Splits.renders (lenient : Bool) (h : Splits cs ws) (hat : .word ['@'] ∉ ws) :
    Renders lenient (pieces cs) ws := by
  have hne {w : List Char} {ws : List Lexeme} (hat : .word ['@'] ∉ .word w :: ws) : w ≠ ['@'] := by
    rintro rfl
    exact hat List.mem_cons_self
  induction h with
  | nil =>
    rw [pieces_nil]
    exact .nil
  | blank hc h ih =>
    rw [pieces_blank hc]
    exact .blank hc (ih hat)
  | mark hc h ih =>
    rw [pieces_mark hc]
    exact .word (List.cons_ne_nil _ _) (hne hat) h.head_joinFrom
      (ih (List.not_mem_of_not_mem_cons hat))
  | @text cs body rest ws hcs h ih =>
    rw [pieces_text hcs]
    exact .cons (.text body) (Lexer.scansAs_text body) (ih (List.not_mem_of_not_mem_cons hat))
  | comment hline hrest h ih =>
    -- no space is needed: the comment ends with the line, and was trimmed before it was spelled
    rw [pieces_comment hline hrest]
    exact .cons (.comment _)
      (Lexer.scansAs_comment (Text.trimChars_trimChars _) (head_joinFrom_line hrest))
      (ih (List.not_mem_of_not_mem_cons hat))
  | word hw hend h ih =>
    rw [pieces_word hw hend]
    exact .word hw.ne_nil (hne hat) h.head_joinFrom (ih (List.not_mem_of_not_mem_cons hat))

end Readable

/-- A readable text is split in one way, and if no part of it is an escape alone, reading its cells
gives the tokens that its parts stand for, and the end of input. -/
theorem tokenize_spell (lenient : Bool) (s : String) :
    ∃ ws, Readable.Splits s.toList ws ∧ (∀ ws', Readable.Splits s.toList ws' → ws' = ws) ∧
      (.word ['@'] ∉ ws → ∃ tokens kinds, tokenize lenient (Readable.spell s) = .ok tokens ∧
        tokens.map (·.kind) = kinds ++ [.endOfInput] ∧
        List.Forall₂ Readable.Lexeme.Means ws kinds ∧
        ∀ kinds', List.Forall₂ Readable.Lexeme.Means ws kinds' → kinds' = kinds) := by
  obtain ⟨ws, hws⟩ := Readable.exists_splits s.toList
  refine ⟨ws, hws, fun ws' => hws.unique, fun hat => ?_⟩
  obtain ⟨kinds, hmeans, hlexes⟩ := hws.renders lenient hat
  obtain ⟨tokens, htokens, hkinds⟩ := hlexes false Cursor.start
  refine ⟨tokens, kinds, ?_, hkinds, hmeans, ?_⟩
  · rw [tokenize, Readable.spell, String.toList_ofList, htokens]
  · -- each part means one token, as the nearest float is unique
    intro kinds' hmeans'
    exact List.right_unique_forall₂' (fun _ _ _ h h' => h'.unique h) hmeans' hmeans

/-- In `print(@let 0.1)# hi ` the delimiters part words, the escape makes a name of a keyword, and the
number is the float nearest to a tenth. -/
theorem tokenize_spell_print : ∃ tokens,
    tokenize false (Readable.spell "print(@let 0.1)# hi ") = .ok tokens ∧
    tokens.map (·.kind) = [.keyword .printKw, .delimiter .parenOpen, .identifier "let",
      .number 0.1, .delimiter .parenClose, .comment "hi", .endOfInput] := by
  obtain ⟨ws, -, hunique, hread⟩ := tokenize_spell false "print(@let 0.1)# hi "
  have hmark : Readable.isPlain '(' = false ∧ Readable.isPlain ')' = false ∧
      Readable.isPlain ' ' = false := by decide
  -- the pieces are split off from behind
  have hcomment : Readable.Splits ('#' :: ([' ', 'h', 'i', ' '] ++ [])) [.comment ['h', 'i']] :=
    .comment (by decide) (by simp) .nil
  have hnumber : Readable.Splits (['0', '.', '1'] ++ ')' :: '#' :: ([' ', 'h', 'i', ' '] ++ []))
      [.word ['0', '.', '1'], .word [')'], .comment ['h', 'i']] :=
    .word (.decimal (List.cons_ne_nil '0' []) (List.all_eq_true.1 (by decide)) (by decide)
        (List.forall_mem_nil _))
      ⟨by simp [hmark], fun h => absurd (h '.' (by decide)) (by decide)⟩
      (.mark (by decide) hcomment)
  have hlet : Readable.Splits (['@', 'l', 'e', 't'] ++ ' ' ::
        (['0', '.', '1'] ++ ')' :: '#' :: ([' ', 'h', 'i', ' '] ++ [])))
      [.word ['@', 'l', 'e', 't'], .word ['0', '.', '1'], .word [')'], .comment ['h', 'i']] :=
    .word (.plain (by decide) (by decide) (List.all_eq_true.1 (by decide)))
      ⟨by simp [hmark], fun h => absurd (h '@' (by decide)) (by decide)⟩
      (.blank (by decide) hnumber)
  have hprint : Readable.Splits (['p', 'r', 'i', 'n', 't'] ++ '(' :: (['@', 'l', 'e', 't'] ++ ' ' ::
        (['0', '.', '1'] ++ ')' :: '#' :: ([' ', 'h', 'i', ' '] ++ []))))
      [.word ['p', 'r', 'i', 'n', 't'], .word ['('], .word ['@', 'l', 'e', 't'],
        .word ['0', '.', '1'], .word [')'], .comment ['h', 'i']] :=
    .word (.plain (by decide) (by decide) (List.all_eq_true.1 (by decide)))
      ⟨by simp [hmark], fun h => absurd (h 'p' (by decide)) (by decide)⟩ (.mark (by decide) hlet)
  obtain rfl := hunique _ hprint
  obtain ⟨tokens, kinds, htokens, hkinds, -, hmeans⟩ := hread (by decide)
  -- the value of the digits is a tenth, and the float is the nearest one
  have htenth : Decimal.Rounds (Decimal.numeralValue ['0', '.', '1']) 0.1 := by
    have hvalue : Decimal.numeralValue ['0', '.', '1'] = (1 : Nat) / (10 : Nat) := by
      have hbefore : Decimal.beforePoint ['0', '.', '1'] = ['0'] := by decide
      have hbehind : Decimal.behindPoint ['0', '.', '1'] = ['1'] := by decide
      have hdigits : Nat.ofDigitChars 10 (['0'] ++ ['1']) 0 = 1 := by decide
      rw [Decimal.numeralValue, hbefore, hbehind, hdigits]
      norm_num
    have hfloat : Decimal.nearest false 1 10 = 0.1 := by decide +kernel
    rw [hvalue, ← hfloat]
    exact Decimal.rounds_nearest 1 (by decide)
  have hexpected := hmeans _ (.cons (.role (.keyword .printKw)) <|
    .cons (.role (.delimiter .parenOpen)) <| .cons (.escaped ['l', 'e', 't']) <|
    .cons (.number (Readable.isNumberWord_iff.1 (by decide)) htenth) <|
    .cons (.role (.delimiter .parenClose)) <| .cons (.comment ['h', 'i']) .nil)
  refine ⟨tokens, htokens, ?_⟩
  rw [hkinds, ← hexpected]
  rfl

end BrailleScript
