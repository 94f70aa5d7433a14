import BrailleScript.Proofs.Decimal.Reading
import BrailleScript.Proofs.Text.Blank
import BrailleScript.Readable

/-!
# How readable text is split

`Splits` says what the parts of a readable text are: blanks separate words, delimiters and a `.`
that is no decimal point are words of their own, and at the start of a word a `"` opens a string and
a `#` a comment.  Words are as long as they can be.  The pieces that are cut off one character at a
time are these parts, and there is no other way to split a text.

## Key results

- `quoted_iff`: the content of a string
- `exists_splits`: every text can be split
- `Splits.eq_pieces`: its parts are its pieces
-/

namespace BrailleScript.Readable

/-- A part of a readable text. -/
inductive Lexeme where
  | word (cs : List Char)
  | text (cs : List Char)
  | comment (cs : List Char)
  deriving Repr, DecidableEq

/-! ## Strings -/

/-- The character that is meant by one behind a backslash. -/
def unescaped (c : Char) : Char :=
  if c = 'n' then '\n' else if c = 't' then '\t' else c

/-- What follows an opening quote is the content of a string and the rest behind its closing quote;
a string that is not closed ends with the text. -/
inductive Quoted : List Char → List Char → List Char → Prop
  | closed (rest : List Char) : Quoted ('"' :: rest) [] rest
  | unclosed : Quoted [] [] []
  | dangling : Quoted ['\\'] [] []
  | escaped {c : Char} {cs body rest : List Char} (h : Quoted cs body rest) :
    Quoted ('\\' :: c :: cs) (unescaped c :: body) rest
  | plain {c : Char} {cs body rest : List Char} (hquote : c ≠ '"') (hbackslash : c ≠ '\\')
    (h : Quoted cs body rest) : Quoted (c :: cs) (c :: body) rest

/-- What stands between quotes is the text that is read, up to the quote that closes it. -/
theorem quoted_stringBody (cs : List Char) : Quoted cs (stringBody cs).1 (stringBody cs).2 := by
  -- the reader goes through the same cases
  fun_induction stringBody cs with
  | case1 => exact .unclosed
  | case2 rest => exact .closed rest
  | case3 => exact .dangling
  | case4 c rest ih => exact .escaped ih
  | case5 c rest hquote hlast hescape ih =>
    refine .plain hquote ?_ ih
    intro hc
    cases rest with
    | nil => exact hlast hc rfl
    | cons d rest => exact hescape d rest hc rfl

/-- Strings are read in one way. -/
theorem quoted_iff {cs body rest : List Char} :
    Quoted cs body rest ↔ stringBody cs = (body, rest) := by
  constructor
  · intro h
    -- each way to read on is a branch of the reader
    induction h with
    | closed rest => rw [stringBody]
    | unclosed => rw [stringBody]
    | dangling => rw [stringBody]
    | escaped h ih => rw [stringBody, ih]; rfl
    | plain hquote hbackslash h ih =>
      rw [stringBody, ih]
      · exact hquote
      · exact fun hc _ => hbackslash hc
      · exact fun _ _ hc _ => hbackslash hc
  · intro h
    have hread := quoted_stringBody cs
    rwa [h] at hread

/-! ## Words -/

/-- A character that a word may have anywhere behind its first one. -/
def isPlain (c : Char) : Bool :=
  !Text.isBlank c && !isSplit c

/-- A word of several characters: plain ones, which do not begin with a mark, or digits with a
decimal point among them, behind which plain characters may follow. -/
inductive IsWord : List Char → Prop
  | plain {c : Char} {cs : List Char} (hquote : c ≠ '"') (hhash : c ≠ '#')
    (h : ∀ a ∈ c :: cs, isPlain a = true) : IsWord (c :: cs)
  | decimal {ds cs : List Char} {d : Char} (hne : ds ≠ []) (hds : ∀ a ∈ ds, a.isDigit = true)
    (hd : d.isDigit = true) (h : ∀ a ∈ cs, isPlain a = true) : IsWord (ds ++ '.' :: d :: cs)

/-- A word has characters. -/
theorem IsWord.ne_nil {w : List Char} (h : IsWord w) : w ≠ [] := by
  cases h with
  | plain => exact List.cons_ne_nil _ _
  | decimal => simp

/-- A word ends with the text, or where a blank or a word of its own follows; a point between digits
ends no word. -/
structure Ends (w rest : List Char) : Prop where
  stop : ∀ c ∈ rest.head?, isPlain c = false
  noPoint : (∀ a ∈ w, a.isDigit = true) →
    ∀ d rest', rest = '.' :: d :: rest' → d.isDigit = false

/-- The parts of a readable text. -/
inductive Splits : List Char → List Lexeme → Prop
  | nil : Splits [] []
  | blank {c : Char} {rest : List Char} {ws : List Lexeme} (hc : Text.isBlank c = true)
    (h : Splits rest ws) : Splits (c :: rest) ws
  | mark {c : Char} {rest : List Char} {ws : List Lexeme} (hc : isSplit c = true)
    (h : Splits rest ws) : Splits (c :: rest) (.word [c] :: ws)
  | text {cs body rest : List Char} {ws : List Lexeme} (hcs : Quoted cs body rest)
    (h : Splits rest ws) : Splits ('"' :: cs) (.text body :: ws)
  | comment {line rest : List Char} {ws : List Lexeme} (hline : '\n' ∉ line)
    (hrest : ∀ c ∈ rest.head?, c = '\n') (h : Splits rest ws) :
    Splits ('#' :: (line ++ rest)) (.comment (Text.trimChars line) :: ws)
  | word {w rest : List Char} {ws : List Lexeme} (hw : IsWord w) (hend : Ends w rest)
    (h : Splits rest ws) : Splits (w ++ rest) (.word w :: ws)

/-! ## There is a way -/

/-- The plain characters in front are plain. -/
theorem isPlain_of_mem_takeWhile {cs : List Char} :
    ∀ a ∈ cs.takeWhile isPlain, isPlain a = true :=
  List.all_eq_true.1 List.all_takeWhile

/-- They end where another character stands. -/
theorem stop_dropWhile (cs : List Char) :
    ∀ c ∈ (cs.dropWhile isPlain).head?, isPlain c = false := by
  intro c hc
  have hhead := List.head?_dropWhile_not isPlain cs
  rw [Option.mem_def.1 hc] at hhead
  simpa using hhead

/-- Where a word starts, one can be taken off. -/
theorem exists_word {c : Char} (cs : List Char) (hquote : c ≠ '"') (hhash : c ≠ '#')
    (hc : isPlain c = true) : ∃ w rest, c :: cs = w ++ rest ∧ IsWord w ∧ Ends w rest := by
  have hsplit : cs = cs.takeWhile isPlain ++ cs.dropWhile isPlain :=
    List.takeWhile_append_dropWhile.symm
  have hplain : ∀ a ∈ c :: cs.takeWhile isPlain, isPlain a = true :=
    List.forall_mem_cons.2 ⟨hc, isPlain_of_mem_takeWhile⟩
  by_cases hpoint : (∀ a ∈ c :: cs.takeWhile isPlain, a.isDigit = true) ∧
      ∃ d rest, cs.dropWhile isPlain = '.' :: d :: rest ∧ d.isDigit = true
  · -- the plain characters are digits before a decimal point
    obtain ⟨hdigits, d, rest, hrest, hd⟩ := hpoint
    refine ⟨c :: cs.takeWhile isPlain ++ '.' :: d :: rest.takeWhile isPlain,
      rest.dropWhile isPlain, ?_, ?_, ?_⟩
    · simp [← hrest]
    · exact .decimal (List.cons_ne_nil _ _) hdigits hd isPlain_of_mem_takeWhile
    · constructor
      · exact stop_dropWhile rest
      · intro hall
        have hdot := hall '.' (by simp)
        exact absurd hdot (by decide)
  · refine ⟨c :: cs.takeWhile isPlain, cs.dropWhile isPlain, ?_, ?_, ?_⟩
    · rw [List.cons_append, ← hsplit]
    · exact .plain hquote hhash hplain
    · constructor
      · exact stop_dropWhile cs
      · intro hall d rest hrest
        rw [← Bool.not_eq_true]
        exact fun hd => hpoint ⟨hall, d, rest, hrest, hd⟩

/-- Every text can be split. -/
theorem exists_splits (cs : List Char) : ∃ ws, Splits cs ws := by
  -- on the length: a text and a comment are passed as a whole
  induction hn : cs.length using Nat.strongRecOn generalizing cs with
  | ind n ih =>
    cases cs with
    | nil => exact ⟨[], .nil⟩
    | cons c cs =>
      rw [List.length_cons] at hn
      by_cases hblank : Text.isBlank c = true
      · obtain ⟨ws, h⟩ := ih cs.length (by omega) cs rfl
        exact ⟨ws, .blank hblank h⟩
      by_cases hmark : isSplit c = true
      · obtain ⟨ws, h⟩ := ih cs.length (by omega) cs rfl
        exact ⟨_, .mark hmark h⟩
      by_cases hquote : c = '"'
      · have hle := length_stringBody_le cs
        obtain ⟨ws, h⟩ := ih (stringBody cs).2.length (by omega) _ rfl
        rw [hquote]
        exact ⟨_, .text (quoted_stringBody cs) h⟩
      by_cases hhash : c = '#'
      · have hle := (List.dropWhile_suffix (l := cs) (· != '\n')).length_le
        obtain ⟨ws, h⟩ := ih (cs.dropWhile (· != '\n')).length (by omega) _ rfl
        rw [hhash, ← List.takeWhile_append_dropWhile (p := (· != '\n')) (l := cs)]
        refine ⟨_, .comment ?_ ?_ h⟩
        · intro hmem
          have hne := List.all_eq_true.1 List.all_takeWhile _ hmem
          exact absurd hne (by decide)
        · intro d hd
          have hhead := List.head?_dropWhile_not (· != '\n') cs
          rw [Option.mem_def.1 hd] at hhead
          simpa using hhead
      · have hplain : isPlain c = true := by simp [isPlain, hblank, hmark]
        obtain ⟨w, rest, hcs, hw, hend⟩ := exists_word cs hquote hhash hplain
        have hlen : rest.length < n := by
          have hpos := List.length_pos_iff.2 hw.ne_nil
          have := congrArg List.length hcs
          rw [List.length_cons, List.length_append] at this
          omega
        obtain ⟨ws, h⟩ := ih rest.length hlen rest rfl
        rw [hcs]
        exact ⟨_, .word hw hend h⟩

/-! ## The pieces -/

/-- A mark is no blank. -/
theorem isBlank_of_isSplit {c : Char} (hc : isSplit c = true) : Text.isBlank c = false := by
  have hall : ['(', ')', '\x7b', '\x7d', '[', ']', ',', ':', ';', '.'].all
      (fun c => Text.isBlank c == false) = true := by decide
  exact beq_iff_eq.1 (List.all_eq_true.1 hall c (List.contains_iff_mem.1 hc))

/-- A digit is plain. -/
theorem isPlain_of_isDigit {c : Char} (hc : c.isDigit = true) : isPlain c = true := by
  obtain ⟨d, hd, rfl⟩ := Decimal.exists_digitChar hc
  have hall : ∀ d < 10, isPlain (Nat.digitChar d) = true := by decide
  exact hall d hd

/-- An empty source has no piece. -/
@[simp] theorem pieces_nil : pieces [] = [] := by
  rw [pieces, piecesFrom]
  rfl

/-- A blank is a piece of its own. -/
theorem pieces_blank {c : Char} {rest : List Char} (hc : Text.isBlank c = true) :
    pieces (c :: rest) = .blank c :: pieces rest := by
  rw [pieces, piecesFrom, if_pos hc]
  rfl

/-- So is a mark. -/
theorem pieces_mark {c : Char} {rest : List Char} (hc : isSplit c = true) :
    pieces (c :: rest) = .word [c] :: pieces rest := by
  have hblank := isBlank_of_isSplit hc
  -- a mark begins neither a string nor a comment
  have hquote : c ≠ '"' := by
    rintro rfl
    exact absurd hc (by decide)
  have hhash : c ≠ '#' := by
    rintro rfl
    exact absurd hc (by decide)
  rw [pieces, piecesFrom]
  simp [hblank, hquote, hhash, hc, isDecimalPoint, flush, pieces]

/-- So is a text between quotes. -/
theorem pieces_text {cs body rest : List Char} (h : Quoted cs body rest) :
    pieces ('"' :: cs) = .text body :: pieces rest := by
  rw [pieces, piecesFrom, if_neg (by decide), if_pos (by decide), quoted_iff.1 h]
  rfl

/-- So is a comment, up to the end of its line. -/
theorem pieces_comment {line rest : List Char} (hline : '\n' ∉ line)
    (hrest : ∀ c ∈ rest.head?, c = '\n') :
    pieces ('#' :: (line ++ rest)) = .comment (Text.trimChars line) :: pieces rest := by
  have hline' : ∀ c ∈ line, (c != '\n') = true := by
    intro c hc
    rw [bne_iff_ne]
    rintro rfl
    exact hline hc
  have hrest' : ∀ c ∈ rest.head?, (c != '\n') = false := by
    intro c hc
    rw [hrest c hc]
    rfl
  -- the line of the comment is all up to the end of the line
  obtain ⟨htake, hdrop⟩ := Text.span_append hline' hrest'
  rw [pieces, piecesFrom, if_neg (by decide), if_neg (by decide), if_pos (by decide), htake, hdrop]
  rfl

/-! ### Words -/

/-- A plain character goes on with the word, or begins one. -/
theorem piecesFrom_plain {acc : List Char} {c : Char} (rest : List Char) (hc : isPlain c = true)
    (hstart : acc = [] → c ≠ '"' ∧ c ≠ '#') :
    piecesFrom acc (c :: rest) = piecesFrom (c :: acc) rest := by
  have hplain : Text.isBlank c = false ∧ isSplit c = false := by simpa [isPlain] using hc
  have hmark : ¬(c = '"' && acc.isEmpty) = true ∧ ¬(c = '#' && acc.isEmpty) = true := by
    simp only [Bool.and_eq_true, decide_eq_true_eq, List.isEmpty_iff]
    exact ⟨fun h => (hstart h.2).1 h.1, fun h => (hstart h.2).2 h.1⟩
  rw [piecesFrom, if_neg (by simp [hplain.1]), if_neg hmark.1, if_neg hmark.2,
    if_neg (by simp [hplain.2])]

/-- Plain characters go on with the word that has begun. -/
theorem piecesFrom_plains {acc cs : List Char} (rest : List Char)
    (hcs : ∀ a ∈ cs, isPlain a = true) (hacc : acc ≠ []) :
    piecesFrom acc (cs ++ rest) = piecesFrom (cs.reverse ++ acc) rest := by
  induction cs generalizing acc with
  | nil => rfl
  | cons c cs ih =>
    rw [List.forall_mem_cons] at hcs
    rw [List.cons_append, piecesFrom_plain _ hcs.1 (fun h => absurd h hacc),
      ih hcs.2 (List.cons_ne_nil _ _), List.reverse_cons, List.append_assoc, List.singleton_append]

/-- A point between digits goes on with the word. -/
theorem piecesFrom_point {acc : List Char} {d : Char} (rest : List Char) (hne : acc ≠ [])
    (hacc : ∀ a ∈ acc, a.isDigit = true) (hd : d.isDigit = true) :
    piecesFrom acc ('.' :: d :: rest) = piecesFrom ('.' :: acc) (d :: rest) := by
  have hpoint : isDecimalPoint '.' acc (d :: rest).head? = true := by
    have hdigits : acc.all Char.isDigit = true := List.all_eq_true.2 hacc
    simp [isDecimalPoint, hne, hdigits, hd]
  rw [piecesFrom, if_neg (by decide), if_neg (by simp), if_neg (by simp),
    if_neg (by rw [hpoint]; simp)]

/-- A word is collected whole. -/
theorem piecesFrom_isWord {w : List Char} (hw : IsWord w) (rest : List Char) :
    piecesFrom [] (w ++ rest) = piecesFrom w.reverse rest := by
  cases hw with
  | @plain c cs hquote hhash h =>
    rw [List.forall_mem_cons] at h
    rw [List.cons_append, piecesFrom_plain _ h.1 (fun _ => ⟨hquote, hhash⟩),
      piecesFrom_plains _ h.2 (List.cons_ne_nil _ _), List.reverse_cons]
  | @decimal ds cs d hne hds hd h =>
    -- the digits in front, the point while only digits were read, and the plain characters behind it
    obtain ⟨c, ds, rfl⟩ := List.exists_cons_of_ne_nil hne
    have hc := (List.forall_mem_cons.1 hds).1
    have hplain : ∀ a ∈ ds, isPlain a = true := fun a ha =>
      isPlain_of_isDigit (hds a (List.mem_cons_of_mem c ha))
    have hstart : c ≠ '"' ∧ c ≠ '#' := by
      constructor
      all_goals
        rintro rfl
        exact absurd hc (by decide)
    have hcs : ∀ a ∈ d :: cs, isPlain a = true :=
      List.forall_mem_cons.2 ⟨isPlain_of_isDigit hd, h⟩
    calc piecesFrom [] (c :: ds ++ '.' :: d :: cs ++ rest)
        = piecesFrom [c] (ds ++ ('.' :: d :: (cs ++ rest))) := by
          rw [List.cons_append, List.cons_append,
            piecesFrom_plain _ (isPlain_of_isDigit hc) (fun _ => hstart), List.append_assoc,
            List.cons_append, List.cons_append]
      _ = piecesFrom (c :: ds).reverse ('.' :: d :: (cs ++ rest)) := by
          rw [piecesFrom_plains _ hplain (List.cons_ne_nil _ _), List.reverse_cons]
      _ = piecesFrom ('.' :: (c :: ds).reverse) ((d :: cs) ++ rest) :=
          piecesFrom_point _ (by simp) (fun a ha => hds a (List.mem_reverse.1 ha)) hd
      _ = piecesFrom (c :: ds ++ '.' :: d :: cs).reverse rest := by
          rw [piecesFrom_plains _ hcs (List.cons_ne_nil _ _), List.reverse_append,
            List.reverse_cons (a := '.'), List.append_assoc, List.singleton_append]

/-- Where a word ends, it is a piece. -/
theorem piecesFrom_ends {w rest : List Char} (hne : w ≠ []) (hend : Ends w rest) :
    piecesFrom w.reverse rest = .word w :: pieces rest := by
  have hflush : flush w.reverse = [.word w] := by simp [flush, hne]
  cases rest with
  | nil => rw [piecesFrom, hflush, pieces_nil]
  | cons c rest =>
    -- what is no blank behind the word splits
    have hstop : Text.isBlank c = false → isSplit c = true := by
      simpa [isPlain] using hend.stop c rfl
    by_cases hblank : Text.isBlank c = true
    · rw [piecesFrom, if_pos hblank, hflush, pieces_blank hblank]
      rfl
    · have hmark := hstop (Bool.eq_false_iff.2 hblank)
      -- a point behind digits would need a digit behind it
      have hpoint : isDecimalPoint c w.reverse rest.head? = false := by
        rw [← Bool.not_eq_true]
        intro h
        simp only [isDecimalPoint, Bool.and_eq_true, beq_iff_eq, List.all_reverse,
          List.all_eq_true] at h
        obtain ⟨⟨⟨rfl, -⟩, hdigits⟩, hnext⟩ := h
        obtain ⟨d, rest, rfl⟩ : ∃ d rest', rest = d :: rest' := by
          cases rest with
          | nil => cases hnext
          | cons d rest => exact ⟨d, rest, rfl⟩
        have hno := hend.noPoint hdigits d rest rfl
        rw [List.head?_cons, Option.any_some, hno] at hnext
        cases hnext
      rw [piecesFrom, if_neg hblank, if_neg (by simp [hne]), if_neg (by simp [hne]),
        if_pos (by simp [hmark, hpoint]), hflush, pieces_mark hmark]
      rfl

/-- A word that ends where it stands is a piece. -/
theorem pieces_word {w rest : List Char} (hw : IsWord w) (hend : Ends w rest) :
    pieces (w ++ rest) = .word w :: pieces rest := by
  rw [pieces, piecesFrom_isWord hw, piecesFrom_ends hw.ne_nil hend]

/-! ## There is one way -/

/-- What a piece is a part of the text, blanks being none. -/
def Piece.lexeme? : Piece → Option Lexeme
  | blank _ => none
  | word cs => some (.word cs)
  | text cs => some (.text cs)
  | comment cs => some (.comment cs)

/-- The parts of a text are its pieces. -/
theorem Splits.eq_pieces {cs : List Char} {ws : List Lexeme} (h : Splits cs ws) :
    ws = (pieces cs).filterMap Piece.lexeme? := by
  -- part by part, each beginning where the one before has ended
  induction h with
  | nil => rw [pieces_nil, List.filterMap_nil]
  | blank hc h ih =>
    rw [pieces_blank hc, List.filterMap_cons_none rfl]
    exact ih
  | mark hc h ih =>
    rw [pieces_mark hc, ih]
    rfl
  | text hcs h ih =>
    rw [pieces_text hcs, ih]
    rfl
  | comment hline hrest h ih =>
    rw [pieces_comment hline hrest, ih]
    rfl
  | word hw hend h ih =>
    rw [pieces_word hw hend, ih]
    rfl

/-- A text is split in one way. -/
theorem Splits.unique {cs : List Char} {ws ws' : List Lexeme} (h : Splits cs ws)
    (h' : Splits cs ws') : ws' = ws := by
  rw [h.eq_pieces, h'.eq_pieces]

end BrailleScript.Readable
