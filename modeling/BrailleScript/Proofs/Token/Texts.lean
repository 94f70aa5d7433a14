import BrailleScript.Proofs.Cell
import BrailleScript.Proofs.Node.Gives
import BrailleScript.Proofs.Token.Coverage

/-!
# Strings in a source

A string in a source is shorter than the source, also when the source is readable text that is
spelled in cells first: its quotes, or its marks, are part of the source and it is no longer than
what stands between them.

## Key results

- `Lexer.tokensFrom_texts`: what holds of all strings of a source, from single scans
- `Readable.spelled_spell`: spelled text is made of plain cells, strings and comments
- `tokenize_toCells_texts`: strings are shorter than the source
-/

namespace BrailleScript

namespace Lexer

/-- What every scan keeps of the characters left, and what it gives for strings, holds of all strings
of the source. -/
theorem tokensFrom_texts {P : List Char → Prop} {R : String → Prop} {lenient : Bool}
    (blank : ∀ c rest, P (c :: rest) → Text.isBlank c = true → P rest)
    (scanned : ∀ c rest s, P (c :: rest) → scan lenient c rest = .ok s →
      P s.rest ∧ ∀ t, s.kind = .text t → R t)
    {here : Cursor} {cs : List Char} {tokens : List Token} (h : P cs)
    (ht : tokensFrom lenient here cs = .ok tokens) : Parser.Texts R tokens := by
  -- what is kept of the rest holds again behind the token
  fun_induction tokensFrom lenient here cs generalizing tokens with
  | case1 here =>
    cases ht
    intro t hmem s hs
    obtain rfl := List.mem_singleton.1 hmem
    cases hs
  | case2 here c rest hc ih => exact ih (blank c rest h hc) ht
  | case3 | case4 => cases ht
  | case5 here c rest _ s hs ts hts ih =>
    cases ht
    obtain ⟨hrest, htext⟩ := scanned c rest s h hs
    intro t hmem
    rcases List.mem_cons.1 hmem with rfl | hmem
    · exact htext
    · exact ih hrest hts t hmem

/-- A string is shorter than the cells from its first mark on. -/
theorem length_text_of_scan {lenient : Bool} {c : Char} {rest : List Char} {s : Scanned}
    (h : scan lenient c rest = .ok s) {t : String} (ht : s.kind = .text t) :
    t.length < (c :: rest).length := by
  obtain ⟨-, hs⟩ := scan_text h ht
  obtain rfl := TokenKind.text.inj ((kind_scanString hs).symm.trans ht)
  rw [String.length_ofList, List.length_cons, Nat.lt_succ_iff]
  exact Nat.le_trans (Cell.length_decodeChars_le _) (List.takeWhile_prefix _).length_le

/-- The strings of a source in cells are shorter than the source. -/
theorem tokensFrom_texts_lt {lenient : Bool} {here : Cursor} {cs : List Char} {tokens : List Token}
    (ht : tokensFrom lenient here cs = .ok tokens) :
    Parser.Texts (fun t => t.length < cs.length) tokens := by
  refine tokensFrom_texts (P := fun cs' => cs'.length ≤ cs.length) (fun c rest h _ => ?_)
    (fun c rest s h hs => ⟨?_, fun t hkind => ?_⟩) (Nat.le_refl _) ht
  · exact Nat.le_trans (Nat.le_succ _) h
  · exact Nat.le_trans (Nat.le_of_lt (length_rest_lt_of_scan hs)) h
  · exact Nat.lt_of_lt_of_le (length_text_of_scan hs hkind) h

end Lexer

/-! ## Spelled text -/

namespace Readable

/-- Text as it is spelled: plain characters, strings with fewer than `n` characters between their
marks, and comments up to the end of a line. -/
inductive Spelled (n : Nat) : List Char → Prop
  | nil : Spelled n []
  | plain {c : Char} {cs : List Char} (hs : c ≠ Symbol.stringMark) (hc : c ≠ Symbol.commentMark)
    (h : Spelled n cs) : Spelled n (c :: cs)
  | text {t cs : List Char} (ht : t.length < n) (h : Spelled n cs) :
    Spelled n (Symbol.stringMark :: (Cell.encodeChars t ++ Symbol.stringMark :: cs))
  | comment {t cs : List Char} (hend : cs = [] ∨ cs.head? = some '\n') (h : Spelled n cs) :
    Spelled n (Symbol.commentMark :: (Cell.encodeChars t ++ cs))

namespace Spelled

variable {n : Nat} {cs : List Char}

/-- Dropping other characters than marks leaves less to spell. -/
theorem dropWhile (h : Spelled n cs) {p : Char → Bool} (hs : p Symbol.stringMark = false)
    (hc : p Symbol.commentMark = false) : Spelled n (cs.dropWhile p) := by
  -- the dropping stops at a mark, in front of which nothing is lost
  induction h with
  | nil => exact .nil
  | @plain c cs hs' hc' h ih =>
    cases hp : p c with
    | true => rwa [List.dropWhile_cons_of_pos hp]
    | false =>
      rw [List.dropWhile_cons_of_neg (by simp [hp])]
      exact .plain hs' hc' h
  | text ht h =>
    rw [List.dropWhile_cons_of_neg (by simp [hs])]
    exact .text ht h
  | comment hend h =>
    rw [List.dropWhile_cons_of_neg (by simp [hc])]
    exact .comment hend h

/-- The cells of a text are taken up to where the taking stops. -/
theorem takeWhile_encodeChars {p : Char → Bool} (hp : ∀ c, Symbol.isStructural c = false →
    Cell.isCell c = true → p c = true) (t : List Char) (hcs : ∀ c ∈ cs.head?, p c = false) :
    (Cell.encodeChars t ++ cs).takeWhile p = Cell.encodeChars t ∧
      (Cell.encodeChars t ++ cs).dropWhile p = cs := by
  have ht : ∀ c ∈ Cell.encodeChars t, p c = true := fun c hc =>
    hp c (Cell.isStructural_of_mem_encodeChars hc) (Cell.isCell_of_mem_encodeChars hc)
  exact Text.span_append ht hcs

/-- A character that is not structural is no mark of a string. -/
theorem ne_stringMark {c : Char} (h : Symbol.isStructural c = false) :
    (c != Symbol.stringMark) = true := by
  rw [bne_iff_ne]
  rintro rfl
  exact absurd h (by decide)

/-- A cell that is not structural is no mark of a comment and no line feed. -/
theorem ne_commentMark {c : Char} (h : Symbol.isStructural c = false) (hcell : Cell.isCell c = true) :
    (c != '\n' && c != Symbol.commentMark) = true := by
  rw [Bool.and_eq_true, bne_iff_ne, bne_iff_ne]
  constructor
  · rintro rfl
    exact absurd hcell (by decide)
  · rintro rfl
    exact absurd h (by decide)

/-- The comment of a text runs to the end of the line. -/
theorem scanComment_encodeChars (t : List Char) (hcs : ∀ c ∈ cs.head?, c = '\n') :
    Lexer.scanComment (Cell.encodeChars t ++ cs) =
      ⟨.comment (String.ofList (Text.trimChars t)), Symbol.commentMark :: Cell.encodeChars t,
        cs⟩ := by
  have hstop : ∀ c ∈ cs.head?, (c != '\n' && c != Symbol.commentMark) = false := by
    intro c hc
    rw [hcs c hc]
    rfl
  obtain ⟨htake, hdrop⟩ := takeWhile_encodeChars (fun c => ne_commentMark) t hstop
  rw [Lexer.scanComment, htake, hdrop, Cell.decodeChars_encodeChars]
  cases cs with
  | nil => rfl
  | cons c cs =>
    -- a comment that has ended does not begin again
    obtain rfl := hcs c rfl
    rfl

/-- The string of a text runs to the closing mark. -/
theorem scanString_encodeChars (lenient : Bool) (t cs : List Char) :
    Lexer.scanString lenient (Cell.encodeChars t ++ Symbol.stringMark :: cs) =
      .ok ⟨.text (String.ofList t),
        Symbol.stringMark :: Cell.encodeChars t ++ [Symbol.stringMark], cs⟩ := by
  have hstop : ∀ c ∈ (Symbol.stringMark :: cs).head?, (c != Symbol.stringMark) = false := by
    intro c hc
    obtain rfl := Option.some.inj hc
    decide
  obtain ⟨htake, hdrop⟩ := takeWhile_encodeChars (fun c hc _ => ne_stringMark hc) t hstop
  rw [Lexer.scanString, htake, hdrop, Cell.decodeChars_encodeChars]

/-- Behind a comment there is less to spell. -/
theorem scanComment {c : Char} {rest : List Char} (h : Spelled n (c :: rest))
    (hc : c = Symbol.commentMark) : Spelled n (Lexer.scanComment rest).rest := by
  cases h with
  | plain hs hc' h => exact absurd hc hc'
  | text => exact absurd hc (by decide)
  | @comment t cs hend h =>
    -- the comment ends where its line does
    have hcs : ∀ c ∈ cs.head?, c = '\n' := by
      intro c hc
      rcases hend with rfl | hend
      · cases hc
      · exact Option.some.inj (hc.symm.trans hend)
    rw [scanComment_encodeChars t hcs]
    exact h

/-- Behind a string there is less to spell, and its text was shorter. -/
theorem scanString {lenient : Bool} {c : Char} {rest : List Char} {s : Lexer.Scanned}
    (h : Spelled n (c :: rest)) (hc : c = Symbol.stringMark)
    (hs : Lexer.scanString lenient rest = .ok s) :
    Spelled n s.rest ∧ ∀ t, s.kind = .text t → t.length < n := by
  cases h with
  | plain hs' _ h => exact absurd hc hs'
  | comment => exact absurd hc (by decide)
  | @text t cs ht h =>
    -- the scan takes back what was encoded
    rw [scanString_encodeChars] at hs
    cases hs
    refine ⟨h, fun t' ht' => ?_⟩
    cases ht'
    rwa [String.length_ofList]

/-- Behind a blank there is less to spell. -/
theorem blank {c : Char} {rest : List Char} (h : Spelled n (c :: rest))
    (hc : Text.isBlank c = true) : Spelled n rest := by
  cases h with
  | plain _ _ h => exact h
  | text => exact absurd hc (by decide)
  | comment => exact absurd hc (by decide)

/-- Behind every token there is less to spell, and its text was shorter. -/
theorem scanned {lenient : Bool} {c : Char} {rest : List Char} {s : Lexer.Scanned}
    (h : Spelled n (c :: rest)) (hs : Lexer.scan lenient c rest = .ok s) :
    Spelled n s.rest ∧ ∀ t, s.kind = .text t → t.length < n := by
  constructor
  case left =>
    -- each scan drops the characters of its own token
    cases Lexer.scan_eq_iff.1 hs with
    | comment hc => exact h.scanComment hc
    | string hc hs => exact (h.scanString hc hs).1
    | escaped hc hs =>
      rw [(Lexer.scanEscaped_eq_ok hs).2]
      cases h with
      | plain _ _ h =>
        exact (h.dropWhile (by decide) (by decide)).dropWhile (by decide) (by decide)
      | text => exact absurd hc (by decide)
      | comment => exact absurd hc (by decide)
    | word _ hs =>
      rw [(Lexer.scanWord_eq_ok hs).2]
      exact h.dropWhile (by decide) (by decide)
  case right =>
    intro t ht
    obtain ⟨hc, hs⟩ := Lexer.scan_text hs ht
    exact (h.scanString hc hs).2 t ht

end Spelled

/-! ### Joined pieces -/

variable {n : Nat}

/-- The pieces are spelled as text, with a space before them or not. -/
def Joins (n : Nat) (ps : List Piece) : Prop :=
  ∀ needSpace, Spelled n (joinFrom needSpace ps)

/-- A piece in front is joined by its cells. -/
theorem Joins.cons {p : Piece} {ps : List Piece}
    (h : Spelled n (p.cells ++ joinFrom p.needsSpace ps)) : Joins n (p :: ps) := by
  intro needSpace
  rw [joinFrom]
  split
  · exact .plain (by decide) (by decide) h
  · exact h

/-- A character that is no mark of a string or a comment. -/
def Plain (c : Char) : Prop :=
  c ≠ Symbol.stringMark ∧ c ≠ Symbol.commentMark

/-- Plain characters in front spell no text. -/
theorem Spelled.plains {cs cs' : List Char} (hcs : ∀ c ∈ cs, Plain c) (h : Spelled n cs') :
    Spelled n (cs ++ cs') := by
  induction cs with
  | nil => exact h
  | cons c cs ih =>
    rw [List.forall_mem_cons] at hcs
    exact .plain hcs.1.1 hcs.1.2 (ih hcs.2)

/-- Encoded characters are plain. -/
theorem plain_encodeChars (t : List Char) : ∀ c ∈ Cell.encodeChars t, Plain c := by
  intro c hc
  have hno := Cell.isStructural_of_mem_encodeChars hc
  constructor
  · rintro rfl
    exact absurd hno (by decide)
  · rintro rfl
    exact absurd hno (by decide)

/-- So is the cell of a role. -/
theorem plain_roleCell (role : Role) : Plain role.cell := by
  unfold Plain
  cases role with
  | keyword k => cases k <;> decide
  | operator o => cases o <;> decide
  | delimiter d => cases d <;> decide

/-- So is the cell of a digit. -/
theorem plain_digitCell (d : Nat) : Plain (Symbol.digitCell d) := by
  have hall : ∀ k < 10, Symbol.digitCells.getD k '⠚' ≠ Symbol.stringMark ∧
      Symbol.digitCells.getD k '⠚' ≠ Symbol.commentMark := by decide
  exact hall (d % 10) (Nat.mod_lt d (by decide))

/-- A word is spelled without marks of strings and comments. -/
theorem plain_wordCells (cs : List Char) : ∀ c ∈ wordCells cs, Plain c := by
  have hescape : Plain Symbol.identifierEscape := ⟨by decide, by decide⟩
  unfold wordCells
  split
  next name => exact List.forall_mem_cons.2 ⟨hescape, plain_encodeChars name⟩
  next =>
    -- roles are single cells, and the others are spelled cell by cell
    split
    next role _ => exact List.forall_mem_singleton.2 (plain_roleCell role)
    next =>
      split
      next =>
        refine List.forall_mem_cons.2 ⟨⟨by decide, by decide⟩, fun c hc => ?_⟩
        obtain ⟨d, -, rfl⟩ := List.mem_map.1 hc
        split
        · exact plain_digitCell _
        · exact ⟨by decide, by decide⟩
      next =>
        have hcells := plain_encodeChars cs
        split
        next only honly =>
          rw [honly, List.forall_mem_singleton] at hcells
          split
          · exact List.forall_mem_cons.2 ⟨hescape, List.forall_mem_singleton.2 hcells⟩
          · exact List.forall_mem_singleton.2 hcells
        next => exact hcells

namespace Joins

variable {ps : List Piece}

/-- No pieces spell nothing. -/
theorem nil : Joins n [] := fun _ => .nil

/-- A word spells no text. -/
theorem word (cs : List Char) (h : Joins n ps) : Joins n (.word cs :: ps) :=
  .cons (.plains (plain_wordCells cs) (h _))

/-- Nor does a blank. -/
theorem blank {c : Char} (hc : Text.isBlank c = true) (h : Joins n ps) :
    Joins n (.blank c :: ps) := by
  refine .cons (.plain ?_ ?_ (h _))
  · rintro rfl
    exact absurd hc (by decide)
  · rintro rfl
    exact absurd hc (by decide)

/-- A text shorter than the bound may be spelled. -/
theorem text {cs : List Char} (hcs : cs.length < n) (h : Joins n ps) : Joins n (.text cs :: ps) := by
  refine .cons ?_
  rw [Piece.cells, List.cons_append, List.cons_append, List.append_assoc, List.singleton_append]
  exact .text hcs (h _)

/-- Behind a comment the text ends or the line does. -/
theorem comment (cs : List Char) (hend : ps = [] ∨ ps.head? = some (.blank '\n')) (h : Joins n ps) :
    Joins n (.comment cs :: ps) := by
  refine .cons (.comment ?_ (h _))
  rcases hend with rfl | hend
  · exact .inl rfl
  · obtain ⟨ps', rfl⟩ := List.head?_eq_some_iff.1 hend
    exact .inr rfl

/-- A word that has begun spells no text. -/
theorem flush (word : List Char) (h : Joins n ps) : Joins n (flush word ++ ps) := by
  unfold Readable.flush
  split
  · exact h
  · exact h.word _

end Joins

/-- A text is no longer than what it is written in. -/
theorem length_stringBody_fst_le (cs : List Char) : (stringBody cs).1.length ≤ cs.length := by
  fun_induction stringBody cs with
  | case1 | case2 | case3 => exact Nat.zero_le _
  | case4 c rest ih =>
    simp only [List.length_cons]
    omega
  | case5 c rest _ _ _ ih => exact Nat.succ_le_succ ih

/-- What follows a comment begins with the end of its line. -/
theorem piecesFrom_dropWhile (cs : List Char) :
    piecesFrom [] (cs.dropWhile (· != '\n')) = [] ∨
      (piecesFrom [] (cs.dropWhile (· != '\n'))).head? = some (.blank '\n') := by
  cases hd : cs.dropWhile (· != '\n') with
  | nil =>
    rw [piecesFrom]
    exact .inl rfl
  | cons c rest =>
    -- only a line feed stops the dropping
    have hc : (c != '\n') = false := by
      have hhead := List.head?_dropWhile_not (· != '\n') cs
      rw [hd] at hhead
      simpa using hhead
    obtain rfl : c = '\n' := by simpa using hc
    rw [piecesFrom, if_pos (by decide)]
    exact .inr rfl

/-- The pieces of a text are spelled with strings that are shorter than the text. -/
theorem joins_piecesFrom (word cs : List Char) (hn : cs.length ≤ n) :
    Joins n (piecesFrom word cs) := by
  -- what is left for each piece is a shorter text
  fun_induction piecesFrom word cs with
  | case1 word =>
    rw [← List.append_nil (flush word)]
    exact .flush word .nil
  | case2 word c rest hc ih => exact .flush word (.blank hc (ih (Nat.le_of_succ_le hn)))
  | case3 word c rest _ _ ih =>
    have hfst := length_stringBody_fst_le rest
    have hsnd := length_stringBody_le rest
    rw [List.length_cons] at hn
    exact .text (by omega) (ih (by omega))
  | case4 word c rest _ _ _ ih =>
    have hdrop := (List.dropWhile_suffix (l := rest) (· != '\n')).length_le
    rw [List.length_cons] at hn
    exact .comment _ (piecesFrom_dropWhile rest) (ih (by omega))
  | case5 word c rest _ _ _ _ ih => exact .flush word (.word _ (ih (Nat.le_of_succ_le hn)))
  | case6 word c rest _ _ _ _ ih => exact ih (Nat.le_of_succ_le hn)

/-- A readable text is spelled with strings that are shorter than the text. -/
theorem spelled_spell (s : String) : Spelled s.length (spell s).toList := by
  rw [spell, String.toList_ofList]
  exact joins_piecesFrom [] s.toList (Nat.le_of_eq String.length_toList) false

end Readable

/-- The strings of a source are shorter than the source, be it in cells or readable. -/
theorem tokenize_toCells_texts {lenient : Bool} {s : String} {tokens : List Token}
    (h : tokenize lenient (Readable.toCells s) = .ok tokens) :
    Parser.Texts (fun t => t.length < s.length) tokens := by
  unfold Readable.toCells at h
  split at h
  · rw [← String.length_toList]
    exact Lexer.tokensFrom_texts_lt h
  · exact Lexer.tokensFrom_texts (P := Readable.Spelled s.length) (fun c rest hc hb => hc.blank hb)
      (fun c rest s hc hs => hc.scanned hs) (Readable.spelled_spell s) h

end BrailleScript
