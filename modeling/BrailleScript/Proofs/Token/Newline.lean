import BrailleScript.Proofs.Token.Reading

/-!
# Lines are read one by one

No token goes over a line feed unless it is closed behind it: words end in front of it, and so does a
comment that is open.  So a source that the strict lexer accepts is read alike in front of a line
feed, and the lexer comes out behind it as it starts, but for the bytes and the lines it has gone over.

## Key results

- `scan_feed`, `Reads.feed`: what is read in front of a line feed
- `tokensFrom_moved`: what is read from a place further on
- `tokenize_feed`: two sources with a line feed between them
-/

namespace BrailleScript

/-- The position in a text with `lines` more lines in front. -/
def Pos.down (lines : Nat) (p : Pos) : Pos :=
  ⟨p.line + lines, p.col⟩

/-- The cursor in a text with more in front. -/
def Cursor.moved (bytes lines : Nat) (here : Cursor) : Cursor :=
  ⟨here.offset + bytes, here.pos.down lines⟩

/-- The token in a text with more in front. -/
def Token.moved (bytes lines : Nat) (t : Token) : Token :=
  { t with offset := t.offset + bytes, pos := t.pos.down lines }

/-- The error in a text with more in front. -/
def LexError.down (lines : Nat) (e : LexError) : LexError :=
  { e with pos := e.pos.down lines }

/-- Lines further down, positions advance alike. -/
theorem Pos.advance_down (lines : Nat) (p : Pos) (c : Char) :
    (p.down lines).advance c = (p.advance c).down lines := by
  unfold Pos.advance
  split
  · simp only [Pos.down, Nat.add_right_comm]
  · rfl

/-- So do cursors that are moved. -/
theorem Cursor.advance_moved (bytes lines : Nat) (here : Cursor) (c : Char) :
    (here.moved bytes lines).advance c = (here.advance c).moved bytes lines := by
  simp only [Cursor.moved, Cursor.advance, Pos.advance_down, Nat.add_right_comm]

/-- So they do over a text. -/
theorem Cursor.advanceAll_moved (bytes lines : Nat) (here : Cursor) (cs : List Char) :
    (here.moved bytes lines).advanceAll cs = (here.advanceAll cs).moved bytes lines := by
  unfold Cursor.advanceAll
  induction cs generalizing here with
  | nil => rfl
  | cons c cs ih => rw [List.foldl_cons, List.foldl_cons, Cursor.advance_moved, ih]

/-- Behind a text and a line feed the cursor is as at the start, but for what is in front. -/
theorem Cursor.advance_feed (cs : List Char) : (Cursor.start.advanceAll cs).advance '\n' =
    Cursor.start.moved ((String.ofList cs).utf8ByteSize + 1) (cs.count '\n' + 1) := by
  rw [Cursor.advanceAll_start, Cursor.advance, Pos.advance, if_pos rfl]
  simp only [Cursor.moved, Pos.down, Cursor.start, Pos.start, Nat.zero_add, Nat.add_assoc]
  rfl

/-- Any other kind is not the end of input. -/
theorem TokenKind.isEndOfInput_eq_false {kind : TokenKind} (h : kind ≠ .endOfInput) :
    kind.isEndOfInput = false := by
  cases kind with
  | endOfInput => exact absurd rfl h
  | _ => rfl

namespace Lexer

/-! ## In front of a line feed -/

section

variable {α : Type} {p : α → Bool} {x : α}

/-- What stands behind a stop is not taken. -/
theorem takeWhile_append_stop (hx : p x = false) (l m : List α) :
    (l ++ x :: m).takeWhile p = l.takeWhile p := by
  rw [List.takeWhile_append, List.takeWhile_cons_of_neg (by simp [hx]), List.append_nil]
  split
  · next h => exact ((List.takeWhile_prefix p).eq_of_length h).symm
  · rfl

/-- It is left, with the stop. -/
theorem dropWhile_append_stop (hx : p x = false) (l m : List α) :
    (l ++ x :: m).dropWhile p = l.dropWhile p ++ x :: m := by
  rw [List.dropWhile_append, List.dropWhile_cons_of_neg (by simp [hx])]
  split
  · next h => rw [List.isEmpty_iff.1 h, List.nil_append]
  · rfl

/-- Where something stops, more text behind is not taken. -/
theorem takeWhile_append_of_stopped {l : List α} (h : l.dropWhile p ≠ []) (m : List α) :
    (l ++ m).takeWhile p = l.takeWhile p := by
  rw [List.takeWhile_append, if_neg]
  intro hlength
  have hl := List.takeWhile_append_dropWhile (p := p) (l := l)
  rw [(List.takeWhile_prefix p).eq_of_length hlength] at hl
  exact h (List.append_right_eq_self.1 hl)

/-- It is left with the rest. -/
theorem dropWhile_append_of_stopped {l : List α} (h : l.dropWhile p ≠ []) (m : List α) :
    (l ++ m).dropWhile p = l.dropWhile p ++ m := by
  rw [List.dropWhile_append, if_neg (by simpa using h)]

end

variable {lenient : Bool} {c : Char} {rest : List Char} {s : Scanned}

/-- The same scan, with more behind it. -/
def Scanned.before (s : Scanned) (more : List Char) : Scanned :=
  { s with rest := s.rest ++ more }

/-- A comment ends at the line feed. -/
theorem scanComment_feed (rest more : List Char) :
    scanComment (rest ++ '\n' :: more) = (scanComment rest).before ('\n' :: more) := by
  unfold scanComment
  dsimp only
  rw [takeWhile_append_stop (by decide), dropWhile_append_stop (by decide)]
  -- the comment has ended at the line feed or in front of it
  cases hafter : rest.dropWhile fun c => c != '\n' && c != Symbol.commentMark with
  | nil => rfl
  | cons c after =>
    dsimp only [List.cons_append]
    split <;> rfl

/-- A string that is closed is scanned alike with more behind. -/
theorem scanString_feed (h : scanString false rest = .ok s) (more : List Char) :
    scanString lenient (rest ++ '\n' :: more) = .ok (s.before ('\n' :: more)) := by
  unfold scanString at h ⊢
  dsimp only at h ⊢
  -- the string is closed in front of the line feed
  have hclosed : rest.dropWhile (· != Symbol.stringMark) ≠ [] := by
    intro hnil
    rw [hnil] at h
    exact nomatch h
  rw [takeWhile_append_of_stopped hclosed, dropWhile_append_of_stopped hclosed]
  cases hafter : rest.dropWhile (· != Symbol.stringMark) with
  | nil => exact absurd hafter hclosed
  | cons c after =>
    rw [hafter] at h
    cases h
    rfl

/-- So is an escaped name. -/
theorem scanEscaped_feed (h : scanEscaped rest = .ok s) (more : List Char) :
    scanEscaped (rest ++ '\n' :: more) = .ok (s.before ('\n' :: more)) := by
  unfold scanEscaped at h ⊢
  dsimp only at h ⊢
  split at h
  · exact nomatch h
  · next hword =>
    cases h
    -- the blanks end where the word begins
    have hafter : rest.dropWhile Text.isBlank ≠ [] := by
      intro hnil
      rw [hnil] at hword
      exact hword rfl
    rw [takeWhile_append_of_stopped hafter, dropWhile_append_of_stopped hafter,
      takeWhile_append_stop (by decide), dropWhile_append_stop (by decide), if_neg hword]
    rfl

/-- So is a word. -/
theorem scanWord_feed {cs : List Char} (h : scanWord cs = .ok s) (more : List Char) :
    scanWord (cs ++ '\n' :: more) = .ok (s.before ('\n' :: more)) := by
  unfold scanWord at h ⊢
  dsimp only at h ⊢
  rw [takeWhile_append_stop (by decide), dropWhile_append_stop (by decide)]
  cases hkind : wordKind (cs.takeWhile Symbol.isWordCell) with
  | ok kind =>
    rw [hkind] at h
    cases h
    rfl
  | error fault =>
    rw [hkind] at h
    exact nomatch h

/-- What is scanned is scanned alike in front of a line feed. -/
theorem scan_feed (h : scan false c rest = .ok s) (more : List Char) :
    scan lenient c (rest ++ '\n' :: more) = .ok (s.before ('\n' :: more)) := by
  refine scan_eq_iff.2 ?_
  -- each kind of scan stops at the line feed at the latest
  cases scan_eq_iff.1 h with
  | comment hc =>
    rw [← scanComment_feed]
    exact .comment hc
  | string hc hs => exact .string hc (scanString_feed hs more)
  | escaped hc hs => exact .escaped hc (scanEscaped_feed hs more)
  | word hc hs => exact .word hc (scanWord_feed hs more)

/-- What is read to its end is read in front of a line feed. -/
theorem Reads.feed {here there : Cursor} {cs left : List Char} {tokens : List Token}
    (h : Reads false here cs tokens there left) (lenient : Bool) (more : List Char) :
    Reads lenient here (cs ++ '\n' :: more) tokens there (left ++ '\n' :: more) := by
  induction h with
  | done => exact .done
  | blank hc hrest ih => exact .blank hc ih
  | token hc hs hrest ih => exact .token (s := Scanned.before _ _) hc (scan_feed hs more) ih

/-! ## Further on -/

/-- The tokens or the error of a text with more in front. -/
def moved (bytes lines : Nat) : Except LexError (List Token) → Except LexError (List Token)
  | .ok tokens => .ok (tokens.map (Token.moved bytes lines))
  | .error e => .error (e.down lines)

/-- Tokens from a place further on are moved there. -/
theorem tokensFrom_moved (lenient : Bool) (bytes lines : Nat) (here : Cursor) (cs : List Char) :
    tokensFrom lenient (here.moved bytes lines) cs =
      moved bytes lines (tokensFrom lenient here cs) := by
  -- the cursor on either side has passed the same characters
  fun_induction tokensFrom lenient here cs with
  | case1 here => rw [tokensFrom]; rfl
  | case2 here c rest hc ih => rw [tokensFrom_blank hc, Cursor.advance_moved, ih]
  | case3 here c rest hc fault hs =>
    rw [(Fails.mk (Bool.eq_false_iff.2 hc) hs).tokensFrom_eq]
    simp only [moved, LexError.down, Cursor.moved, Pos.advance_down]
  | case4 here c rest hc s hs e he ih =>
    rw [tokensFrom_token (Bool.eq_false_iff.2 hc) hs, Cursor.advanceAll_moved, ih, he]
    rfl
  | case5 here c rest hc s hs ts hts ih =>
    rw [tokensFrom_token (Bool.eq_false_iff.2 hc) hs, Cursor.advanceAll_moved, ih, hts]
    simp only [moved, Except.map, List.map_cons, Token.moved, Cursor.moved, Pos.advance_down]

end Lexer

/-- A line feed behind a source that the strict lexer accepts is a boundary: the tokens in front of it
are those of the source, and the tokens behind it, or the error, are those of what stands there, with
more bytes and lines in front. -/
theorem tokenize_feed (lenient : Bool) {source : String} {tokens : List Token}
    (h : tokenize false source = .ok tokens) (more : String) :
    tokenize lenient (source ++ "\n" ++ more) =
      match tokenize lenient more with
      | .ok tokens' => .ok (tokens.filter (!·.kind.isEndOfInput) ++
          tokens'.map (Token.moved (source.utf8ByteSize + 1) (source.toList.count '\n' + 1)))
      | .error e => .error (e.down (source.toList.count '\n' + 1)) := by
  obtain ⟨front, there, hreads, rfl⟩ := Lexer.exists_reads_of_tokensFrom h
  obtain ⟨passed, hpassed, rfl⟩ := hreads.cursor
  rw [List.append_nil] at hpassed
  subst hpassed
  -- no token in front of the line feed is an end of input
  have hfront : front.filter (!·.kind.isEndOfInput) = front := by
    refine List.filter_eq_self.2 fun t ht => ?_
    obtain ⟨_, _, _, -, hstands⟩ := hreads.tokens_standAt t ht
    rw [TokenKind.isEndOfInput_eq_false hstands.kind_ne]
    rfl
  have hsource : (source ++ "\n" ++ more).toList = source.toList ++ '\n' :: more.toList := by
    simp
  rw [tokenize, hsource, (hreads.feed lenient more.toList).tokensFrom_eq, List.nil_append,
    Lexer.tokensFrom_blank (by decide), Cursor.advance_feed, Lexer.tokensFrom_moved,
    String.ofList_toList, List.filter_append, hfront, tokenize]
  cases Lexer.tokensFrom lenient Cursor.start more.toList with
  | ok tokens' => simp [Lexer.moved, Lexer.endToken, TokenKind.isEndOfInput, Except.map]
  | error e => rfl

/-- A name and a comment that is open, and behind them a string that is open: the comment ends with
its line, and the error is that of the string, two lines further on. -/
theorem tokenize_feed_comment : ∃ tokens, tokenize false "⡣\n⣾⡤" = .ok tokens ∧
    tokens.map (·.raw) = ["⡣", "⣾⡤", ""] ∧
    tokenize false "⣿⡤" = .error ⟨.unterminatedString, ⟨1, 1⟩⟩ ∧
    tokenize false ("⡣\n⣾⡤" ++ "\n" ++ "⣿⡤") = .error ⟨.unterminatedString, ⟨3, 1⟩⟩ := by
  have hname : Lexer.scan false '⡣' ['\n', '⣾', '⡤'] =
    .ok ⟨.identifier (String.ofList (Cell.decodeNameChars ['⡣'])), ['⡣'], ['\n', '⣾', '⡤']⟩ := by rfl
  have hcomment : Lexer.scan false '⣾' ['⡤'] =
    .ok ⟨.comment (String.ofList (Text.trimChars (Cell.decodeChars ['⡤']))), ['⣾', '⡤'], []⟩ := by rfl
  -- the name and the comment, one token after the other
  have hreads : Lexer.Reads false Cursor.start ['⡣', '\n', '⣾', '⡤'] _ _ [] :=
    .token (by decide) hname (.blank (by decide) (.token (by decide) hcomment .done))
  have h : tokenize false "⡣\n⣾⡤" = .ok _ := hreads.tokensFrom_eq_ok
  have hstring : Lexer.Fails false '⣿' ['⡤'] .unterminatedString := ⟨by decide, by rfl⟩
  have hopen : tokenize false "⣿⡤" = .error ⟨.unterminatedString, ⟨1, 1⟩⟩ := hstring.tokensFrom_eq
  refine ⟨_, h, rfl, hopen, ?_⟩
  rw [tokenize_feed false h "⣿⡤", hopen]
  rfl

end BrailleScript
