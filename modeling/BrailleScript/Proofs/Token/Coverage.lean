import BrailleScript.Token.Lexer

/-!
# No character of a source is lost

`Covers n s tokens` says that the tokens stand one behind the other in `s`, whose first character is
at byte `n`, with nothing but blanks between them, and that the end of input closes them.  The
tokens of a source cover it, and so the source can be put together again from them.

## Key results

- `scan_kind_ne`, `tokensFrom_covers`: the tokens of a source cover it
- `Covers.standsIn`, `Covers.increasing`, `Covers.covered`, `Covers.gaps`: what that says of single
  tokens, of two tokens, of single characters, and of the whole source
- `no_character_lost`: all of it for a tokenized source
-/

namespace BrailleScript

namespace Token

/-- The bytes of the source up to the end of the token. -/
def stop (t : Token) : Nat :=
  t.offset + t.raw.utf8ByteSize

/-- The cells of the token stand in the source at its offset. -/
def StandsIn (source : String) (t : Token) : Prop :=
  ∃ before after, source = before ++ t.raw ++ after ∧ before.utf8ByteSize = t.offset

/-- The cells of the tokens, each behind its gap. -/
def interleave : List String → List Token → String
  | gap :: gaps, t :: ts => gap ++ t.raw ++ interleave gaps ts
  | _, _ => ""

end Token

namespace Lexer

/-- The tokens stand in the text one behind the other, with blanks between them, and the end of
input behind the last character; `n` bytes are in front of the text. -/
inductive Covers : Nat → String → List Token → Prop
  | done {t : Token} (hkind : t.kind = .endOfInput) (hraw : t.raw = "") : Covers t.offset "" [t]
  | blank {n : Nat} {c : Char} {rest : String} {ts : List Token} (hc : Text.isBlank c = true)
      (hrest : Covers (n + c.utf8Size) rest ts) : Covers n (String.singleton c ++ rest) ts
  | token {t : Token} {rest : String} {ts : List Token} (hkind : t.kind ≠ .endOfInput)
      (hraw : t.raw ≠ "") (hrest : Covers t.stop rest ts) : Covers t.offset (t.raw ++ rest) (t :: ts)

/-! ## Scanning -/

/-- What is scanned behind a comment's mark is a comment. -/
theorem kind_scanComment (rest : List Char) : ∃ t, (scanComment rest).kind = .comment t := by
  unfold scanComment
  dsimp only
  repeat' split
  all_goals exact ⟨_, rfl⟩

/-- What is scanned behind a string's mark is the text up to the next one. -/
theorem kind_scanString {lenient : Bool} {rest : List Char} {s : Scanned}
    (h : scanString lenient rest = .ok s) :
    s.kind = .text (String.ofList (Cell.decodeChars (rest.takeWhile (· != Symbol.stringMark)))) := by
  unfold scanString at h
  dsimp only at h
  split at h
  · cases h
    rfl
  · split at h
    · cases h
      rfl
    · exact nomatch h

/-- What is scanned behind an escape is a name, up to where the word ends. -/
theorem scanEscaped_eq_ok {rest : List Char} {s : Scanned} (h : scanEscaped rest = .ok s) :
    (∃ name, s.kind = .identifier name) ∧
      s.rest = (rest.dropWhile Text.isBlank).dropWhile Symbol.isWordCell := by
  unfold scanEscaped at h
  dsimp only at h
  split at h
  · exact nomatch h
  · cases h
    exact ⟨⟨_, rfl⟩, rfl⟩

/-- A word is scanned up to where its cells end. -/
theorem scanWord_eq_ok {cs : List Char} {s : Scanned} (h : scanWord cs = .ok s) :
    wordKind (cs.takeWhile Symbol.isWordCell) = .ok s.kind ∧
      s.rest = cs.dropWhile Symbol.isWordCell := by
  unfold scanWord at h
  dsimp only at h
  split at h
  next hkind =>
    cases h
    exact ⟨hkind, rfl⟩
  next => exact nomatch h

/-- A word is no end of input and no string. -/
theorem wordKind_ne {cells : List Char} {kind : TokenKind} (h : wordKind cells = .ok kind) :
    kind ≠ .endOfInput ∧ ∀ t, kind ≠ .text t := by
  refine ⟨?_, fun t => ?_⟩
  all_goals
    rintro rfl
    unfold wordKind at h
    repeat' split at h
    all_goals cases h

/-- The end of input is never scanned. -/
theorem scan_kind_ne {lenient : Bool} {c : Char} {rest : List Char} {s : Scanned}
    (h : scan lenient c rest = .ok s) : s.kind ≠ .endOfInput := by
  -- each kind of scan makes tokens of its own kinds
  cases scan_eq_iff.1 h with
  | comment hc =>
    obtain ⟨t, hkind⟩ := kind_scanComment rest
    rw [hkind]
    nofun
  | string hc hs =>
    rw [kind_scanString hs]
    nofun
  | escaped hc hs =>
    obtain ⟨⟨name, hkind⟩, -⟩ := scanEscaped_eq_ok hs
    rw [hkind]
    nofun
  | word hc hs => exact (wordKind_ne (scanWord_eq_ok hs).1).1

/-- Only a string is scanned as a text. -/
theorem scan_text {lenient : Bool} {c : Char} {rest : List Char} {s : Scanned} {t : String}
    (h : scan lenient c rest = .ok s) (ht : s.kind = .text t) :
    c = Symbol.stringMark ∧ scanString lenient rest = .ok s := by
  -- the other scans make tokens of other kinds
  cases scan_eq_iff.1 h with
  | comment hc =>
    obtain ⟨t', hkind⟩ := kind_scanComment rest
    exact nomatch hkind.symm.trans ht
  | string hc hs => exact ⟨hc, hs⟩
  | escaped hc hs =>
    obtain ⟨⟨name, hkind⟩, -⟩ := scanEscaped_eq_ok hs
    exact nomatch hkind.symm.trans ht
  | word hc hs => exact absurd ht ((wordKind_ne (scanWord_eq_ok hs).1).2 t)

/-- The offset counts the bytes that were passed. -/
theorem offset_advanceAll (here : Cursor) (cs : List Char) :
    (here.advanceAll cs).offset = here.offset + (String.ofList cs).utf8ByteSize := by
  unfold Cursor.advanceAll
  induction cs generalizing here with
  | nil => rfl
  | cons c cs ih =>
    rw [List.foldl_cons, ih, String.ofList_cons, String.utf8ByteSize_append,
      String.utf8ByteSize_singleton, ← Nat.add_assoc]
    rfl

/-- Tokens from a place on cover the rest of the source. -/
theorem tokensFrom_covers {lenient : Bool} {here : Cursor} {cs : List Char} {tokens : List Token}
    (h : tokensFrom lenient here cs = .ok tokens) :
    Covers here.offset (String.ofList cs) tokens := by
  -- the places add up, byte by byte
  fun_induction tokensFrom lenient here cs generalizing tokens with
  | case1 here =>
    cases h
    exact .done (t := endToken here) rfl rfl
  | case2 here c rest hc ih =>
    rw [String.ofList_cons]
    exact .blank hc (ih h)
  | case3 => exact nomatch h
  | case4 => exact nomatch h
  | case5 here c rest _ s hs ts hts ih =>
    cases h
    obtain ⟨happend, hne⟩ := scan_append hs
    rw [← happend, String.ofList_append]
    refine .token (t := ⟨s.kind, String.ofList s.raw, here.offset, here.pos.advance c⟩)
      (scan_kind_ne hs) (by rwa [Ne, String.ofList_eq_empty_iff]) ?_
    have hrest := ih hts
    rwa [offset_advanceAll] at hrest

/-! ## What is covered -/

/-- A character of a text in two parts stands in the first or in the second. -/
theorem split_at_character {a b before after : String} {c : Char}
    (h : a ++ b = before ++ String.singleton c ++ after) :
    (∃ mid, a = before ++ String.singleton c ++ mid) ∨
      ∃ mid, b = mid ++ String.singleton c ++ after ∧ before = a ++ mid := by
  have hchars : a.toList ++ b.toList = before.toList ++ c :: after.toList := by
    simpa using congrArg String.toList h
  rcases List.append_eq_append_iff.1 hchars with ⟨mid, hbefore, hb⟩ | ⟨mid, ha, hafter⟩
  · refine .inr ⟨String.ofList mid, ?_, ?_⟩
    · rw [← String.toList_inj, hb]
      simp
    · rw [← String.toList_inj, hbefore]
      simp
  · cases mid with
    | nil =>
      -- the second part begins with the character
      refine .inr ⟨"", ?_, ?_⟩
      · rw [← String.toList_inj]
        simpa using hafter.symm
      · rw [← String.toList_inj]
        simpa using ha.symm
    | cons c' mid =>
      obtain ⟨rfl, -⟩ := List.cons.inj hafter
      refine .inl ⟨String.ofList mid, ?_⟩
      rw [← String.toList_inj, ha]
      simp

namespace Covers

variable {n : Nat} {s : String} {ts : List Token}

/-- The end of input stands last and nowhere else. -/
theorem ends (h : Covers n s ts) :
    ∃ front last, ts = front ++ [last] ∧
      (last.kind = .endOfInput ∧ last.offset = n + s.utf8ByteSize) ∧
      ∀ t ∈ front, t.kind ≠ .endOfInput ∧ t.raw ≠ "" := by
  -- what stands behind is pushed further by what is in front
  induction h with
  | done hkind hraw => exact ⟨[], _, rfl, ⟨hkind, rfl⟩, nofun⟩
  | blank hc hrest ih =>
    obtain ⟨front, last, rfl, ⟨hkind, hoffset⟩, hfront⟩ := ih
    refine ⟨front, last, rfl, ⟨hkind, ?_⟩, hfront⟩
    rw [hoffset, String.utf8ByteSize_append, String.utf8ByteSize_singleton, Nat.add_assoc]
  | @token t rest ts hkind hraw hrest ih =>
    obtain ⟨front, last, rfl, ⟨hlast, hoffset⟩, hfront⟩ := ih
    refine ⟨t :: front, last, rfl, ⟨hlast, ?_⟩, List.forall_mem_cons.2 ⟨⟨hkind, hraw⟩, hfront⟩⟩
    rw [hoffset, Token.stop, String.utf8ByteSize_append, Nat.add_assoc]

/-- Each token stands at its offset. -/
theorem standsIn (h : Covers n s ts) :
    ∀ t ∈ ts, ∃ before after, s = before ++ t.raw ++ after ∧
      n + before.utf8ByteSize = t.offset := by
  -- what is in front of a part is in front of the tokens behind it
  induction h with
  | done hkind hraw =>
    refine List.forall_mem_singleton.2 ⟨"", "", ?_, rfl⟩
    rw [hraw]
    rfl
  | @blank n c rest ts hc hrest ih =>
    intro t ht
    obtain ⟨before, after, rfl, hoffset⟩ := ih t ht
    refine ⟨String.singleton c ++ before, after, by simp only [String.append_assoc], ?_⟩
    rw [String.utf8ByteSize_append, String.utf8ByteSize_singleton, ← Nat.add_assoc, hoffset]
  | @token t rest ts hkind hraw hrest ih =>
    refine List.forall_mem_cons.2 ⟨⟨"", rest, by rw [String.empty_append], rfl⟩, fun u hu => ?_⟩
    obtain ⟨before, after, rfl, hoffset⟩ := ih u hu
    refine ⟨t.raw ++ before, after, by simp only [String.append_assoc], ?_⟩
    rw [String.utf8ByteSize_append, ← Nat.add_assoc, ← hoffset, Token.stop]

/-- Each token begins behind the one before it, and the first behind what was in front. -/
theorem increasing (h : Covers n s ts) :
    (∀ t ∈ ts, n ≤ t.offset) ∧ ts.Pairwise fun t u => t.stop ≤ u.offset := by
  induction h with
  | done hkind hraw =>
    exact ⟨List.forall_mem_singleton.2 (Nat.le_refl _), List.pairwise_singleton _ _⟩
  | blank hc hrest ih =>
    exact ⟨fun t ht => Nat.le_trans (Nat.le_add_right _ _) (ih.1 t ht), ih.2⟩
  | @token t rest ts hkind hraw hrest ih =>
    -- the next token begins where this one ends, at the earliest
    refine ⟨List.forall_mem_cons.2 ⟨Nat.le_refl _, fun u hu => ?_⟩, List.pairwise_cons.2 ih⟩
    exact Nat.le_trans (Nat.le_add_right _ _) (ih.1 u hu)

/-- A character belongs to a token or is blank. -/
theorem covered (h : Covers n s ts) {before after : String} {c : Char}
    (hs : s = before ++ String.singleton c ++ after) :
    Text.isBlank c = true ∨
      ∃ t ∈ ts, t.offset ≤ n + before.utf8ByteSize ∧ n + before.utf8ByteSize < t.stop := by
  induction h generalizing before with
  | done hkind hraw =>
    have hlength := congrArg (·.toList.length) hs
    simp at hlength
  | @blank n c' rest ts hc hrest ih =>
    rcases split_at_character hs with ⟨mid, hmid⟩ | ⟨mid, hmid, rfl⟩
    · -- the character is the blank
      have hchars : [c'] = before.toList ++ c :: mid.toList := by
        simpa using congrArg String.toList hmid
      have hmem : c ∈ [c'] := by
        rw [hchars]
        exact List.mem_append_right _ (.head _)
      obtain rfl := List.mem_singleton.1 hmem
      exact .inl hc
    · rcases ih hmid with hblank | ⟨t, ht, hle, hlt⟩
      · exact .inl hblank
      · rw [String.utf8ByteSize_append, String.utf8ByteSize_singleton, ← Nat.add_assoc]
        exact .inr ⟨t, ht, hle, hlt⟩
  | @token t rest ts hkind hraw hrest ih =>
    rcases split_at_character hs with ⟨mid, hmid⟩ | ⟨mid, hmid, rfl⟩
    · refine .inr ⟨t, .head _, Nat.le_add_right _ _, ?_⟩
      have hpos := c.utf8Size_pos
      rw [Token.stop, hmid]
      simp only [String.utf8ByteSize_append, String.utf8ByteSize_singleton]
      omega
    · rcases ih hmid with hblank | ⟨u, hu, hle, hlt⟩
      · exact .inl hblank
      · rw [String.utf8ByteSize_append, ← Nat.add_assoc]
        exact .inr ⟨u, .tail _ hu, hle, hlt⟩

/-- Blanks between the cells of the tokens give back the text. -/
theorem gaps (h : Covers n s ts) :
    ∃ gaps : List String, gaps.length = ts.length ∧
      (∀ gap ∈ gaps, ∀ c ∈ gap.toList, Text.isBlank c = true) ∧
      s = Token.interleave gaps ts := by
  induction h with
  | @done t hkind hraw =>
    exact ⟨[""], rfl, by simp, by simp [Token.interleave, hraw]⟩
  | @blank n c rest ts hc hrest ih =>
    obtain ⟨gaps, hlength, hblank, rfl⟩ := ih
    -- the blank belongs to the gap in front of the next token, and there is one
    obtain ⟨gap, gaps, rfl⟩ : ∃ gap more, gaps = gap :: more := by
      obtain ⟨front, last, rfl, -⟩ := hrest.ends
      exact List.exists_cons_of_ne_nil (List.ne_nil_of_length_pos (by simp [hlength]))
    obtain ⟨t, ts, rfl⟩ := List.exists_cons_of_length_eq_add_one hlength.symm
    obtain ⟨hgap, hgaps⟩ := List.forall_mem_cons.1 hblank
    refine ⟨(String.singleton c ++ gap) :: gaps, hlength, List.forall_mem_cons.2 ⟨?_, hgaps⟩, ?_⟩
    · rw [String.toList_append, String.toList_singleton]
      exact List.forall_mem_cons.2 ⟨hc, hgap⟩
    · simp only [Token.interleave, String.append_assoc]
  | @token t rest ts hkind hraw hrest ih =>
    obtain ⟨gaps, hlength, hblank, rfl⟩ := ih
    exact ⟨"" :: gaps, congrArg (· + 1) hlength,
      List.forall_mem_cons.2 ⟨by simp, hblank⟩, by simp [Token.interleave]⟩

end Covers

end Lexer

/-! ## Whole sources -/

/-- The tokens of a source end with the end of input, which stands nowhere else and has all bytes
of the source in front of it.  The cells of every token stand at its offset, those of different
tokens apart and in their order, and those of no other token are empty.  What belongs to no token is
blank, so with blanks between them the tokens give the source back. -/
theorem no_character_lost {lenient : Bool} {source : String} {tokens : List Token}
    (h : tokenize lenient source = .ok tokens) :
    (∃ front last, tokens = front ++ [last] ∧
      (last.kind = .endOfInput ∧ last.offset = source.utf8ByteSize) ∧
      ∀ t ∈ front, t.kind ≠ .endOfInput ∧ t.raw ≠ "") ∧
    (∀ t ∈ tokens, t.StandsIn source) ∧
    tokens.Pairwise (fun t u => t.stop ≤ u.offset) ∧
    (∀ before c after, source = before ++ String.singleton c ++ after → Text.isBlank c = true ∨
      ∃ t ∈ tokens, t.offset ≤ before.utf8ByteSize ∧ before.utf8ByteSize < t.stop) ∧
    ∃ gaps : List String, gaps.length = tokens.length ∧
      (∀ gap ∈ gaps, ∀ c ∈ gap.toList, Text.isBlank c = true) ∧
      source = Token.interleave gaps tokens := by
  -- all five parts are read off from the cover of the source
  have hcovers := Lexer.tokensFrom_covers h
  rw [String.ofList_toList, show Cursor.start.offset = 0 from rfl] at hcovers
  refine ⟨?_, fun t ht => ?_, hcovers.increasing.2, fun before c after hs => ?_, hcovers.gaps⟩
  · obtain ⟨front, last, hsplit, ⟨hkind, hoffset⟩, hfront⟩ := hcovers.ends
    exact ⟨front, last, hsplit, ⟨hkind, by rw [hoffset, Nat.zero_add]⟩, hfront⟩
  · obtain ⟨before, after, hs, hoffset⟩ := hcovers.standsIn t ht
    exact ⟨before, after, hs, by rw [← hoffset, Nat.zero_add]⟩
  · have hcovered := hcovers.covered hs
    rwa [Nat.zero_add] at hcovered

/-- A string that is left open, with a blank in front of it: the lenient scan takes all of it. -/
theorem no_character_lost_open : ∃ tokens, tokenize true " ⣿⡣ " = .ok tokens ∧
    (∀ t ∈ tokens, t.StandsIn " ⣿⡣ ") ∧ tokens.map (·.raw) = ["⣿⡣ ", ""] := by
  -- the open string is scanned to the end of the source
  have hscan : Lexer.scan true '⣿' ['⡣', ' '] =
    .ok ⟨.text (String.ofList (Cell.decodeChars ['⡣', ' '])), ['⣿', '⡣', ' '], []⟩ := by rfl
  have hblank : tokenize true " ⣿⡣ " =
      Lexer.tokensFrom true (Cursor.start.advance ' ') ['⣿', '⡣', ' '] := by
    rw [tokenize, show " ⣿⡣ ".toList = [' ', '⣿', '⡣', ' '] from rfl, Lexer.tokensFrom]
    exact if_pos rfl
  have h : tokenize true " ⣿⡣ " =
      .ok [⟨.text (String.ofList (Cell.decodeChars ['⡣', ' '])), "⣿⡣ ", 1, ⟨1, 2⟩⟩,
        ⟨.endOfInput, "", 8, ⟨1, 4⟩⟩] := by
    rw [hblank, Lexer.tokensFrom, if_neg (by decide)]
    split
    · next heq => cases hscan.symm.trans heq
    · next heq =>
      cases hscan.symm.trans heq
      rw [Lexer.tokensFrom]
      rfl
  exact ⟨_, h, (no_character_lost h).2.1, rfl⟩

end BrailleScript
