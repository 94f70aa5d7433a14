import BrailleScript.Proofs.Token.Coverage
import Mathlib.Data.List.DropRight

/-!
# How a source is gone through

`Reads lenient here cs tokens there left` says that the lexer, at the cursor `here` in front of `cs`,
reads the tokens and comes to the cursor `there` in front of `left`.  It gets to the end of the
source, or to a place where a fault is found.  The cursor knows the text behind it: its bytes, the
line feeds in it, and the characters since the last of them.

## Key results

- `Reads.tokensFrom_eq`, `tokensFrom_outcome`: the tokens of a source in terms of `Reads`
- `Reads.cursor`, `Reads.tokens_standAt`: where the lexer is, and where the tokens are that it has read
- `foundAt_of_scan`: what stands at a fault
- `Cursor.advanceAll_start`: the line and the column of a place
-/

namespace BrailleScript

/-- The position of what stands behind the text: lines end with line feeds, and the column is that of
the last character. -/
theorem Cursor.advanceAll_start (cs : List Char) : Cursor.start.advanceAll cs =
    ⟨(String.ofList cs).utf8ByteSize, ⟨1 + cs.count '\n', (cs.rtakeWhile (· != '\n')).length⟩⟩ := by
  -- from behind, as the column counts from the last line feed
  induction cs using List.reverseRecOn with
  | nil => rfl
  | append_singleton cs c ih =>
    have hstep : Cursor.start.advanceAll (cs ++ [c]) = (Cursor.start.advanceAll cs).advance c :=
      List.foldl_concat ..
    rw [hstep, ih, Cursor.advance, Pos.advance, List.count_append, List.rtakeWhile_concat,
      String.ofList_append, String.utf8ByteSize_append, ← String.singleton_eq_ofList,
      String.utf8ByteSize_singleton]
    by_cases hc : c = '\n'
    · simp [hc, Nat.add_assoc]
    · simp [hc]

/-- What a fault says of the character it is found at and of those behind it. -/
inductive LexFault.FoundAt : LexFault → Char → List Char → Prop
  | unexpectedCharacter {c : Char} {rest : List Char} (hcell : Cell.isCell c = false) :
    FoundAt (.unexpectedCharacter c) c rest
  | invalidNumber {rest : List Char} (hnumber : Lexer.number? (rest.takeWhile Symbol.isWordCell) = none) :
    FoundAt (.invalidNumber (String.ofList (Symbol.numberSign :: rest.takeWhile Symbol.isWordCell)))
      Symbol.numberSign rest
  | unterminatedString {rest : List Char} (hopen : Symbol.stringMark ∉ rest) :
    FoundAt .unterminatedString Symbol.stringMark rest
  | danglingEscape {rest : List Char}
    (hword : (rest.dropWhile Text.isBlank).takeWhile Symbol.isWordCell = []) :
    FoundAt .danglingEscape Symbol.identifierEscape rest

namespace Lexer

variable {lenient : Bool} {here there : Cursor} {c : Char} {cs rest left : List Char}
  {tokens : List Token}

/-- From the cursor `here`, with `cs` in front of it, the lexer reads the tokens and comes to the
cursor `there`, with `left` in front of it. -/
inductive Reads (lenient : Bool) : Cursor → List Char → List Token → Cursor → List Char → Prop
  | done {here : Cursor} {cs : List Char} : Reads lenient here cs [] here cs
  | blank {here there : Cursor} {c : Char} {rest left : List Char} {tokens : List Token}
    (hc : Text.isBlank c = true) (hrest : Reads lenient (here.advance c) rest tokens there left) :
    Reads lenient here (c :: rest) tokens there left
  | token {here there : Cursor} {c : Char} {rest left : List Char} {tokens : List Token}
    {s : Scanned} (hc : Text.isBlank c = false) (hs : scan lenient c rest = .ok s)
    (hrest : Reads lenient (here.advanceAll s.raw) s.rest tokens there left) :
    Reads lenient here (c :: rest)
      (⟨s.kind, String.ofList s.raw, here.offset, here.pos.advance c⟩ :: tokens) there left

/-- A place in front of a character, at which the fault is found. -/
structure Fails (lenient : Bool) (c : Char) (rest : List Char) (fault : LexFault) : Prop where
  notBlank : Text.isBlank c = false
  scan_eq : scan lenient c rest = .error fault

/-! ## Tokens read -/

/-- A blank is passed. -/
theorem tokensFrom_blank (hc : Text.isBlank c = true) :
    tokensFrom lenient here (c :: rest) = tokensFrom lenient (here.advance c) rest := by
  rw [tokensFrom, if_pos hc]

/-- Anything else that is scanned is a token. -/
theorem tokensFrom_token {s : Scanned} (hc : Text.isBlank c = false)
    (hs : scan lenient c rest = .ok s) : tokensFrom lenient here (c :: rest) =
      (tokensFrom lenient (here.advanceAll s.raw) s.rest).map
        (⟨s.kind, String.ofList s.raw, here.offset, here.pos.advance c⟩ :: ·) := by
  rw [tokensFrom, if_neg (by simp [hc])]
  split
  · next hs' => cases hs.symm.trans hs'
  · next hs' =>
    cases hs.symm.trans hs'
    split <;> next ht => rw [ht]; rfl

/-- What fails to be scanned is the error, at its place. -/
theorem Fails.tokensFrom_eq {fault : LexFault} (h : Fails lenient c rest fault) :
    tokensFrom lenient here (c :: rest) = .error ⟨fault, here.pos.advance c⟩ := by
  rw [tokensFrom, if_neg (by simp [h.notBlank])]
  split
  · next hs' =>
    cases h.scan_eq.symm.trans hs'
    rfl
  · next hs' => cases h.scan_eq.symm.trans hs'

/-- What is read stands in front of the tokens of what is left. -/
theorem Reads.tokensFrom_eq (h : Reads lenient here cs tokens there left) :
    tokensFrom lenient here cs = (tokensFrom lenient there left).map (tokens ++ ·) := by
  induction h with
  | @done here cs => cases tokensFrom lenient here cs <;> rfl
  | blank hc hrest ih => rw [tokensFrom_blank hc, ih]
  | @token here there c rest left tokens s hc hs hrest ih =>
    rw [tokensFrom_token hc hs, ih]
    cases tokensFrom lenient there left <;> rfl

/-- The end of input is behind what is read up to the end. -/
theorem Reads.tokensFrom_eq_ok (h : Reads lenient here cs tokens there []) :
    tokensFrom lenient here cs = .ok (tokens ++ [endToken there]) := by
  rw [h.tokensFrom_eq, tokensFrom]
  rfl

/-- The lexer comes to the end of the source, or to a fault. -/
inductive Outcome (lenient : Bool) (here : Cursor) (cs : List Char) :
    Except LexError (List Token) → Prop
  | read {tokens : List Token} {there : Cursor} (h : Reads lenient here cs tokens there []) :
    Outcome lenient here cs (.ok (tokens ++ [endToken there]))
  | failed {tokens : List Token} {there : Cursor} {c : Char} {rest : List Char} {fault : LexFault}
    (h : Reads lenient here cs tokens there (c :: rest)) (hfails : Fails lenient c rest fault) :
    Outcome lenient here cs (.error ⟨fault, there.pos.advance c⟩)

/-- Each source is read to its end or to such a failure. -/
theorem tokensFrom_outcome (lenient : Bool) (here : Cursor) (cs : List Char) :
    Outcome lenient here cs (tokensFrom lenient here cs) := by
  -- a source is read on behind a token, and read to its end if the rest is
  fun_induction tokensFrom lenient here cs with
  | case1 here =>
    have hread : Reads lenient here [] [] here [] := .done
    exact .read hread
  | case2 here c rest hc ih =>
    generalize tokensFrom lenient (here.advance c) rest = outcome at ih ⊢
    cases ih with
    | read h => exact .read (.blank hc h)
    | failed h hfails => exact .failed (.blank hc h) hfails
  | case3 here c rest hc fault hs =>
    exact .failed .done ⟨Bool.eq_false_iff.2 hc, hs⟩
  | case4 here c rest hc s hs e he ih =>
    rw [he] at ih
    cases ih with
    | failed h hfails => exact .failed (.token (Bool.eq_false_iff.2 hc) hs h) hfails
  | case5 here c rest hc s hs ts hts ih =>
    rw [hts] at ih
    cases ih with
    | read h => exact .read (.token (Bool.eq_false_iff.2 hc) hs h)

/-- Tokens of a source are those read, with the end behind them. -/
theorem exists_reads_of_tokensFrom (h : tokensFrom lenient here cs = .ok tokens) :
    ∃ front there, Reads lenient here cs front there [] ∧ tokens = front ++ [endToken there] := by
  have houtcome := tokensFrom_outcome lenient here cs
  rw [h] at houtcome
  cases houtcome with
  | read hreads => exact ⟨_, _, hreads, rfl⟩

/-- An error is that of the first place that fails. -/
theorem exists_fails_of_tokensFrom {e : LexError} (h : tokensFrom lenient here cs = .error e) :
    ∃ front there c rest, Reads lenient here cs front there (c :: rest) ∧
      Fails lenient c rest e.fault ∧ e.pos = there.pos.advance c := by
  have houtcome := tokensFrom_outcome lenient here cs
  rw [h] at houtcome
  cases houtcome with
  | failed hreads hfails => exact ⟨_, _, _, _, hreads, hfails, rfl⟩

/-! ## Places -/

/-- A cursor advances over texts one after the other. -/
theorem advanceAll_append (here : Cursor) (cs cs' : List Char) :
    here.advanceAll (cs ++ cs') = (here.advanceAll cs).advanceAll cs' :=
  List.foldl_append

/-- The cursor has gone over what is no longer left. -/
theorem Reads.cursor (h : Reads lenient here cs tokens there left) :
    ∃ passed, cs = passed ++ left ∧ there = here.advanceAll passed := by
  -- the cursor steps over a blank, and over all cells of a token
  induction h with
  | done => exact ⟨[], rfl, rfl⟩
  | @blank here there c rest left tokens hc hrest ih =>
    obtain ⟨passed, rfl, rfl⟩ := ih
    exact ⟨c :: passed, rfl, rfl⟩
  | @token here there c rest left tokens s hc hs hrest ih =>
    obtain ⟨passed, hpassed, rfl⟩ := ih
    refine ⟨s.raw ++ passed, ?_, (advanceAll_append here s.raw passed).symm⟩
    rw [List.append_assoc, ← hpassed, (scan_append hs).1]

/-- The token begins with the character `c`, which is no blank and has `passed` in front of it. -/
structure StandsAt (here : Cursor) (t : Token) (passed : List Char) (c : Char) : Prop where
  kind_ne : t.kind ≠ .endOfInput
  notBlank : Text.isBlank c = false
  offset_eq : t.offset = (here.advanceAll passed).offset
  pos_eq : t.pos = (here.advanceAll passed).pos.advance c

/-- Each token stands at a place of the source. -/
theorem Reads.tokens_standAt (h : Reads lenient here cs tokens there left) :
    ∀ t ∈ tokens, ∃ passed c after, cs = passed ++ c :: after ∧ StandsAt here t passed c := by
  -- what is passed in front of a token grows by what is read
  induction h with
  | done => exact fun t ht => absurd ht List.not_mem_nil
  | @blank here there c rest left tokens hc hrest ih =>
    intro t ht
    obtain ⟨passed, d, after, rfl, hstands⟩ := ih t ht
    exact ⟨c :: passed, d, after, rfl, hstands.kind_ne, hstands.notBlank, hstands.offset_eq,
      hstands.pos_eq⟩
  | @token here there c rest left tokens s hc hs hrest ih =>
    refine List.forall_mem_cons.2 ⟨⟨[], c, rest, rfl, scan_kind_ne hs, hc, rfl, rfl⟩, fun t ht => ?_⟩
    obtain ⟨passed, d, after, hafter, hstands⟩ := ih t ht
    refine ⟨s.raw ++ passed, d, after, ?_, hstands.kind_ne, hstands.notBlank, ?_, ?_⟩
    · rw [List.append_assoc, ← hafter, (scan_append hs).1]
    · rw [advanceAll_append, hstands.offset_eq]
    · rw [advanceAll_append, hstands.pos_eq]

/-! ## Faults -/

/-- The fault of a word is found in it. -/
theorem foundAt_of_scanWord {fault : LexFault} (hword : Symbol.isWordCell c = true)
    (h : scanWord (c :: rest) = .error fault) : fault.FoundAt c rest := by
  unfold scanWord at h
  dsimp only at h
  rw [List.takeWhile_cons_of_pos hword] at h
  split at h
  · cases h
  · next fault' hkind =>
    cases h
    unfold wordKind at hkind
    dsimp only at hkind
    split at hkind
    · next hsign =>
      subst hsign
      -- digits that are no number are the only fault of a word
      split at hkind
      · cases hkind
      · next hnumber =>
        cases hkind
        exact .invalidNumber hnumber
    · repeat' split at hkind
      all_goals cases hkind

/-- A fault is found at the character that it is about. -/
theorem foundAt_of_scan {fault : LexFault} (h : scan lenient c rest = .error fault) :
    fault.FoundAt c rest := by
  -- each fault comes from one kind of scan
  cases scan_eq_iff.1 h with
  | string hc hs =>
    subst hc
    unfold scanString at hs
    dsimp only at hs
    split at hs
    · exact nomatch hs
    · next hdrop =>
      split at hs
      · exact nomatch hs
      · cases hs
        refine .unterminatedString fun hmem => ?_
        simpa using List.dropWhile_eq_nil_iff.1 hdrop _ hmem
  | escaped hc hs =>
    subst hc
    unfold scanEscaped at hs
    dsimp only at hs
    split at hs
    · next hword =>
      cases hs
      exact .danglingEscape (List.isEmpty_iff.1 hword)
    · exact nomatch hs
  | word hc hs => exact foundAt_of_scanWord hc hs
  | foreign hc => exact .unexpectedCharacter hc

end Lexer

end BrailleScript
