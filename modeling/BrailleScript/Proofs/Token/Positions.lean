import BrailleScript.Proofs.Diagnostic
import BrailleScript.Proofs.Token.Reading

/-!
# Positions in a source

Tokens and faults stand where their positions say: the line is one more than the line feeds in front
of them, and the column one more than the characters since the last of these.  The line that an
excerpt shows for such a position is the line of the token or the fault, and its character is in the
column of the position.  The mark under it is not in that column but in the next one.

## Key results

- `PointsAt`, `pointsAt_of_cursor`: what a position says of a source
- `positions_true`: the positions of all tokens, and of the fault if there is one
- `mark_beside_character`: a mark that does not stand under its character
-/

namespace BrailleScript

/-- The position is that of the character `c`, which stands at the byte `offset` of the source, and
excerpts for it show the line of `c` with `c` in the column of the position, and their mark next to
that column. -/
structure PointsAt (source : String) (offset : Nat) (pos : Pos) (before : String) (c : Char)
    (after : String) : Prop where
  source_eq : source = before ++ String.singleton c ++ after
  offset_eq : offset = before.utf8ByteSize
  line_eq : pos.line = 1 + before.toList.count '\n'
  col_eq : pos.col = 1 + (before.toList.rtakeWhile (· != '\n')).length
  shown : (Diagnostic.lineAt source pos.line).toList[pos.col - 1]? = some c
  marked : ∀ file title, Diagnostic.MarksColumn 1 (Diagnostic.excerpt file source title pos 1)
    (Diagnostic.lineAt source pos.line) pos.col

/-- The lexer stops with the error at the byte `offset` of the source: it has read all that is in
front, and what is there gives the fault. -/
def Lexer.RaisedAt (lenient : Bool) (source : String) (e : LexError) (offset : Nat) : Prop :=
  ∃ tokens there c rest, Reads lenient Cursor.start source.toList tokens there (c :: rest) ∧
    Fails lenient c rest e.fault ∧ there.offset = offset

namespace Lexer

/-- A character that is no blank differs from all blanks. -/
theorem ne_of_not_isBlank {c d : Char} (hc : Text.isBlank c = false) (hd : Text.isBlank d = true) :
    c ≠ d := by
  rintro rfl
  exact nomatch hc.symm.trans hd

/-- The cursor in front of a character that is no blank gives the position of that character. -/
theorem pointsAt_of_cursor {source : String} {passed after : List Char} {c : Char}
    (hsource : source.toList = passed ++ c :: after) (hc : Text.isBlank c = false) :
    PointsAt source (Cursor.start.advanceAll passed).offset
      ((Cursor.start.advanceAll passed).pos.advance c) (String.ofList passed) c (String.ofList after) := by
  have hfeed : c ≠ '\n' := ne_of_not_isBlank hc (by decide)
  have hreturn : c ≠ '\r' := ne_of_not_isBlank hc (by decide)
  -- the position is where the cursor comes by stepping over the character
  have hpos : (Cursor.start.advanceAll passed).pos.advance c =
      ⟨1 + passed.count '\n', (passed.rtakeWhile (· != '\n')).length + 1⟩ := by
    rw [Cursor.advanceAll_start, Pos.advance, if_neg hfeed]
  rw [hpos]
  refine ⟨?_, ?_, ?_, ?_, ?_, fun file title => ?_⟩
  · rw [← String.toList_inj, hsource]
    simp
  · rw [Cursor.advanceAll_start]
  · rw [String.toList_ofList]
  · rw [String.toList_ofList]
    exact Nat.add_comm _ 1
  · exact Diagnostic.lineAt_getElem? hsource hfeed hreturn
  · exact Diagnostic.excerpt_marksColumn file source title _ (Nat.succ_pos _)

end Lexer

/-- The positions of a source are true.  Every token but the end of input begins at its position, and
so does what an error is about, which stands where the lexer has stopped. -/
theorem positions_true (lenient : Bool) (source : String) :
    match tokenize lenient source with
    | .ok tokens => ∀ t ∈ tokens, t.kind ≠ .endOfInput →
      ∃ before c after, PointsAt source t.offset t.pos before c after
    | .error e => (∃ offset, Lexer.RaisedAt lenient source e offset) ∧
      ∀ offset, Lexer.RaisedAt lenient source e offset →
        ∃ before c after, PointsAt source offset e.pos before c after ∧
          e.fault.FoundAt c after.toList := by
  cases h : tokenize lenient source with
  | ok tokens =>
    obtain ⟨front, there, hreads, rfl⟩ := Lexer.exists_reads_of_tokensFrom h
    intro t ht hkind
    rcases List.mem_append.1 ht with ht | ht
    · obtain ⟨passed, c, after, hsource, hstands⟩ := hreads.tokens_standAt t ht
      rw [hstands.offset_eq, hstands.pos_eq]
      exact ⟨_, _, _, Lexer.pointsAt_of_cursor hsource hstands.notBlank⟩
    · obtain rfl := List.mem_singleton.1 ht
      exact absurd rfl hkind
  | error e =>
    obtain ⟨front, there, c, rest, hreads, hfails, hpos⟩ := Lexer.exists_fails_of_tokensFrom h
    refine ⟨⟨_, front, there, c, rest, hreads, hfails, rfl⟩, ?_⟩
    rintro _ ⟨front', there', c', rest', hreads', hfails', rfl⟩
    -- both readings give the error of the source
    have herror := hreads'.tokensFrom_eq.symm.trans h
    rw [hfails'.tokensFrom_eq] at herror
    have hpos' : e.pos = there'.pos.advance c' :=
      (congrArg LexError.pos (Except.error.inj herror)).symm
    obtain ⟨passed, hsource, rfl⟩ := hreads'.cursor
    refine ⟨_, c', _, hpos' ▸ Lexer.pointsAt_of_cursor hsource hfails'.notBlank, ?_⟩
    rw [String.toList_ofList]
    exact Lexer.foundAt_of_scan hfails'.scan_eq

/-- A letter is no cell.  The error points at it, but the mark of the excerpt does not stand under
it. -/
theorem mark_beside_character :
    ∃ e, tokenize false "a" = .error e ∧ Lexer.RaisedAt false "a" e 0 ∧
      e.pos = ⟨1, 1⟩ ∧ Diagnostic.lineAt "a" 1 = "a" ∧
      Diagnostic.excerpt "f.cell" "a" (Error.lexing e).title e.pos 1 =
        "error: lex error: Unexpected character 'a' at 1:1\n--> f.cell:1:1\n      |\n   1 | a\n      | ^" ∧
      ¬ Diagnostic.MarksColumn 0 (Diagnostic.excerpt "f.cell" "a" (Error.lexing e).title e.pos 1)
        "a" 1 := by
  have hfails : Lexer.Fails false 'a' [] (.unexpectedCharacter 'a') := ⟨by decide, by rfl⟩
  have hline : Diagnostic.lineAt "a" 1 = "a" := by rfl
  refine ⟨⟨.unexpectedCharacter 'a', ⟨1, 1⟩⟩, hfails.tokensFrom_eq, ?_, rfl, hline, ?_, fun h => ?_⟩
  · exact ⟨[], Cursor.start, 'a', [], .done, hfails, rfl⟩
  · rfl
  · -- the line of the mark has a blank more than the excerpt
    have hmark := Diagnostic.excerpt_marksColumn "f.cell" "a"
      (Error.lexing ⟨.unexpectedCharacter 'a', ⟨1, 1⟩⟩).title ⟨1, 1⟩ Nat.one_pos
    rw [hline] at hmark
    exact nomatch h.unique hmark

end BrailleScript
