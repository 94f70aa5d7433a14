import BrailleScript.Proofs.Token.Reading

/-!
# Strings that are left open

The lenient lexer does what the strict one does up to the first fault.  A fault that is no open string
is a fault for both.  An open string has no mark in what is left of the source, so the lenient lexer
takes all of that and comes to the end of input.

## Key results

- `scan_true`: one scan of the lenient lexer in terms of one of the strict lexer
- `Reads.lenient`: what the strict lexer reads, the lenient lexer reads
- `lenient_only_at_open_string`: the tokens and the errors of whole sources
-/

namespace BrailleScript

/-- The token is a string that is left open: it stands in the source from its offset on, up to the
end, and has no mark but the first. -/
structure Token.IsOpenString (source : String) (t : Token) (content : String) : Prop where
  noMark : Symbol.stringMark ∉ content.toList
  raw_eq : t.raw = String.singleton Symbol.stringMark ++ content
  kind_eq : t.kind = .text (Cell.decodeText content)
  standsLast : ∃ before, source = before ++ t.raw ∧ t.offset = before.utf8ByteSize

namespace Lexer

/-- A string that is left open, with all that is behind its mark. -/
def openString (rest : List Char) : Scanned :=
  { kind := .text (String.ofList (Cell.decodeChars rest)), raw := Symbol.stringMark :: rest, rest := [] }

/-- A string that nothing closes is an error, unless it may be open. -/
theorem scanString_open {rest : List Char} (h : Symbol.stringMark ∉ rest) (lenient : Bool) :
    scanString lenient rest =
      if lenient then .ok (openString rest) else .error .unterminatedString := by
  have hall : ∀ c ∈ rest, (c != Symbol.stringMark) = true := fun c hc =>
    bne_iff_ne.2 fun heq => h (heq ▸ hc)
  have htake : rest.takeWhile (· != Symbol.stringMark) = rest := List.takeWhile_eq_self_iff.2 hall
  have hdrop : rest.dropWhile (· != Symbol.stringMark) = [] := List.dropWhile_eq_nil_iff.2 hall
  simp only [scanString, htake, hdrop, openString]

/-- With a mark in the text behind it, a string is not left open. -/
theorem scanString_closed {rest : List Char} (h : Symbol.stringMark ∈ rest) :
    ∃ s, ∀ lenient, scanString lenient rest = .ok s := by
  unfold scanString
  split
  · exact ⟨_, fun _ => rfl⟩
  · next hdrop => simpa using List.dropWhile_eq_nil_iff.1 hdrop _ h

/-- An open string is all that the lenient lexer takes otherwise. -/
theorem scan_true_of_ne {c : Char} {rest : List Char}
    (h : scan false c rest ≠ .error .unterminatedString) : scan true c rest = scan false c rest := by
  refine scan_eq_iff.2 ?_
  generalize hr : scan false c rest = r at h ⊢
  cases scan_eq_iff.1 hr with
  | comment hc => exact .comment hc
  | string hc hr =>
    subst hr
    -- a string that is closed reads alike, and an open one is excluded
    by_cases hmark : Symbol.stringMark ∈ rest
    · obtain ⟨s, hs⟩ := scanString_closed hmark
      exact .string hc ((hs true).trans (hs false).symm)
    · exact absurd (scanString_open hmark false) h
  | escaped hc hr => exact .escaped hc hr
  | word hc hr => exact .word hc hr
  | foreign hc => exact .foreign hc

/-- Where it may be, the same place is scanned as an open string. -/
theorem scan_true_of_open {c : Char} {rest : List Char}
    (h : scan false c rest = .error .unterminatedString) :
    c = Symbol.stringMark ∧ Symbol.stringMark ∉ rest ∧ scan true c rest = .ok (openString rest) := by
  cases foundAt_of_scan h with
  | unterminatedString hopen =>
    exact ⟨rfl, hopen, scan_eq_iff.2 (.string rfl (scanString_open hopen true))⟩

/-- What is read strictly is read so leniently. -/
theorem Reads.lenient {here there : Cursor} {cs left : List Char} {tokens : List Token}
    (h : Reads false here cs tokens there left) : Reads true here cs tokens there left := by
  induction h with
  | done => exact .done
  | blank hc hrest ih => exact .blank hc ih
  | token hc hs hrest ih =>
    refine .token hc ?_ ih
    rw [scan_true_of_ne (by rw [hs]; nofun), hs]

/-- The open string stands at the end of the source. -/
theorem isOpenString_of_cursor {source : String} {passed rest : List Char}
    (hsource : source.toList = passed ++ Symbol.stringMark :: rest) (hopen : Symbol.stringMark ∉ rest)
    (pos : Pos) : Token.IsOpenString source
      ⟨(openString rest).kind, String.ofList (openString rest).raw,
        (Cursor.start.advanceAll passed).offset, pos⟩ (String.ofList rest) := by
  refine ⟨by rwa [String.toList_ofList], ?_, ?_, String.ofList passed, ?_, ?_⟩
  · -- the mark and what stands behind it
    rw [openString, ← String.toList_inj]
    simp
  · rw [openString, Cell.decodeText, String.toList_ofList]
  · rw [← String.toList_inj, hsource]
    simp [openString]
  · rw [Cursor.advanceAll_start]

end Lexer

/-- The lenient lexer gives the tokens and the errors of the strict lexer, unless that fails at a
string that is left open.  Then it takes this string, which runs to the end of the source, as its last
token but the end of input. -/
theorem lenient_only_at_open_string (source : String) :
    match tokenize false source with
    | .ok tokens => tokenize true source = .ok tokens
    | .error e =>
      if e.fault = .unterminatedString then
        ∃ front t last content, tokenize true source = .ok (front ++ [t, last]) ∧
          t.IsOpenString source content ∧ t.pos = e.pos ∧ last.kind = .endOfInput
      else tokenize true source = .error e := by
  cases h : tokenize false source with
  | ok tokens =>
    obtain ⟨front, there, hreads, rfl⟩ := Lexer.exists_reads_of_tokensFrom h
    exact hreads.lenient.tokensFrom_eq_ok
  | error e =>
    obtain ⟨front, there, c, rest, hreads, hfails, hpos⟩ := Lexer.exists_fails_of_tokensFrom h
    have hlenient : tokenize true source = _ := hreads.lenient.tokensFrom_eq
    -- up to the fault the strict tokens are the lenient ones, so only the scan at it is left
    by_cases hfault : e.fault = .unterminatedString
    · obtain ⟨rfl, hopen, hscan⟩ := Lexer.scan_true_of_open (hfault ▸ hfails.scan_eq)
      obtain ⟨passed, hsource, rfl⟩ := hreads.cursor
      rw [Lexer.tokensFrom_token hfails.notBlank hscan, Lexer.openString, Lexer.tokensFrom]
        at hlenient
      dsimp only
      rw [if_pos hfault]
      exact ⟨front, _, _, _, hlenient, Lexer.isOpenString_of_cursor hsource hopen _, hpos.symm, rfl⟩
    · have hne : Lexer.scan false c rest ≠ .error .unterminatedString := by
        rw [hfails.scan_eq]
        exact fun heq => hfault (Except.error.inj heq)
      have hfails' : Lexer.Fails true c rest e.fault :=
        ⟨hfails.notBlank, (Lexer.scan_true_of_ne hne).trans hfails.scan_eq⟩
      rw [hfails'.tokensFrom_eq, ← hpos] at hlenient
      dsimp only
      rw [if_neg hfault, hlenient]
      rfl

end BrailleScript
