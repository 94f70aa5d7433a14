import BrailleScript.Token
import BrailleScript.Readable
import BrailleScript.Decimal.Reading

/-!
# From cells to tokens

`scan` takes one token off the front of the source: a comment, a string, an escaped identifier or
a word of cells, which the first character tells apart (`scan_eq_iff`).  `tokenize` repeats that,
skipping blanks, and closes the list with the end of input.  Every scan splits its input, so no
character is lost (`scan_append`).
-/

namespace BrailleScript

/-- What is wrong with the source. -/
inductive LexFault where
  | unexpectedCharacter (c : Char)
  | invalidNumber (raw : String)
  | unterminatedString
  | danglingEscape
  deriving Repr, DecidableEq

/-- A fault and where the offending token starts. -/
structure LexError where
  fault : LexFault
  pos : Pos
  deriving Repr, DecidableEq

/-- The message with its position. -/
def LexError.message (e : LexError) : String :=
  match e.fault with
  | .unexpectedCharacter c => "Unexpected character " ++ Text.quotedChar c ++ " at " ++ e.pos.text
  | .invalidNumber raw => "Invalid number literal '" ++ raw ++ "' at " ++ e.pos.text
  | .unterminatedString => "Unterminated string starting at " ++ e.pos.text
  | .danglingEscape => "Identifier escape not followed by a word at " ++ e.pos.text

namespace Lexer

/-- A token's kind, its characters and the characters after it. -/
structure Scanned where
  kind : TokenKind
  raw : List Char
  rest : List Char

/-- The decimal digit or point written by a cell. -/
def digitChar? (c : Char) : Option Char :=
  match Symbol.digit? c with
  | some d => some (Nat.digitChar d)
  | none => if c = Symbol.decimalPoint then some '.' else none

/-- The number written by the cells after the number sign: digits, at least one, with at most one
point. -/
def number? (cells : List Char) : Option Float :=
  match cells.mapM digitChar? with
  | some cs => if cs.count '.' ≤ 1 then Decimal.readUnsigned? false cs else none
  | none => none

/-- The kind of a word: a number after the number sign, the role of a single cell, or a name. -/
def wordKind (cells : List Char) : Except LexFault TokenKind :=
  match cells with
  | [] => .ok (.identifier "")
  | first :: more =>
    if first = Symbol.numberSign then
      match number? more with
      | some x => .ok (.number x)
      | none => .error (.invalidNumber (String.ofList cells))
    -- a cell has its role only where it stands alone; in a longer word it is a letter
    else if more.isEmpty then
      match Role.ofCell? first with
      | some (.keyword k) => .ok (.keyword k)
      | some (.operator o) => .ok (.operator o)
      | some (.delimiter d) => .ok (.delimiter d)
      | none => .ok (.identifier (String.ofList (Cell.decodeNameChars cells)))
    else .ok (.identifier (String.ofList (Cell.decodeNameChars cells)))

/-- A comment runs to the end of the line, or to a second mark, which it includes. -/
def scanComment (rest : List Char) : Scanned :=
  let inside := rest.takeWhile fun c => c != '\n' && c != Symbol.commentMark
  let after := rest.dropWhile fun c => c != '\n' && c != Symbol.commentMark
  let kind := .comment (String.ofList (Text.trimChars (Cell.decodeChars inside)))
  match after with
  | c :: rest' =>
    if c = Symbol.commentMark then
      { kind, raw := Symbol.commentMark :: inside ++ [c], rest := rest' }
    -- the end of the line does not belong to the comment
    else { kind, raw := Symbol.commentMark :: inside, rest := after }
  | [] => { kind, raw := Symbol.commentMark :: inside, rest := [] }

/-- A string runs to the next mark; if none follows, `lenient` takes it to the end. -/
def scanString (lenient : Bool) (rest : List Char) : Except LexFault Scanned :=
  let inside := rest.takeWhile (· != Symbol.stringMark)
  let kind := .text (String.ofList (Cell.decodeChars inside))
  match rest.dropWhile (· != Symbol.stringMark) with
  | c :: rest' => .ok { kind, raw := Symbol.stringMark :: inside ++ [c], rest := rest' }
  | [] =>
    if lenient then .ok { kind, raw := Symbol.stringMark :: inside, rest := [] }
    else .error .unterminatedString

/-- An escape, blanks, and a word, which is a name whatever it would be without the escape. -/
def scanEscaped (rest : List Char) : Except LexFault Scanned :=
  let blanks := rest.takeWhile Text.isBlank
  let after := rest.dropWhile Text.isBlank
  let word := after.takeWhile Symbol.isWordCell
  if word.isEmpty then .error .danglingEscape
  else
    .ok { kind := .identifier (String.ofList (Cell.decodeNameChars word))
          raw := Symbol.identifierEscape :: blanks ++ word
          rest := after.dropWhile Symbol.isWordCell }

/-- A word runs as long as word cells follow. -/
def scanWord (cs : List Char) : Except LexFault Scanned :=
  let word := cs.takeWhile Symbol.isWordCell
  match wordKind word with
  | .ok kind => .ok { kind, raw := word, rest := cs.dropWhile Symbol.isWordCell }
  | .error fault => .error fault

/-- The token at the front of `c :: rest`, where `c` is no blank. -/
def scan (lenient : Bool) (c : Char) (rest : List Char) : Except LexFault Scanned :=
  if c = Symbol.commentMark then .ok (scanComment rest)
  else if c = Symbol.stringMark then scanString lenient rest
  else if c = Symbol.identifierEscape then scanEscaped rest
  else if Cell.isCell c then scanWord (c :: rest)
  else .error (.unexpectedCharacter c)

/-- How `c :: rest` is scanned: by the rule for its first character. -/
inductive Scans (lenient : Bool) (c : Char) (rest : List Char) : Except LexFault Scanned → Prop
  | comment (hc : c = Symbol.commentMark) : Scans lenient c rest (.ok (scanComment rest))
  | string {r : Except LexFault Scanned} (hc : c = Symbol.stringMark)
      (h : scanString lenient rest = r) : Scans lenient c rest r
  | escaped {r : Except LexFault Scanned} (hc : c = Symbol.identifierEscape)
      (h : scanEscaped rest = r) : Scans lenient c rest r
  | word {r : Except LexFault Scanned} (hc : Symbol.isWordCell c = true)
      (h : scanWord (c :: rest) = r) : Scans lenient c rest r
  | foreign (hc : Cell.isCell c = false) : Scans lenient c rest (.error (.unexpectedCharacter c))

/-- What the scanner does is one of the cases. -/
theorem scans_scan (lenient : Bool) (c : Char) (rest : List Char) :
    Scans lenient c rest (scan lenient c rest) := by
  unfold scan
  split
  next hc => exact .comment hc
  next hcomment =>
    split
    next hc => exact .string hc rfl
    next hstring =>
      split
      next hc => exact .escaped hc rfl
      next hescape =>
        split
        next hcell =>
          refine .word ?_ rfl
          simp [Symbol.isWordCell, Symbol.isStructural, hcell, hcomment, hstring, hescape]
        next hcell => exact .foreign (Bool.eq_false_iff.2 hcell)

/-- A case says what the scanner does. -/
theorem Scans.scan_eq {lenient : Bool} {c : Char} {rest : List Char}
    {r : Except LexFault Scanned} (h : Scans lenient c rest r) : scan lenient c rest = r := by
  cases h with
  | comment hc => rw [scan, if_pos hc]
  | string hc h =>
    subst hc
    rw [scan, if_neg (by decide), if_pos rfl, h]
  | escaped hc h =>
    subst hc
    rw [scan, if_neg (by decide), if_neg (by decide), if_pos rfl, h]
  | word hc h =>
    simp only [Symbol.isWordCell, Symbol.isStructural, Bool.and_eq_true, Bool.not_eq_true',
      Bool.or_eq_false_iff, beq_eq_false_iff_ne] at hc
    obtain ⟨hcell, ⟨hcomment, hstring⟩, hescape⟩ := hc
    rw [scan, if_neg hcomment, if_neg hstring, if_neg hescape, if_pos hcell, h]
  | foreign hc =>
    -- the marks are cells
    have hmark {d : Char} (hd : Cell.isCell d = true) : c ≠ d := by
      rintro rfl
      exact absurd hd (by simp [hc])
    rw [scan, if_neg (hmark (by decide)), if_neg (hmark (by decide)), if_neg (hmark (by decide)),
      if_neg (by simp [hc])]

/-- A scan goes by the rule for the first character, and by no other. -/
theorem scan_eq_iff {lenient : Bool} {c : Char} {rest : List Char} {r : Except LexFault Scanned} :
    scan lenient c rest = r ↔ Scans lenient c rest r :=
  ⟨fun h => h ▸ scans_scan lenient c rest, Scans.scan_eq⟩

/-- The cells of a comment and those behind it are all that there were. -/
theorem scanComment_append (rest : List Char) :
    (scanComment rest).raw ++ (scanComment rest).rest = Symbol.commentMark :: rest ∧
      (scanComment rest).raw ≠ [] := by
  have h := List.takeWhile_append_dropWhile
    (p := fun c => c != '\n' && c != Symbol.commentMark) (l := rest)
  simp only [scanComment]
  split
  · next c rest' heq =>
    rw [heq] at h
    split <;> simp [h, heq]
  · next heq =>
    rw [heq] at h
    simpa using h

/-- So it is with a string. -/
theorem scanString_append {lenient : Bool} {rest : List Char} {s : Scanned}
    (h : scanString lenient rest = .ok s) :
    s.raw ++ s.rest = Symbol.stringMark :: rest ∧ s.raw ≠ [] := by
  have hw := List.takeWhile_append_dropWhile (p := (· != Symbol.stringMark)) (l := rest)
  simp only [scanString] at h
  split at h
  · next c rest' heq =>
    rw [heq] at hw
    cases h
    simp [hw]
  · next heq =>
    rw [heq] at hw
    split at h
    · cases h
      simpa using hw
    · cases h

/-- So it is with an escaped name. -/
theorem scanEscaped_append {rest : List Char} {s : Scanned} (h : scanEscaped rest = .ok s) :
    s.raw ++ s.rest = Symbol.identifierEscape :: rest ∧ s.raw ≠ [] := by
  simp only [scanEscaped] at h
  split at h
  · cases h
  · cases h
    simp

/-- So it is with a word, which takes all the word cells in front. -/
theorem scanWord_append {cs : List Char} {s : Scanned} (h : scanWord cs = .ok s) :
    s.raw ++ s.rest = cs ∧ s.raw = cs.takeWhile Symbol.isWordCell := by
  simp only [scanWord] at h
  split at h
  · cases h
    simp
  · cases h

/-- A scan splits its input, and takes at least one character. -/
theorem scan_append {lenient : Bool} {c : Char} {rest : List Char} {s : Scanned}
    (h : scan lenient c rest = .ok s) : s.raw ++ s.rest = c :: rest ∧ s.raw ≠ [] := by
  cases scan_eq_iff.1 h with
  | comment hc =>
    subst hc
    exact scanComment_append rest
  | string hc hs =>
    subst hc
    exact scanString_append hs
  | escaped hc hs =>
    subst hc
    exact scanEscaped_append hs
  | word hc hs =>
    obtain ⟨happend, hraw⟩ := scanWord_append hs
    exact ⟨happend, by simp [hraw, hc]⟩

/-- The characters left after a scan are fewer. -/
theorem length_rest_lt_of_scan {lenient : Bool} {c : Char} {rest : List Char} {s : Scanned}
    (h : scan lenient c rest = .ok s) : s.rest.length < (c :: rest).length := by
  obtain ⟨happ, hne⟩ := scan_append h
  rw [← happ, List.length_append]
  have := List.length_pos_iff.2 hne
  omega

/-- The end of input behind the last character. -/
def endToken (here : Cursor) : Token :=
  { kind := .endOfInput, raw := "", offset := here.offset,
    pos := ⟨here.pos.line, max here.pos.col 1⟩ }

/-- The tokens of the source behind the cursor. -/
def tokensFrom (lenient : Bool) (here : Cursor) (cs : List Char) : Except LexError (List Token) :=
  match cs with
  | [] => .ok [endToken here]
  | c :: rest =>
    if Text.isBlank c then tokensFrom lenient (here.advance c) rest
    else
      match _h : scan lenient c rest with
      -- the position of a character is that of the cursor behind it
      | .error fault => .error ⟨fault, here.pos.advance c⟩
      | .ok s =>
        match tokensFrom lenient (here.advanceAll s.raw) s.rest with
        | .error e => .error e
        | .ok ts =>
          .ok ({ kind := s.kind, raw := String.ofList s.raw, offset := here.offset,
                 pos := here.pos.advance c } :: ts)
termination_by cs.length
decreasing_by
  · simp
  · exact length_rest_lt_of_scan _h

end Lexer

/-- The tokens of a source, the last one being the end of input.  With `lenient`, a string may run
to the end of the source without its closing mark. -/
def tokenize (lenient : Bool) (source : String) : Except LexError (List Token) :=
  Lexer.tokensFrom lenient Cursor.start source.toList

end BrailleScript
