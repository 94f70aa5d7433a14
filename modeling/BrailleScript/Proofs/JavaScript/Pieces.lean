import BrailleScript.JavaScript.Emitter
import BrailleScript.Proofs.JavaScript.Names
import BrailleScript.Proofs.JavaScript.Scan
import BrailleScript.Proofs.Json.Canonical

/-!
# The pieces of emitted code

Emitted code is put together from fragments of the emitter's own, from numbers, and from what a
program supplies: names, quoted texts and what placeholders quote.  Each piece is read by the scanner
on its own, a name as one word, a quoted text as one string, a placeholder as one comment.

## Key results

- `Piece.reads`: what a piece is read as
-/

namespace BrailleScript.JavaScript

open Scan

/-- The texts that the emitter itself supplies. -/
def fragments : List String :=
  ["\n", ";", ", ", ": ", " ", "(", ")", ") ", "[", "]", " \x7b", "\x7b\n", "\x7d", ": \x7b", "(\x7b", "\x7d)",
    " = ", "] = ", "](", "-", "*", "<", "<=", ">", ">=",
    "__main(async () => \x7b\n", "\x7d);\n", " null", "null", "true", "false", "this",
    "let ", "async function ", "class ", " extends ", " = __module(", ");", "async [",
    "__print(", "return ", "__y.push(", "__fail(\"TypeMismatch\", \"yield outside of a function\");",
    "break ", "break;", "continue;", "throw new __Halt();",
    "if (__truthy(", ")) ", " else ", "while (__truthy(", "for (let __n = 0; ; __n++) ",
    "if (__n >= ", ") \x7b console.log(", "); break; \x7d", "for (", " of __iter(",
    "try ", " catch (__e) ", "if (__e instanceof __Halt) throw __e;", " = __errText(__e);",
    "if (__eq(", "const __y = [];", "const __r = await (async () => ", ")();",
    "return __y.length ? __y : __r;",
    "(__truthy(", ") && __truthy(", ") || __truthy(", "))", "!__truthy(", "(-",
    "__add(", "__div(", "__mod(", "__eq(", "!__eq(", "super[", "].bind(this)", "__setIndex(",
    "(async (", ") => ", "(await ", "(await __call(", "(await __callm(", ", [", "]))",
    "(await super[", "(await __prim.", "infer", "embed", "promptTemplate", "pipeCompose",
    "reflectExec", "semanticSearch", "[__key(", ")]: ",
    "(await (async () => ", ")())", "__fail(\"PrimitiveExecution\", "]

/-- A piece of emitted code. -/
inductive Piece where
  | fixed (s : String) (h : s ∈ fragments)
  | blank (n : Nat)
  | name (s : String)
  /-- The declaration of a name as a constant. -/
  | constant (s : String)
  | quoted (s : String)
  | placeholder (s : String)
  | number (x : Float)
  | count (n : Nat)
  /-- The label of a switch. -/
  | label (n : Nat)
  /-- The value that a switch looks at, and its declaration. -/
  | subject (n : Nat)
  | constantSubject (n : Nat)

namespace Piece

/-- The text of a piece. -/
def text : Piece → String
  | fixed s _ => s
  | blank n => String.ofList (List.replicate n ' ')
  | name s => sanitize s
  | constant s => "const " ++ sanitize s
  | quoted s => Json.quote s
  | placeholder s => unsupported s
  | number x => Number.text x
  | count n => toString n
  | label n => "__sw" ++ toString n
  | subject n => "__s" ++ toString n
  | constantSubject n => "const __s" ++ toString n

/-- What the scanner reads. -/
def lexemes : Piece → List Lexeme
  | fixed s _ => (scan s).getD []
  | blank _ => []
  | name s => [.word (sanitize s).toList]
  | constant s => [.word "const".toList, .word (sanitize s).toList]
  | quoted s => [.string (s.toList.flatMap Json.escapeChar)]
  | placeholder s => [.comment (" unsupported: ".toList ++ guardComment s.toList ++ [' '])]
  | number x => (scan (Number.text x)).getD []
  | count n => [.word (toString n).toList]
  | label n => [.word ("__sw" ++ toString n).toList]
  | subject n => [.word ("__s" ++ toString n).toList]
  | constantSubject n => [.word "const".toList, .word ("__s" ++ toString n).toList]

/-- Whether anything may follow the piece. -/
def closed : Piece → Bool
  | blank _ => true
  | _ => false

end Piece

/-! ## Characters of words -/

/-- Digits stand in words. -/
theorem isWordChar_of_isDigit {c : Char} (h : c.isDigit = true) : isWordChar c = true := by
  simp [isWordChar, Char.isAlphanum, h]

/-- So do the characters of identifiers. -/
theorem isWordChar_of_isIdentifierContinue {c : Char} (h : Text.isIdentifierContinue c = true) :
    isWordChar c = true := by
  by_cases hc : c.toNat < 128
  · have hascii : ∀ n < 128, Text.isIdentifierContinue (Char.ofNat n) = true →
        isWordChar (Char.ofNat n) = true := by decide +kernel
    rw [← Char.ofNat_toNat c] at h ⊢
    exact hascii c.toNat hc h
  · simp [isWordChar, Nat.not_lt.1 hc]

/-- So do those of sanitized names. -/
theorem isWordChar_of_isNameChar {c : Char} (h : IsNameChar c) : isWordChar c = true := by
  rcases h with rfl | rfl | h
  · decide
  · decide
  · exact isWordChar_of_isIdentifierContinue h

/-- A name of emitted code is a word. -/
theorem sanitize_word (s : String) :
    (sanitize s).toList ≠ [] ∧ ∀ c ∈ (sanitize s).toList, isWordChar c = true := by
  have husable := isUsable_sanitize s
  obtain ⟨c, rest, hs, -⟩ := husable.begins
  exact ⟨hs ▸ List.cons_ne_nil c rest,
    fun d hd => isWordChar_of_isNameChar (husable.continues d hd)⟩

/-- A number is printed by its decimal digits. -/
theorem toList_toString (n : Nat) : (toString n).toList = Nat.toDigits 10 n := by
  show (Nat.repr n).toList = _
  rw [Nat.repr_eq_ofList_toDigits, String.toList_ofList]

/-- A printed number has digits only. -/
theorem isDigit_of_mem_toString {n : Nat} {c : Char} (h : c ∈ (toString n).toList) :
    c.isDigit = true := by
  rw [toList_toString] at h
  exact Nat.isDigit_of_mem_toDigits (by decide) (by decide) h

/-- It is a word. -/
theorem toString_word (n : Nat) :
    (toString n).toList ≠ [] ∧ ∀ c ∈ (toString n).toList, isWordChar c = true := by
  refine ⟨?_, fun _ hc => isWordChar_of_isDigit (isDigit_of_mem_toString hc)⟩
  rw [toList_toString]
  exact Nat.toDigits_ne_nil

/-! ## Readings -/

namespace Reads

/-- A word is read as one. -/
theorem word_of {cs : List Char} (h : cs ≠ [] ∧ ∀ c ∈ cs, isWordChar c = true) :
    Reads false cs [.word cs] := by
  obtain ⟨hne, hchars⟩ := h
  cases cs with
  | nil => exact absurd rfl hne
  | cons c cs => exact word_chars hchars

end Reads

/-- A character between quotes is passed over with its escape. -/
theorem run_escapeChar (before : List Char) (c : Char) :
    run (.string before) (Json.escapeChar c) = (.string (before ++ Json.escapeChar c), []) := by
  unfold Json.escapeChar
  -- one case for each short escape, one for control characters, one for all others
  repeat' split
  all_goals simp only [run, next, if_true, if_false, *]
  all_goals simp

/-- Inside of a string, escaped characters never end it. -/
theorem run_escaped (before cs : List Char) :
    run (.string before) (cs.flatMap Json.escapeChar) =
      (.string (before ++ cs.flatMap Json.escapeChar), []) := by
  induction cs generalizing before with
  | nil => simp [run]
  | cons c cs ih => simp [run_append, run_escapeChar, ih]

/-- A quoted text is read as one string. -/
theorem reads_quote (s : String) :
    Reads true (Json.quote s).toList [.string (s.toList.flatMap Json.escapeChar)] := by
  refine .closed ?_
  rw [Json.quote, String.toList_ofList]
  simp [run_append, run_escaped, run, next]


/-- After a star that no slash follows, a comment goes on. -/
theorem run_star {c : Char} (h : c ≠ '/') (before rest : List Char) :
    run (.star before) (c :: rest) = run (.comment (before ++ ['*'])) (c :: rest) := by
  by_cases hc : c = '*'
  · simp [run, next, hc]
  · simp [run, next, h, hc]

/-- The guarded text of a comment never closes it at once. -/
theorem guardComment_head {cs : List Char} (h : ∀ rest, cs ≠ '/' :: rest) :
    ∃ c rest, guardComment cs ++ [' '] = c :: rest ∧ c ≠ '/' := by
  -- a star in front of a slash is parted from it
  cases cs using guardComment.fun_cases with
  | case1 rest => exact ⟨_, _, rfl, by decide⟩
  | case2 c rest hguard =>
    rw [guardComment]
    · exact ⟨c, _, rfl, fun hc => h rest (by rw [hc])⟩
    · exact hguard
  | case3 => exact ⟨_, _, rfl, by decide⟩

/-- A comment does not end inside a guarded text. -/
theorem run_guardComment (before cs : List Char) :
    run (.comment before) (guardComment cs ++ [' ']) =
      (.comment (before ++ guardComment cs ++ [' ']), []) := by
  induction cs using guardComment.induct generalizing before with
  | case1 rest ih => simp [guardComment, run, next, ih]
  | case2 c rest hguard ih =>
    rw [guardComment]
    · -- a star may close the comment, but what follows in a guarded text is no slash
      by_cases hc : c = '*'
      · subst hc
        obtain ⟨d, tail, heq, hd⟩ := guardComment_head fun rest' => hguard rest' rfl
        have hnext : run (.comment before) ('*' :: (guardComment rest ++ [' '])) =
            run (.star before) (guardComment rest ++ [' ']) := by simp [run, next]
        rw [List.cons_append, hnext, heq, run_star hd, ← heq, ih]
        simp
      · simp [run, next, hc, ih]
    · exact hguard
  | case3 => simp [guardComment, run, next]

/-- A placeholder is a comment around the guarded text. -/
theorem toList_unsupported (s : String) : (unsupported s).toList =
    "/* unsupported: ".toList ++ (guardComment s.toList ++ " */".toList) := by
  have hguarded : (String.ofList (guardComment s.toList)).toList = guardComment s.toList :=
    String.toList_ofList
  show ("/* unsupported: " ++ String.ofList (guardComment s.toList) ++ " */").toList = _
  rw [String.toList_append, String.toList_append, hguarded, List.append_assoc]

/-- It is read as one comment. -/
theorem reads_unsupported (s : String) : Reads true (unsupported s).toList
    [.comment (" unsupported: ".toList ++ guardComment s.toList ++ [' '])] := by
  have hopening : run .code "/* unsupported: ".toList =
      (.comment " unsupported: ".toList, []) := by decide
  have hclosing : " */".toList = [' '] ++ ['*', '/'] := by decide
  refine .closed ?_
  rw [toList_unsupported, hclosing, ← List.append_assoc (guardComment _), run_append, hopening,
    run_append, run_guardComment]
  simp [run, next]

/-! ## Numbers -/

/-- A character that may stand in a number, or in the name of what is no finite number. -/
def isPlain (c : Char) : Bool :=
  c.isDigit || ['N', 'a', 'I', 'n', 'f', 'i', 't', 'y', 'e', '.', '-', '+'].contains c

/-- A lexeme made of such characters. -/
def Lexeme.isPlain : Lexeme → Bool
  | .word cs => cs.all JavaScript.isPlain
  | .mark c => c = '.' || c = '-' || c = '+'
  | _ => false

/-- Nothing but such a word may be unfinished. -/
def Mode.isPlain : Mode → Bool
  | .code => true
  | .word cs => cs.all JavaScript.isPlain
  | _ => false

/-- Plain lexemes open and close no bracket. -/
theorem nest_plain {ts : List Lexeme} (h : ∀ t ∈ ts, t.isPlain = true) (pending : List Char) :
    nest pending ts = some pending := by
  induction ts with
  | nil => rfl
  | cons t ts ih =>
    rw [List.forall_mem_cons] at h
    -- the only plain marks are points and signs
    have hmeet : meet pending t = some pending := by
      cases t with
      | mark c =>
        have hc : (c = '.' ∨ c = '-') ∨ c = '+' := by simpa [Lexeme.isPlain] using h.1
        rcases hc with (rfl | rfl) | rfl <;> cases pending <;> rfl
      | _ => rfl
    rw [nest, List.foldlM_cons, hmeet]
    exact ih h.2

/-- A plain character starts a plain lexeme. -/
theorem start_plain {c : Char} (h : isPlain c = true) :
    (start c).1.isPlain = true ∧ ∀ t ∈ (start c).2, t.isPlain = true := by
  by_cases hword : isWordChar c = true
  · simp [start, hword, Mode.isPlain, h]
  · -- of the characters of numbers only the signs and the point are no word characters
    have hmark : c ∈ ['N', 'a', 'I', 'n', 'f', 'i', 't', 'y', 'e', '.', '-', '+'] := by
      rcases Bool.or_eq_true_iff.1 h with hdigit | hmark
      · exact absurd (isWordChar_of_isDigit hdigit) hword
      · exact List.contains_iff_mem.1 hmark
    have hc : ['N', 'a', 'I', 'n', 'f', 'i', 't', 'y', 'e', '.', '-', '+'].all (fun c =>
        isWordChar c || (start c).1.isPlain && (start c).2.all Lexeme.isPlain) = true := by decide
    have hc := List.all_eq_true.1 hc c hmark
    simpa [hword] using hc

/-- It leads from plain code to plain code. -/
theorem next_plain {mode : Mode} (hmode : mode.isPlain = true) {c : Char} (h : isPlain c = true) :
    (next mode c).1.isPlain = true ∧ ∀ t ∈ (next mode c).2, t.isPlain = true := by
  have hstart := start_plain h
  -- in plain code there are words, and marks between them
  cases mode with
  | code => exact hstart
  | word w =>
    have hw : w.all isPlain = true := hmode
    rw [next]
    split
    · exact ⟨by simp [Mode.isPlain, hw, h], List.forall_mem_nil _⟩
    · exact ⟨hstart.1, List.forall_mem_cons.2 ⟨hw, hstart.2⟩⟩
  | _ => cases hmode

/-- So do many of them. -/
theorem run_plain {mode : Mode} (hmode : mode.isPlain = true) {cs : List Char}
    (h : ∀ c ∈ cs, isPlain c = true) :
    (run mode cs).1.isPlain = true ∧ ∀ t ∈ (run mode cs).2, t.isPlain = true := by
  induction cs generalizing mode with
  | nil => exact ⟨hmode, List.forall_mem_nil _⟩
  | cons c cs ih =>
    rw [List.forall_mem_cons] at h
    obtain ⟨hnext, hfinished⟩ := next_plain hmode h.1
    obtain ⟨hlast, hmore⟩ := ih hnext h.2
    exact ⟨hlast, List.forall_mem_append.2 ⟨hfinished, hmore⟩⟩

/-- A text of such characters is read as such lexemes. -/
theorem reads_plain {s : String} (h : ∀ c ∈ s.toList, isPlain c = true) :
    Reads false s.toList ((scan s).getD []) ∧ ∀ t ∈ (scan s).getD [], t.isPlain = true := by
  obtain ⟨hlast, hts⟩ := run_plain (rfl : Mode.code.isPlain = true) h
  -- the text ends in code, or inside of a word that its end completes
  cases hmode : (run .code s.toList).1 with
  | code =>
    have hread : Reads false s.toList (run .code s.toList).2 := .closed (Prod.ext hmode rfl)
    rw [hread.scan_eq]
    exact ⟨hread, hts⟩
  | word w =>
    have hread : Reads false s.toList ((run .code s.toList).2 ++ [.word w]) :=
      .word (Prod.ext hmode rfl)
    have hw : w.all isPlain = true := by simpa [hmode, Mode.isPlain] using hlast
    rw [hread.scan_eq]
    exact ⟨hread, List.forall_mem_append.2 ⟨hts, List.forall_mem_singleton.2 hw⟩⟩
  | _ => exact absurd hlast (by simp [hmode, Mode.isPlain])

/-- Digits are plain. -/
theorem isPlain_of_isDigit {c : Char} (h : c.isDigit = true) : isPlain c = true := by
  simp [isPlain, h]

/-- Every character of a plain text is plain. -/
theorem isPlain_of_all {cs : List Char} (h : cs.all isPlain = true) {c : Char} (hc : c ∈ cs) :
    isPlain c = true :=
  List.all_eq_true.1 h c hc

/-- A number is written in plain characters. -/
theorem isPlain_of_mem_write {x : Float} {c : Char} (h : c ∈ (Decimal.plain.write x).toList) :
    isPlain c = true := by
  unfold Decimal.Layout.write at h
  split at h
  next => exact isPlain_of_all (by decide) h
  next negative _ => cases negative <;> exact isPlain_of_all (by decide) h
  next negative m e _ =>
    -- digits and the marks of numerals are plain
    have hmagnitude {c : Char}
        (h : c ∈ Decimal.plain.magnitude (Decimal.shortest Decimal.plain.tie m e)) :
        isPlain c = true := by
      obtain ⟨n, hn⟩ := Decimal.plain.written (Decimal.shortest Decimal.plain.tie m e)
      rw [← hn.text] at h
      rcases Decimal.Numeral.mem_text h with hdigit | hmark
      · exact isPlain_of_isDigit hdigit
      · exact isPlain_of_all (by decide) hmark
    rw [String.toList_ofList] at h
    split at h
    · rcases List.mem_cons.1 h with rfl | h
      · decide
      · exact hmagnitude h
    · exact hmagnitude h

/-- So is its text in a program. -/
theorem isPlain_of_mem_numberText {x : Float} {c : Char} (h : c ∈ (Number.text x).toList) :
    isPlain c = true := by
  unfold Number.text at h
  -- three names, whole numbers, and the rest with a point or a power
  split_ifs at h
  · exact isPlain_of_all (by decide) h
  · exact isPlain_of_all (by decide) h
  · exact isPlain_of_all (by decide) h
  · rcases Json.mem_toString_int h with hdigit | rfl
    · exact isPlain_of_isDigit hdigit
    · decide
  · exact isPlain_of_mem_write h

/-! ## Pieces -/

namespace Piece

/-- A piece that is no fragment is read as told, and closes and opens no brackets. -/
theorem reads (p : Piece) (h : ∀ s hs, p ≠ .fixed s hs) :
    Reads p.closed p.text.toList p.lexemes ∧
      ∀ pending, nest pending p.lexemes = some pending := by
  have hconst : Reads true "const ".toList [.word "const".toList] := .closed (by decide)
  -- a numbered internal name is one word, as its digits are word characters
  have hnumbered {stem : List Char} (hstem : stem.all isWordChar = true) (n : Nat) :
      Reads false (stem ++ (toString n).toList) [.word (stem ++ (toString n).toList)] := by
    obtain ⟨hne, hchars⟩ := toString_word n
    exact .word_of ⟨List.append_ne_nil_of_right_ne_nil _ hne,
      List.forall_mem_append.2 ⟨List.all_eq_true.1 hstem, hchars⟩⟩
  cases p with
  | fixed s hs => exact absurd rfl (h s hs)
  | blank n =>
    refine ⟨?_, fun _ => rfl⟩
    rw [text, String.toList_ofList]
    exact .blanks fun c hc => by rw [List.eq_of_mem_replicate hc]; decide
  | name s => exact ⟨.word_of (sanitize_word s), fun _ => rfl⟩
  | constant s =>
    rw [text, String.toList_append]
    exact ⟨hconst.append (.word_of (sanitize_word s)), fun _ => rfl⟩
  | quoted s => exact ⟨(reads_quote s).loosen, fun _ => rfl⟩
  | placeholder s => exact ⟨(reads_unsupported s).loosen, fun _ => rfl⟩
  | number x =>
    obtain ⟨hread, hplain⟩ := reads_plain fun _ => isPlain_of_mem_numberText
    exact ⟨hread, nest_plain hplain⟩
  | count n => exact ⟨.word_of (toString_word n), fun _ => rfl⟩
  | label n | subject n =>
    rw [text, lexemes, String.toList_append]
    exact ⟨hnumbered (by decide) n, fun _ => rfl⟩
  | constantSubject n =>
    have htext : (constantSubject n).text.toList =
        "const ".toList ++ ("__s" ++ toString n).toList := by simp [text]
    rw [htext, lexemes, String.toList_append]
    exact ⟨hconst.append (hnumbered (by decide) n), fun _ => rfl⟩

end Piece

end BrailleScript.JavaScript
