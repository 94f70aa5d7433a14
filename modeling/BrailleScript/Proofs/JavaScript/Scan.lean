import Mathlib.Data.List.Basic

/-!
# Reading emitted code

A scanner that knows as much of the emitted language as is needed to tell what stands where: words,
strings between double quotes with backslash escapes, and comments between `/*` and `*/`.  Every
other character that is no blank is a mark, and marks may be brackets.

## Key results

- `Reads.append`, `Reads.append_gap`: a text of two parts is read part by part
- `nest_append`, `nest_frame`: so are its brackets
-/

namespace BrailleScript.JavaScript

/-- What the scanner tells apart. -/
inductive Lexeme where
  | word (cs : List Char)
  | mark (c : Char)
  /-- What stands between two quotes, escapes as they are written. -/
  | string (cs : List Char)
  | comment (cs : List Char)
  deriving DecidableEq, Repr

/-- Where the scanner is, with what it has read of an unfinished lexeme. -/
inductive Mode where
  | code
  | word (cs : List Char)
  | slash
  | string (cs : List Char)
  | escape (cs : List Char)
  | comment (cs : List Char)
  /-- A star inside a comment, which may be about to end it. -/
  | star (cs : List Char)
  deriving DecidableEq, Repr

namespace Scan

/-- The characters of words. -/
def isWordChar (c : Char) : Bool :=
  c.isAlphanum || c = '_' || c = '$' || 128 ≤ c.toNat

/-- The characters between lexemes that mean nothing. -/
def isBlank (c : Char) : Bool :=
  c = ' ' || c = '\n' || c = '\t' || c = '\r'

/-- A character where nothing is unfinished. -/
def start (c : Char) : Mode × List Lexeme :=
  if isWordChar c then (.word [c], [])
  else if c = '"' then (.string [], [])
  else if c = '/' then (.slash, [])
  else if isBlank c then (.code, [])
  else (.code, [.mark c])

/-- One more character, and the lexemes that it finishes. -/
def next : Mode → Char → Mode × List Lexeme
  | .code, c => start c
  | .word cs, c =>
    if isWordChar c then (.word (cs ++ [c]), []) else ((start c).1, .word cs :: (start c).2)
  | .slash, c =>
    if c = '*' then (.comment [], []) else ((start c).1, .mark '/' :: (start c).2)
  | .string cs, c =>
    if c = '"' then (.code, [.string cs])
    else if c = '\\' then (.escape (cs ++ [c]), [])
    else (.string (cs ++ [c]), [])
  | .escape cs, c => (.string (cs ++ [c]), [])
  | .comment cs, c => if c = '*' then (.star cs, []) else (.comment (cs ++ [c]), [])
  | .star cs, c =>
    if c = '/' then (.code, [.comment cs])
    else if c = '*' then (.star (cs ++ ['*']), [])
    else (.comment (cs ++ ['*', c]), [])

/-- A text, character by character. -/
def run : Mode → List Char → Mode × List Lexeme
  | mode, [] => (mode, [])
  | mode, c :: rest =>
    let (mode', finished) := next mode c
    let (last, more) := run mode' rest
    (last, finished ++ more)

/-- What the end of the text finishes; a string and a comment it does not finish. -/
def finish : Mode → Option (List Lexeme)
  | .code => some []
  | .word cs => some [.word cs]
  | .slash => some [.mark '/']
  | .string _ | .escape _ | .comment _ | .star _ => none

end Scan

open Scan in
/-- The lexemes of a text, if it does not end inside a string or a comment. -/
def scan (text : String) : Option (List Lexeme) :=
  (finish (run .code text.toList).1).map ((run .code text.toList).2 ++ ·)

/-! ## Brackets -/

/-- The bracket that closes an opening bracket. -/
def closing? : Char → Option Char
  | '(' => some ')'
  | '[' => some ']'
  | '\x7b' => some '\x7d'
  | _ => none

/-- The closing brackets. -/
def isClosing (c : Char) : Bool :=
  c = ')' || c = ']' || c = '\x7d'

/-- The brackets still to be closed after one more lexeme, the innermost first; a closing bracket has
to be the innermost one. -/
def meet (pending : List Char) : Lexeme → Option (List Char)
  | .mark c =>
    match closing? c, pending with
    | some close, _ => some (close :: pending)
    | none, [] => if isClosing c then none else some []
    | none, close :: outer =>
      if isClosing c then if c = close then some outer else none else some pending
  | _ => some pending

/-- The brackets still to be closed after some lexemes. -/
def nest (pending : List Char) (ts : List Lexeme) : Option (List Char) :=
  ts.foldlM meet pending

/-- Every bracket is closed by its own closing bracket, in nested order. -/
def Nested (ts : List Lexeme) : Prop :=
  nest [] ts = some []

instance (ts : List Lexeme) : Decidable (Nested ts) :=
  inferInstanceAs (Decidable (nest [] ts = some []))

/-- Brackets are nested from left to right. -/
theorem nest_append {pending pending' : List Char} {ts us : List Lexeme}
    (h : nest pending ts = some pending') : nest pending (ts ++ us) = nest pending' us := by
  rw [nest, List.foldlM_append]
  exact congrArg (· >>= fun pending => nest pending us) h

/-- What a lexeme does to the open brackets does not hang on those further out. -/
theorem meet_frame {pending pending' : List Char} {t : Lexeme} (h : meet pending t = some pending')
    (outer : List Char) : meet (pending ++ outer) t = some (pending' ++ outer) := by
  cases t with
  | mark c =>
    cases hclose : closing? c with
    | some close =>
      simp only [meet, hclose, Option.some.injEq] at h ⊢
      rw [← h, List.cons_append]
    | none =>
      -- a closing bracket looks at the innermost open one, and at none further out
      cases pending with
      | nil =>
        simp only [meet, hclose, List.nil_append] at h ⊢
        split at h
        · cases h
        next hopen =>
          obtain rfl : [] = pending' := Option.some.inj h
          cases outer <;> simp [hopen]
      | cons close inner =>
        simp only [meet, hclose, List.cons_append] at h ⊢
        split_ifs at h ⊢ with hclosing hc
        · obtain rfl : inner = pending' := Option.some.inj h
          rfl
        · obtain rfl : close :: inner = pending' := Option.some.inj h
          rfl
  | _ =>
    obtain rfl : pending = pending' := Option.some.inj h
    rfl

/-- Brackets further out do not matter. -/
theorem nest_frame {pending pending' : List Char} {ts : List Lexeme}
    (h : nest pending ts = some pending') (outer : List Char) :
    nest (pending ++ outer) ts = some (pending' ++ outer) := by
  -- bracket by bracket, with the ones further out untouched
  induction ts generalizing pending with
  | nil =>
    obtain rfl : pending = pending' := Option.some.inj h
    rfl
  | cons t ts ih =>
    obtain ⟨inner, hmeet, hrest⟩ := Option.bind_eq_some_iff.1 h
    exact Option.bind_eq_some_iff.2 ⟨_, meet_frame hmeet outer, ih hrest⟩

/-! ## Texts in parts -/

namespace Scan

/-- A quote opens a string. -/
@[simp] theorem start_quote : start '"' = (.string [], []) := by decide

/-- A slash may open a comment. -/
@[simp] theorem start_slash : start '/' = (.slash, []) := by decide

/-- Characters are scanned from left to right. -/
theorem run_append (mode : Mode) (a b : List Char) :
    run mode (a ++ b) = ((run (run mode a).1 b).1, (run mode a).2 ++ (run (run mode a).1 b).2) := by
  induction a generalizing mode with
  | nil => rfl
  | cons c a ih => simp only [List.cons_append, run, ih, List.append_assoc]

/-- A word ends where another character stands, which is read as if nothing stood before it. -/
theorem run_word {c : Char} (h : isWordChar c = false) (cs rest : List Char) :
    run (.word cs) (c :: rest) =
      ((run .code (c :: rest)).1, .word cs :: (run .code (c :: rest)).2) := by
  simp [run, next, h]

/-- A word goes on as long as its characters do. -/
theorem run_word_chars {cs : List Char} (h : ∀ c ∈ cs, isWordChar c = true) (before : List Char) :
    run (.word before) cs = (.word (before ++ cs), []) := by
  induction cs generalizing before with
  | nil => simp [run]
  | cons c cs ih =>
    rw [List.forall_mem_cons] at h
    simp [run, next, h.1, ih h.2]

/-- Blanks are left out. -/
theorem run_blanks {cs : List Char} (h : ∀ c ∈ cs, isBlank c = true) : run .code cs = (.code, []) := by
  induction cs with
  | nil => rfl
  | cons c cs ih =>
    rw [List.forall_mem_cons] at h
    have hc : c = ' ' ∨ c = '\n' ∨ c = '\t' ∨ c = '\r' := by
      simpa [isBlank, or_assoc] using h.1
    have hstart : start c = (.code, []) := by
      rcases hc with rfl | rfl | rfl | rfl <;> decide
    simp [run, next, hstart, ih h.2]

end Scan

open Scan in
/-- Read from where nothing is unfinished, the text gives the lexemes.  At its end there is nothing
unfinished, unless it need not be closed: then a word may be. -/
inductive Reads : (closed : Bool) → List Char → List Lexeme → Prop
  | closed {closed cs ts} (h : run .code cs = (.code, ts)) : Reads closed cs ts
  | word {cs ts w} (h : run .code cs = (.word w, ts)) : Reads false cs (ts ++ [.word w])

namespace Reads

open Scan

variable {closed : Bool} {a b : List Char} {ts us : List Lexeme}

/-- A text that ends apart may be taken for one that does not. -/
theorem loosen (h : Reads closed a ts) : Reads false a ts := by
  cases h with
  | closed h => exact .closed h
  | word h => exact .word h

/-- The empty text has no lexeme. -/
theorem nil : Reads closed [] [] :=
  .closed rfl

/-- The lexemes that a text is read as are those that scanning gives. -/
theorem scan_eq {text : String} (h : Reads closed text.toList ts) : scan text = some ts := by
  cases h with
  | closed h => simp [scan, h, finish]
  | word h => simp [scan, h, finish]

/-- A part that is closed may be followed by anything. -/
theorem append (ha : Reads true a ts) (hb : Reads closed b us) : Reads closed (a ++ b) (ts ++ us) := by
  obtain ⟨ha⟩ := ha
  cases hb with
  | closed hb => exact .closed (by simp [run_append, ha, hb])
  | word hb =>
    rw [← List.append_assoc]
    exact .word (by simp [run_append, ha, hb])

/-- Any part may be followed by one that does not begin like a word. -/
theorem append_gap {c : Char} (ha : Reads false a ts) (hb : Reads closed (c :: b) us)
    (hc : isWordChar c = false) : Reads closed (a ++ c :: b) (ts ++ us) := by
  cases ha with
  | closed ha => exact append (.closed ha) hb
  | @word _ ts w ha =>
    -- the gap ends the word, and what follows is scanned from code
    have hrun : run (.word w) (c :: b) = _ := run_word hc w b
    cases hb with
    | closed hb =>
      rw [hb] at hrun
      exact .closed (by simp [run_append, ha, hrun])
    | word hb =>
      rw [hb] at hrun
      rw [← List.append_assoc]
      exact .word (by simp [run_append, ha, hrun])

/-- A word is one lexeme. -/
theorem word_chars {c : Char} {cs : List Char} (h : ∀ d ∈ c :: cs, isWordChar d = true) :
    Reads false (c :: cs) [.word (c :: cs)] := by
  rw [List.forall_mem_cons] at h
  refine @Reads.word _ [] _ ?_
  simp [run, next, start, h.1, run_word_chars h.2]

/-- Blanks are none. -/
theorem blanks {cs : List Char} (h : ∀ c ∈ cs, isBlank c = true) : Reads closed cs [] :=
  .closed (run_blanks h)

end Reads

end BrailleScript.JavaScript
