import BrailleScript.Proofs.JavaScript.Containment

/-!
# Statements that end by themselves

A statement of the emitted language is over where its last lexeme is a semicolon outside all
brackets, or where it is a declaration or a construct whose braces are closed.  Nothing that follows
such a statement can belong to it.

## Key results

- `Compound`: declarations, constructs and comments, by their lexemes
- `Spelt.fixed`, `Spelt.code`: the lexemes of a template, fragment by fragment
- `SelfEnding.whileLoop`, `SelfEnding.function`, `SelfEnding.classDecl`: the templates of constructs
-/

namespace BrailleScript.JavaScript

open Scan

/-! ## Rows of lexemes -/

/-- A bracket, whatever stands in it, and its closing bracket. -/
def Bracketed (opening closing : Char) (ts : List Lexeme) : Prop :=
  ∃ inside, Nested inside ∧ ts = .mark opening :: (inside ++ [.mark closing])

/-- Lexemes in round brackets. -/
abbrev Round : List Lexeme → Prop :=
  Bracketed '(' ')'

/-- Lexemes in braces. -/
abbrev Curly : List Lexeme → Prop :=
  Bracketed '\x7b' '\x7d'

/-- Conditions with their branches, one behind the other. -/
inductive Conditional : List Lexeme → Prop
  | only {c b : List Lexeme} (hc : Round c) (hb : Curly b) : Conditional (.word "if".toList :: (c ++ b))
  | last {c b e : List Lexeme} (hc : Round c) (hb : Curly b) (he : Curly e) :
    Conditional (.word "if".toList :: (c ++ (b ++ .word "else".toList :: e)))
  | more {c b e : List Lexeme} (hc : Round c) (hb : Curly b) (he : Conditional e) :
    Conditional (.word "if".toList :: (c ++ (b ++ .word "else".toList :: e)))

/-- Declarations and constructs that are over where their braces close, and comments. -/
inductive Compound : List Lexeme → Prop
  | block {b : List Lexeme} (hb : Curly b) : Compound b
  | labelled {label : List Char} {b : List Lexeme} (hb : Curly b) :
    Compound (.word label :: .mark ':' :: b)
  | conditional {ts : List Lexeme} (h : Conditional ts) : Compound ts
  | whileLoop {c b : List Lexeme} (hc : Round c) (hb : Curly b) :
    Compound (.word "while".toList :: (c ++ b))
  | forLoop {c b : List Lexeme} (hc : Round c) (hb : Curly b) :
    Compound (.word "for".toList :: (c ++ b))
  | tryCatch {b c handler : List Lexeme} (hb : Curly b) (hc : Round c) (hh : Curly handler) :
    Compound (.word "try".toList :: (b ++ .word "catch".toList :: (c ++ handler)))
  | function {name : List Char} {c b : List Lexeme} (hc : Round c) (hb : Curly b) :
    Compound (.word "async".toList :: .word "function".toList :: .word name :: (c ++ b))
  | classDecl {name : List Char} {b : List Lexeme} (hb : Curly b) :
    Compound (.word "class".toList :: .word name :: b)
  | subclass {name parent : List Char} {b : List Lexeme} (hb : Curly b) :
    Compound (.word "class".toList :: .word name :: .word "extends".toList :: .word parent :: b)
  | comment (cs : List Char) : Compound [.comment cs]

/-- Whether a declaration, a construct or a comment may begin like this. -/
def opensCompound : List Lexeme → Bool
  | .comment _ :: _ => true
  | .mark c :: _ => c == '\x7b'
  | .word _ :: .mark ':' :: _ => true
  | .word w :: _ =>
    ["if", "while", "for", "try", "async", "class"].any fun keyword => keyword.toList == w
  | _ => false

/-- No expression and no assignment is taken for a declaration or a construct. -/
theorem Compound.opens {ts : List Lexeme} (h : Compound ts) : opensCompound ts = true := by
  -- constructs are told by the first word, unless that is the label of a switch
  have hword {opening closing : Char} {c b : List Lexeme} {w : List Char} (ho : opening ≠ ':')
      (hc : Bracketed opening closing c) : opensCompound (.word w :: (c ++ b)) =
        ["if", "while", "for", "try", "async", "class"].any fun keyword => keyword.toList == w := by
    obtain ⟨inside, -, rfl⟩ := hc
    simp [opensCompound, ho]
  cases h with
  | block hb =>
    obtain ⟨inside, -, rfl⟩ := hb
    rfl
  | conditional h =>
    cases h with
    | only hc | last hc | more hc =>
      rw [hword (by decide) hc]
      decide
  | whileLoop hc | forLoop hc =>
    rw [hword (by decide) hc]
    decide
  | tryCatch hb =>
    rw [hword (by decide) hb]
    decide
  | labelled | function | classDecl | subclass | comment => rfl

/-- The last lexeme is a semicolon outside all brackets. -/
def Semicoloned (ts : List Lexeme) : Prop :=
  ∃ before, Nested before ∧ ts = before ++ [.mark ';']

namespace Nested

variable {ts us : List Lexeme}

/-- No lexemes are nested. -/
theorem nil : Nested [] := rfl

/-- Nested lexemes are nested in a row. -/
theorem append (h : Nested ts) (h' : Nested us) : Nested (ts ++ us) := by
  rw [Nested, nest_append h]
  exact h'

/-- A word in front changes nothing about that. -/
theorem word (w : List Char) (h : Nested ts) : Nested (.word w :: ts) :=
  h

/-- Nor does a pair of brackets around them. -/
theorem bracketed {opening closing : Char} (hopen : closing? opening = some closing)
    (h : Nested ts) : Nested (.mark opening :: (ts ++ [.mark closing])) := by
  have hinside : nest [closing] ts = some [closing] := nest_frame h [closing]
  have hmeet : meet [] (.mark opening) = some [closing] := by simp only [meet, hopen]
  -- every opening bracket has its closing one
  have hclose : meet [closing] (.mark closing) = some [] := by
    unfold closing? at hopen
    split at hopen <;> cases hopen <;> rfl
  show (meet [] (.mark opening)).bind (nest · (ts ++ [.mark closing])) = some []
  rw [hmeet, Option.bind_some, nest_append hinside]
  show (meet [closing] (.mark closing)).bind (nest · []) = some []
  rw [hclose]
  rfl

end Nested

/-- A condition as it is tested. -/
theorem round_truthy {ts : List Lexeme} (h : Nested ts) : Round
    (.mark '(' :: .word "__truthy".toList :: .mark '(' :: (ts ++ [.mark ')', .mark ')'])) :=
  ⟨.word "__truthy".toList :: .mark '(' :: (ts ++ [.mark ')']), (h.bracketed rfl).word _, by simp⟩

/-! ## Texts -/

/-- The text is read as the lexemes.  At its end there is nothing unfinished, unless it need not be
closed. -/
def Spelt (closed : Bool) (text : String) (ts : List Lexeme) : Prop :=
  Reads closed text.toList ts

/-- The lexemes of a fragment, and whether it leaves no word unfinished.  It may go on where a word
may be unfinished only if it begins apart. -/
def lexesOn (closed : Bool) (cs : List Char) : Option (Bool × List Lexeme) :=
  if closed || cs.head?.any (!isWordChar ·) then
    match run .code cs with
    | (.code, ts) => some (true, ts)
    | (.word w, ts) => some (false, ts ++ [.word w])
    | _ => none
  else none

namespace Spelt

variable {closed closed' : Bool} {text more s : String} {ts us : List Lexeme} {cs : List Char}

/-- The empty text is spelt by no lexeme. -/
theorem nil : Spelt true "" [] :=
  Reads.nil

/-- A text may be taken for one that needs a gap behind it. -/
theorem loosen (h : Spelt closed text ts) : Spelt false text ts :=
  Reads.loosen h

/-- Texts are spelt in a row, where the first ends or the second begins apart. -/
theorem append (h : Spelt closed text ts) (hmore : Spelt closed' more us)
    (hjoin : closed = true ∨ BeginsApart more) : Spelt closed' (text ++ more) (ts ++ us) := by
  unfold Spelt at h hmore ⊢
  rw [String.toList_append]
  rcases hjoin with rfl | ⟨c, rest, hcs, hc⟩
  · exact h.append hmore
  · rw [hcs] at hmore ⊢
    exact h.loosen.append_gap hmore hc

/-- A template goes on with a whole piece of code. -/
theorem code (h : Spelt true text ts) (hmore : Spelt closed' more us) :
    Spelt closed' (text ++ more) (ts ++ us) :=
  h.append hmore (.inl rfl)

/-- A fixed text is spelt as its characters are. -/
theorem of_fragment (hs : s = String.ofList cs) (h : lexesOn closed cs = some (closed', ts)) :
    Spelt closed' s ts ∧ (closed = true ∨ BeginsApart s) := by
  have htoList : s.toList = cs := by rw [hs, String.toList_ofList]
  unfold lexesOn at h
  split at h
  next hjoin =>
    constructor
    · split at h
      next hrun =>
        cases h
        rw [Spelt, htoList]
        exact .closed hrun
      next hrun =>
        cases h
        rw [Spelt, htoList]
        exact .word hrun
      next => cases h
    · -- whatever stands in front has ended, or the fragment begins apart from it
      rcases Bool.or_eq_true_iff.1 hjoin with hclosed | hapart
      · exact .inl hclosed
      · obtain ⟨c, hc, hword⟩ := (Option.any_eq_true _ _).1 hapart
        obtain ⟨rest, rfl⟩ := List.head?_eq_some_iff.1 hc
        exact .inr ⟨c, rest, htoList, by simpa using hword⟩
  next => cases h

/-- A template begins with a fragment. -/
theorem first (s : String) (ts : List Lexeme) (hs : s = String.ofList cs)
    (h : lexesOn true cs = some (closed, ts)) : Spelt closed s ts :=
  (of_fragment hs h).1

/-- A template goes on with a fragment. -/
theorem fixed (h : Spelt closed text ts) (s : String) (us : List Lexeme) (hs : s = String.ofList cs)
    (hus : lexesOn closed cs = some (closed', us)) : Spelt closed' (text ++ s) (ts ++ us) :=
  h.append (of_fragment hs hus).1 (of_fragment hs hus).2

/-- A name is spelt as one word. -/
theorem name (s : String) : Spelt false (sanitize s) [.word (sanitize s).toList] :=
  Reads.word_of (sanitize_word s)

/-- Indentation is spelt by nothing. -/
theorem indentation (ctx : Context) : Spelt true ctx.indentation [] := by
  unfold Spelt
  rw [Context.indentation, String.toList_ofList]
  exact .blanks fun c hc => by rw [List.eq_of_mem_replicate hc]; decide

/-- A line is spelt as its text. -/
theorem line (h : Spelt closed text ts) (ctx : Context) : Spelt true (ctx.line text) ts := by
  have h := ((indentation ctx).code h).loosen.fixed "\n" [] rfl rfl
  rwa [List.nil_append, List.append_nil] at h

/-- The code of a part of a program. -/
theorem of_code {K : String → Prop} (h : Leads K [] [] closed text) :
    ∃ ts, Spelt closed text ts ∧ Nested ts := by
  obtain ⟨pieces, h⟩ := h
  exact ⟨_, h.reads, h.nest_eq⟩

/-- A text that is read to an end with a semicolon ends with that lexeme. -/
theorem semicoloned (h : Spelt true (text ++ ";\n") ts) (hnested : Nested ts) : Semicoloned ts := by
  obtain ⟨hrun⟩ := h
  rw [String.toList_append, run_append] at hrun
  have hts := congrArg Prod.snd hrun
  have hmode := congrArg Prod.fst hrun
  dsimp only at hts hmode
  generalize hbefore : run .code text.toList = before at hts hmode
  obtain ⟨mode, us⟩ := before
  dsimp only at hts hmode
  -- inside a string or a comment the text would go on
  have hend : ∃ finished, (run mode ";\n".toList).2 = finished ++ [.mark ';'] := by
    cases mode with
    | code => exact ⟨[], rfl⟩
    | word w => exact ⟨[.word w], rfl⟩
    | slash => exact ⟨[.mark '/'], rfl⟩
    | string | escape | comment | star => exact nomatch hmode
  obtain ⟨finished, hfinished⟩ := hend
  rw [hfinished, ← List.append_assoc] at hts
  subst hts
  refine ⟨us ++ finished, ?_, rfl⟩
  -- a semicolon neither opens nor closes a bracket
  rw [Nested, nest, List.foldlM_append] at hnested
  obtain ⟨pending, hpending, hlast⟩ := Option.bind_eq_some_iff.1 hnested
  cases pending with
  | nil => exact hpending
  | cons c outer =>
    have hmeet : meet (c :: outer) (.mark ';') = some (c :: outer) := rfl
    rw [List.foldlM_cons, hmeet] at hlast
    cases hlast

end Spelt

/-- The text stands between braces. -/
def Braces (text : String) : Prop :=
  ∃ ts, Spelt true text ts ∧ Curly ts

/-- The text is a condition with its branches. -/
def Branching (text : String) : Prop :=
  ∃ ts, Spelt true text ts ∧ Conditional ts

/-- The text is a declaration, a construct or a comment. -/
def SelfEnding (text : String) : Prop :=
  ∃ ts, Spelt true text ts ∧ Compound ts

/-! ## Templates -/

section Templates

variable {K : String → Prop} {condition body more : String}

/-- A closed text in braces is a block. -/
theorem Braces.of_closed (h : Closed K body) (ctx : Context) : Braces (braces ctx body) := by
  obtain ⟨ts, hts, hnested⟩ := Spelt.of_code h
  have hbraces := Spelt.first "\x7b\n" [.mark '\x7b'] rfl rfl |>.code hts
    |>.code (Spelt.indentation ctx) |>.fixed "\x7d" [.mark '\x7d'] rfl rfl
  exact ⟨_, hbraces, ts, hnested, by simp⟩

/-- So is one that collects its yields. -/
theorem Braces.collecting (h : Closed K body) (ctx : Context) : Braces (collecting ctx body) :=
  .of_closed (Leads.collected h ctx.deeper) ctx

namespace Branching

/-- The head of a condition, and its first branch. -/
theorem head (hc : Code K condition) (hb : Braces body) : ∃ c b, Round c ∧ Curly b ∧
    Spelt true ("if (__truthy(" ++ condition ++ ")) " ++ body)
      (.word "if".toList :: (c ++ b)) := by
  obtain ⟨cs, hcs, hnested⟩ := Spelt.of_code hc
  obtain ⟨b, hb, hcurly⟩ := hb
  have h := Spelt.first "if (__truthy("
      [.word "if".toList, .mark '(', .word "__truthy".toList, .mark '('] rfl rfl |>.code hcs
    |>.fixed ")) " [.mark ')', .mark ')'] rfl rfl |>.code hb
  exact ⟨_, b, round_truthy hnested, hcurly, by simpa using h⟩

/-- A condition with one branch. -/
theorem only (hc : Code K condition) (hb : Braces body) :
    Branching ("if (__truthy(" ++ condition ++ ")) " ++ body ++ "") := by
  obtain ⟨c, b, hround, hcurly, h⟩ := head hc hb
  rw [String.append_empty]
  exact ⟨_, h, .only hround hcurly⟩

/-- A condition with another branch, which is a block or a condition again. -/
theorem other (hc : Code K condition) (hb : Braces body) (he : Braces more ∨ Branching more) :
    Branching ("if (__truthy(" ++ condition ++ ")) " ++ body ++ (" else " ++ more)) := by
  obtain ⟨c, b, hround, hcurly, h⟩ := head hc hb
  have helse {e : List Lexeme} (he : Spelt true more e) :=
    h.code ((Spelt.first " else " [.word "else".toList] rfl rfl).code he)
  rcases he with ⟨e, hspelt, he⟩ | ⟨e, hspelt, he⟩
  · exact ⟨_, by simpa using helse hspelt, .last hround hcurly he⟩
  · exact ⟨_, by simpa using helse hspelt, .more hround hcurly he⟩

end Branching

namespace SelfEnding

/-- A text that ends itself does so on a line. -/
theorem line {text : String} (h : SelfEnding text) (ctx : Context) : SelfEnding (ctx.line text) := by
  obtain ⟨ts, hts, hcompound⟩ := h
  exact ⟨ts, hts.line ctx, hcompound⟩

/-- A block ends itself. -/
theorem block (h : Braces body) : SelfEnding body := by
  obtain ⟨b, hb, hcurly⟩ := h
  exact ⟨b, hb, .block hcurly⟩

/-- So does a condition with its branches. -/
theorem conditional (h : Branching body) : SelfEnding body := by
  obtain ⟨ts, hts, hconditional⟩ := h
  exact ⟨ts, hts, .conditional hconditional⟩

/-- So does a comment. -/
theorem comment (s : String) : SelfEnding (unsupported s) :=
  ⟨_, reads_unsupported s, .comment _⟩

/-- So does a loop with a condition. -/
theorem whileLoop (hc : Code K condition) (hb : Braces body) :
    SelfEnding ("while (__truthy(" ++ condition ++ ")) " ++ body) := by
  obtain ⟨cs, hcs, hnested⟩ := Spelt.of_code hc
  obtain ⟨b, hb, hcurly⟩ := hb
  have h := Spelt.first "while (__truthy("
      [.word "while".toList, .mark '(', .word "__truthy".toList, .mark '('] rfl rfl |>.code hcs
    |>.fixed ")) " [.mark ')', .mark ')'] rfl rfl |>.code hb
  exact ⟨_, by simpa using h, .whileLoop (round_truthy hnested) hcurly⟩

/-- So does an endless one. -/
theorem loop (hb : Braces body) : SelfEnding ("for (let __n = 0; ; __n++) " ++ body) := by
  obtain ⟨b, hb, hcurly⟩ := hb
  have h := Spelt.first "for (let __n = 0; ; __n++) "
      [.word "for".toList, .mark '(', .word "let".toList, .word "__n".toList, .mark '=',
        .word "0".toList, .mark ';', .mark ';', .word "__n".toList, .mark '+', .mark '+', .mark ')']
      rfl rfl |>.code hb
  -- the head of the loop counts and has no condition
  have hround : Round [.mark '(', .word "let".toList, .word "__n".toList, .mark '=',
      .word "0".toList, .mark ';', .mark ';', .word "__n".toList, .mark '+', .mark '+', .mark ')'] :=
    ⟨[.word "let".toList, .word "__n".toList, .mark '=', .word "0".toList, .mark ';', .mark ';',
      .word "__n".toList, .mark '+', .mark '+'], by decide, rfl⟩
  exact ⟨_, h, .forLoop hround hcurly⟩

/-- So does one over the items of a value. -/
theorem forEach (var : String) (hi : Code K condition) (hb : Braces body) :
    SelfEnding ("for (const " ++ sanitize var ++ " of __iter(" ++ condition ++ ")) " ++ body) := by
  obtain ⟨cs, hcs, hnested⟩ := Spelt.of_code hi
  obtain ⟨b, hb, hcurly⟩ := hb
  have h := Spelt.first "for (const " [.word "for".toList, .mark '(', .word "const".toList] rfl rfl
    |>.code (Spelt.name var)
    |>.fixed " of __iter(" [.word "of".toList, .word "__iter".toList, .mark '('] rfl rfl
    |>.code hcs |>.fixed ")) " [.mark ')', .mark ')'] rfl rfl |>.code hb
  have hcall : Nested (.mark '(' :: (cs ++ [.mark ')'])) := hnested.bracketed rfl
  -- the brackets of the head hold those of the call, behind three words
  have hround : Round (.mark '(' :: .word "const".toList :: .word (sanitize var).toList ::
      .word "of".toList :: .word "__iter".toList :: .mark '(' :: (cs ++ [.mark ')', .mark ')'])) :=
    ⟨_, (((hcall.word "__iter".toList).word "of".toList).word (sanitize var).toList).word
      "const".toList, by simp⟩
  exact ⟨_, by simpa using h, .forLoop hround hcurly⟩

/-- So does a try statement. -/
theorem tryCatch (hb : Braces body) (hh : Braces more) :
    SelfEnding ("try " ++ body ++ " catch (__e) " ++ more) := by
  obtain ⟨b, hb, hcurly⟩ := hb
  obtain ⟨handler, hhandler, hcurly'⟩ := hh
  have h := Spelt.first "try " [.word "try".toList] rfl rfl |>.code hb
    |>.fixed " catch (__e) " [.word "catch".toList, .mark '(', .word "__e".toList, .mark ')'] rfl rfl
    |>.code hhandler
  have hround : Round [.mark '(', .word "__e".toList, .mark ')'] := ⟨[.word "__e".toList], rfl, rfl⟩
  exact ⟨_, by simpa using h, .tryCatch hcurly hround hcurly'⟩

/-- So does the declaration of a function. -/
theorem function (name : String) (params : List String) (hb : Braces body) :
    SelfEnding ("async function " ++ sanitize name ++ "(" ++ paramList params ++ ") " ++ body) := by
  obtain ⟨ps, hps, hnested⟩ := Spelt.of_code (K := fun _ => True) (.paramList params)
  obtain ⟨b, hb, hcurly⟩ := hb
  have h := Spelt.first "async function " [.word "async".toList, .word "function".toList] rfl rfl
    |>.code (Spelt.name name) |>.fixed "(" [.mark '('] rfl rfl |>.code hps
    |>.fixed ") " [.mark ')'] rfl rfl |>.code hb
  exact ⟨_, by simpa using h, .function ⟨ps, hnested, rfl⟩ hcurly⟩

/-- A class that declares its name. -/
theorem classDecl (name : String) (parent : Option String) (h : Closed K body) (ctx : Context) :
    SelfEnding (ctx.line (match parent with
        | some p => "class " ++ sanitize name ++ " extends " ++ sanitize p ++ " \x7b"
        | none => "class " ++ sanitize name ++ " \x7b") ++ body ++ ctx.line "\x7d") := by
  obtain ⟨ts, hts, hnested⟩ := Spelt.of_code h
  have hcurly : Curly (.mark '\x7b' :: (ts ++ [.mark '\x7d'])) := ⟨ts, hnested, rfl⟩
  have hname := Spelt.first "class " [.word "class".toList] rfl rfl |>.code (Spelt.name name)
  have hclosing := (Spelt.first "\x7d" [.mark '\x7d'] rfl rfl).line ctx
  -- with or without the name of a parent between the name and the brace
  cases parent with
  | none =>
    have h := ((hname.fixed " \x7b" [.mark '\x7b'] rfl rfl).line ctx).code hts |>.code hclosing
    exact ⟨_, by simpa using h, .classDecl hcurly⟩
  | some p =>
    have h := ((hname.fixed " extends " [.word "extends".toList] rfl rfl
      |>.code (Spelt.name p) |>.fixed " \x7b" [.mark '\x7b'] rfl rfl).line ctx).code hts
      |>.code hclosing
    exact ⟨_, by simpa using h, .subclass hcurly⟩

/-- A switch, with its label. -/
theorem switch (n : Nat) (h : Closed K body) (ctx : Context) :
    SelfEnding (ctx.line ("__sw" ++ toString n ++ ": \x7b") ++ body ++ ctx.line "\x7d") := by
  obtain ⟨ts, hts, hnested⟩ := Spelt.of_code h
  have hlabel : Spelt false ("__sw" ++ toString n) [.word ("__sw" ++ toString n).toList] :=
    (Piece.reads (.label n) nofun).1
  have h := ((hlabel.fixed ": \x7b" [.mark ':', .mark '\x7b'] rfl rfl).line ctx).code hts
    |>.code ((Spelt.first "\x7d" [.mark '\x7d'] rfl rfl).line ctx)
  exact ⟨_, by simpa using h, .labelled ⟨ts, hnested, rfl⟩⟩

end SelfEnding

end Templates

end BrailleScript.JavaScript
