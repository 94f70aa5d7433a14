import BrailleScript.Proofs.JavaScript.Scan

/-!
# Landmarks of emitted code

A reader of lexemes that notes what is declared and assigned, where jumps go, where values are
yielded, and what the braces around each of these belong to: a loop, a label, a function with its
parameters.  It keeps a stack with a frame for every open bracket, as `nest` does, and in each frame
what stands directly behind the place where it is.

## Key results

- `outline`: the landmarks of a text
- `read_append`: a text of two parts is read part by part
-/

namespace BrailleScript.JavaScript

/-- The words that declare a name. -/
inductive Binder where
  | «let» | constant | «class» | function
  deriving DecidableEq, Repr

/-- What the braces around some statements belong to. -/
inductive Kind where
  | plain
  | loop
  | labelled (label : List Char)
  | function (params : List (List Char))
  deriving DecidableEq, Repr

/-- What is noted of emitted code. -/
inductive Landmark where
  | binds (how : Binder) (name : List Char)
  /-- A statement that assigns to a name. -/
  | assigns (name : List Char)
  | jump (label : Option (List Char))
  /-- A value is added to those that the function has yielded. -/
  | pushes
  /-- The support code is asked to fail. -/
  | fails
  | block (kind : Kind) (inside : List Landmark)

mutual

/-- The labels of the blocks among some landmarks, in the order of the text. -/
def Landmark.labels : Landmark → List (List Char)
  | .block (.labelled label) inside => label :: labelsOf inside
  | .block .plain inside | .block .loop inside | .block (.function _) inside => labelsOf inside
  | .binds .. | .assigns _ | .jump _ | .pushes | .fails => []

/-- The labels of landmarks in a row. -/
def labelsOf : List Landmark → List (List Char)
  | [] => []
  | mark :: rest => mark.labels ++ labelsOf rest

end

/-- One landmark has its own labels. -/
theorem labelsOf_singleton (mark : Landmark) : labelsOf [mark] = mark.labels :=
  List.append_nil _

/-- Landmarks in a row have the labels of both rows. -/
theorem labelsOf_append (m m' : List Landmark) : labelsOf (m ++ m') = labelsOf m ++ labelsOf m' := by
  induction m with
  | nil => rfl
  | cons mark rest ih => rw [List.cons_append, labelsOf, labelsOf, ih, List.append_assoc]

/-- A landmark stands among some others, or inside a block among them. -/
inductive Landmark.Within (mark : Landmark) : List Landmark → Prop
  | here {marks} (h : mark ∈ marks) : Within mark marks
  | inside {kind inner marks} (h : .block kind inner ∈ marks) (hmark : Within mark inner) :
    Within mark marks

namespace Landmark.Within

variable {mark head : Landmark} {marks marks' : List Landmark} {kind : Kind} {inner : List Landmark}

/-- A landmark is within two rows when it is within either. -/
theorem append_iff : mark.Within (marks ++ marks') ↔ mark.Within marks ∨ mark.Within marks' := by
  -- a landmark stands in the row itself or inside one of its blocks
  constructor
  · rintro (h | ⟨h, hmark⟩)
    · exact (List.mem_append.1 h).imp .here .here
    · exact (List.mem_append.1 h).imp (.inside · hmark) (.inside · hmark)
  · rintro ((h | ⟨h, hmark⟩) | (h | ⟨h, hmark⟩))
    · exact .here (List.mem_append_left _ h)
    · exact .inside (List.mem_append_left _ h) hmark
    · exact .here (List.mem_append_right _ h)
    · exact .inside (List.mem_append_right _ h) hmark

/-- It is within a block when it is that block or inside of it. -/
theorem block_iff : mark.Within (.block kind inner :: marks) ↔
    (mark = .block kind inner ∨ mark.Within inner) ∨ mark.Within marks := by
  constructor
  · -- the landmark stands in the row itself, or inside of a block of the row
    rintro (h | ⟨h, hmark⟩)
    · exact (List.mem_cons.1 h).imp .inl .here
    · rcases List.mem_cons.1 h with heq | h
      · cases heq
        exact .inl (.inr hmark)
      · exact .inr (.inside h hmark)
  · rintro ((rfl | hmark) | (h | ⟨h, hmark⟩))
    · exact .here (.head _)
    · exact .inside (.head _) hmark
    · exact .here (.tail _ h)
    · exact .inside (.tail _ h) hmark

/-- Nothing stands inside a landmark that is no block. -/
theorem other_iff (hhead : ∀ kind inner, head ≠ .block kind inner) :
    mark.Within (head :: marks) ↔ mark = head ∨ mark.Within marks := by
  constructor
  · rintro (h | ⟨h, hmark⟩)
    · exact (List.mem_cons.1 h).imp_right .here
    · -- the head of the row is no block to look into
      rcases List.mem_cons.1 h with heq | h
      · exact absurd heq.symm (hhead _ _)
      · exact .inr (.inside h hmark)
  · rintro (rfl | (h | ⟨h, hmark⟩))
    · exact .here (.head _)
    · exact .here (.tail _ h)
    · exact .inside (.tail _ h) hmark

/-- Nothing is within an empty row. -/
theorem not_nil : ¬mark.Within [] := by
  rintro (h | ⟨h, -⟩) <;> cases h

end Landmark.Within

/-- Every block among some landmarks has the property, the blocks inside them included. -/
def EveryBlock (P : Kind → List Landmark → Prop) (marks : List Landmark) : Prop :=
  ∀ kind inner, (Landmark.block kind inner).Within marks → P kind inner

namespace EveryBlock

variable {P : Kind → List Landmark → Prop} {head : Landmark} {marks marks' : List Landmark}
  {kind : Kind} {inner : List Landmark}

/-- Every block of an empty row fits. -/
theorem nil : EveryBlock P [] :=
  fun _ _ h => absurd h Landmark.Within.not_nil

/-- Every block fits in a row when it fits in both parts. -/
theorem append (h : EveryBlock P marks) (h' : EveryBlock P marks') :
    EveryBlock P (marks ++ marks') :=
  fun kind inner hw => (Landmark.Within.append_iff.1 hw).elim (h kind inner) (h' kind inner)

/-- A block that fits, with inner blocks that fit, may be put in front. -/
theorem block (hblock : P kind inner) (hinner : EveryBlock P inner) (h : EveryBlock P marks) :
    EveryBlock P (.block kind inner :: marks) := by
  intro kind' inner' hw
  rcases Landmark.Within.block_iff.1 hw with (heq | hw) | hw
  · cases heq
    exact hblock
  · exact hinner kind' inner' hw
  · exact h kind' inner' hw

/-- So may every landmark that is no block. -/
theorem other (hhead : ∀ kind inner, head ≠ .block kind inner) (h : EveryBlock P marks) :
    EveryBlock P (head :: marks) := by
  intro kind inner hw
  rcases (Landmark.Within.other_iff hhead).1 hw with heq | hw
  · exact absurd heq.symm (hhead _ _)
  · exact h kind inner hw

end EveryBlock

/-- What stands directly behind the reader. -/
inductive Behind where
  /-- Nothing that matters.  A statement may begin here, or not. -/
  | ready (start : Bool)
  /-- A name, with which a statement begins or not. -/
  | named (start : Bool) (name : List Char)
  | declaring (how : Binder)
  /-- What comes before a list of parameters. -/
  | signature
  | parameters (names : List (List Char))
  /-- The word of a loop, and then its head. -/
  | heading
  | looping
  | labelled (label : List Char)
  | jumping
  /-- The values yielded so far, of which something is taken. -/
  | collected
  deriving DecidableEq, Repr

/-- The kinds of brackets. -/
inductive Group where
  | round | square | curly
  deriving DecidableEq, Repr

/-- A bracket that is open, with what it means. -/
inductive Bracket where
  | within (group : Group)
  /-- The brackets around a list of parameters, with those read so far. -/
  | params (names : List (List Char))
  deriving DecidableEq, Repr

/-- An open bracket, with the landmarks inside it so far. -/
structure Frame where
  bracket : Bracket
  behind : Behind
  marks : List Landmark

/-- The words that are no names. -/
inductive Keyword where
  | binder (how : Binder)
  | async
  | loop
  | jump
  /-- A value follows. -/
  | value
  | failure
  deriving DecidableEq

/-- The words that mean something to the outline. -/
def keywords : List (List Char × Keyword) :=
  [(['l', 'e', 't'], .binder .let), (['c', 'o', 'n', 's', 't'], .binder .constant),
    (['c', 'l', 'a', 's', 's'], .binder .class),
    (['f', 'u', 'n', 'c', 't', 'i', 'o', 'n'], .binder .function),
    (['a', 's', 'y', 'n', 'c'], .async), (['w', 'h', 'i', 'l', 'e'], .loop),
    (['f', 'o', 'r'], .loop), (['b', 'r', 'e', 'a', 'k'], .jump),
    (['r', 'e', 't', 'u', 'r', 'n'], .value), (['a', 'w', 'a', 'i', 't'], .value),
    (['_', '_', 'f', 'a', 'i', 'l'], .failure)]

namespace Frame

/-- The place outside all brackets. -/
def outermost : Frame :=
  ⟨.within .curly, .ready true, []⟩

/-- Notes what is a landmark of statements, which stand between braces only. -/
def noting (group : Group) (mark : Landmark) (marks : List Landmark) : List Landmark :=
  match group with
  | .curly => marks ++ [mark]
  | _ => marks

/-- Reads a word that is no name.  A class declares a name only where a statement begins. -/
def keyword (f : Frame) : Keyword → Frame
  | .binder .class =>
    match f.behind with
    | .ready true => { f with behind := .declaring .class }
    | _ => { f with behind := .ready false }
  | .binder how => { f with behind := .declaring how }
  | .async => { f with behind := .signature }
  | .loop => { f with behind := .heading }
  | .jump => { f with behind := .jumping }
  | .value => { f with behind := .ready false }
  | .failure => { f with behind := .ready false, marks := f.marks ++ [.fails] }

/-- Reads a name. -/
def name (f : Frame) (w : List Char) : Frame :=
  match f.bracket with
  | .params names => { f with bracket := .params (names ++ [w]) }
  | .within group =>
    match f.behind with
    | .declaring .function =>
      { f with behind := .signature, marks := noting group (.binds .function w) f.marks }
    | .declaring how =>
      { f with behind := .ready false, marks := noting group (.binds how w) f.marks }
    | .jumping => { f with behind := .ready false, marks := f.marks ++ [.jump (some w)] }
    | .collected =>
      { f with
        behind := .ready false
        marks := if w = ['p', 'u', 's', 'h'] then f.marks ++ [.pushes] else f.marks }
    | .ready start => { f with behind := .named start w }
    | _ => { f with behind := .named false w }

/-- What a word changes in a frame. -/
def word (f : Frame) (w : List Char) : Frame :=
  match keywords.lookup w with
  | some k => f.keyword k
  | none => f.name w

/-- Reads a mark that is no bracket. -/
def mark (f : Frame) : Char → Frame
  | ';' =>
    match f.behind with
    | .jumping => { f with behind := .ready true, marks := f.marks ++ [.jump none] }
    | _ => { f with behind := .ready true }
  | '=' =>
    match f.bracket, f.behind with
    | .within group, .named true name =>
      { f with behind := .ready false, marks := noting group (.assigns name) f.marks }
    | _, .parameters names => { f with behind := .parameters names }
    | _, _ => { f with behind := .ready false }
  | '>' =>
    match f.behind with
    | .parameters names => { f with behind := .parameters names }
    | _ => { f with behind := .ready false }
  | ':' =>
    match f.behind with
    | .named true label => { f with behind := .labelled label }
    | _ => { f with behind := .ready false }
  | '.' =>
    match f.behind with
    | .named true name =>
      { f with behind := if name = ['_', '_', 'y'] then .collected else .ready false }
    | _ => { f with behind := .ready false }
  | _ => { f with behind := .ready false }

/-- The frame of a bracket that opens inside another one. -/
def inner? (f : Frame) : Char → Option Frame
  | '(' =>
    match f.behind with
    | .signature => some ⟨.params [], .ready false, []⟩
    | _ => some ⟨.within .round, .ready false, []⟩
  | '[' => some ⟨.within .square, .ready false, []⟩
  | '\x7b' => some ⟨.within .curly, .ready true, []⟩
  | _ => none

/-- What stands behind a round bracket that is no list of parameters. -/
def afterRound (f : Frame) (inside : List Landmark) : Frame :=
  match f.behind with
  | .heading => { f with behind := .looping, marks := f.marks ++ inside }
  | _ => { f with behind := .ready false, marks := f.marks ++ inside }

/-- What stands behind a square bracket, which may be the name of a method. -/
def afterSquare (f : Frame) (inside : List Landmark) : Frame :=
  match f.behind with
  | .signature => { f with marks := f.marks ++ inside }
  | _ => { f with behind := .ready false, marks := f.marks ++ inside }

/-- What stands behind braces.  Braces that belong to nothing hold the entries of a map if they
stand in another bracket. -/
def afterCurly (f : Frame) (inside : List Landmark) : Frame :=
  match f.behind with
  | .looping => { f with behind := .ready true, marks := f.marks ++ [.block .loop inside] }
  | .labelled label =>
    { f with behind := .ready true, marks := f.marks ++ [.block (.labelled label) inside] }
  | .parameters names =>
    { f with behind := .ready true, marks := f.marks ++ [.block (.function names) inside] }
  | _ =>
    match f.bracket with
    | .within .curly =>
      { f with behind := .ready true, marks := f.marks ++ [.block .plain inside] }
    | _ => { f with behind := .ready false, marks := f.marks ++ inside }

/-- Closes the inner one of two frames, if this is its closing bracket. -/
def close? (f outer : Frame) (c : Char) : Option Frame :=
  match c, f.bracket with
  | ')', .within .round => some (outer.afterRound f.marks)
  | ')', .params names => some { outer with behind := .parameters names }
  | ']', .within .square => some (outer.afterSquare f.marks)
  | '\x7d', .within .curly => some (outer.afterCurly f.marks)
  | _, _ => none

end Frame

/-- One more lexeme; the innermost frame comes first. -/
def meetLexeme : List Frame → Lexeme → Option (List Frame)
  | [], _ => none
  | f :: fs, .word w => some (f.word w :: fs)
  | f :: fs, .string _ => some ({ f with behind := .ready false } :: fs)
  | f :: fs, .comment _ => some (f :: fs)
  | f :: fs, .mark c =>
    match f.inner? c with
    | some inner => some (inner :: f :: fs)
    | none =>
      if isClosing c then
        match fs with
        | [] => none
        | outer :: fs => (f.close? outer c).map (· :: fs)
      else some (f.mark c :: fs)

/-- The frames after some lexemes. -/
def read (frames : List Frame) (ts : List Lexeme) : Option (List Frame) :=
  ts.foldlM meetLexeme frames

/-- The landmarks of some lexemes, if every bracket in them is closed by its own. -/
def outline (ts : List Lexeme) : Option (List Landmark) :=
  match read [.outermost] ts with
  | some [f] => some f.marks
  | _ => none

/-- Lexemes are read one after the other. -/
theorem read_append {frames frames' : List Frame} {ts us : List Lexeme}
    (h : read frames ts = some frames') : read frames (ts ++ us) = read frames' us := by
  rw [read, List.foldlM_append]
  exact congrArg (· >>= fun frames => read frames us) h

end BrailleScript.JavaScript
