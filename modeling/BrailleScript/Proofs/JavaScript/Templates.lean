import BrailleScript.Proofs.JavaScript.Trails

/-!
# What the templates of the emitter say

Each template puts values and statements between fragments of the emitter's own.  What it declares,
where it jumps and what its braces belong to is read off the fragments; the landmarks of the parts
stand in between, in the order of the text.

## Key results

- `Value.call`, `Value.indexed`, `Value.binaryText`: values
- `Lines.declaration`, `Lines.function`, `Lines.switch`: statements
- `Braced.collecting`: the body of a function that collects its yields
-/

namespace BrailleScript.JavaScript

open Scan

namespace Trail

variable {frames last outer : List Frame} {closed : Bool} {text : String} {f : Frame}

/-- A quoted text goes on with the frames and is a value there. -/
theorem quoted (h : Trail frames true text (f :: outer)) (s : String) :
    Trail frames true (text ++ Json.quote s) ({ f with behind := .ready false } :: outer) :=
  h.append ⟨_, reads_quote s, rfl⟩ (.inl rfl)

/-- The names of parameters are collected between their brackets. -/
theorem params {names : List String} (h : ∀ n ∈ names, IsName n) (before : List (List Char)) :
    Trail (⟨.params before, .ready false, []⟩ :: outer) false (commaList names)
      (⟨.params (before ++ names.map (·.toList)), .ready false, []⟩ :: outer) := by
  induction names generalizing before with
  | nil =>
    rw [List.map_nil, List.append_nil]
    exact nil.loosen
  | cons n rest ih =>
    rw [List.forall_mem_cons] at h
    have hfirst : Trail (⟨.params before, .ready false, []⟩ :: outer) false n
        (⟨.params (before ++ [n.toList]), .ready false, []⟩ :: outer) := word _ _ h.1
    -- between two names stands a comma, and behind the last one nothing
    cases rest with
    | nil => exact hfirst
    | cons m rest =>
      rw [commaList, String.intercalate_cons_cons, List.map_cons, List.append_cons]
      exact (hfirst.fixed ", " rfl rfl).append (ih h.2 _) (.inl rfl)

/-- The list of parameters gives its names to the bracket around it. -/
theorem paramList (h : Trail frames true text (⟨.params [], .ready false, []⟩ :: outer))
    (params : List String) : Trail frames false (text ++ paramList params)
      (⟨.params ((params.map sanitize).map (·.toList)), .ready false, []⟩ :: outer) := by
  have hnames : ∀ n ∈ params.map sanitize, IsName n :=
    List.forall_mem_map.2 fun p _ => isName_sanitize p
  exact h.append (Trail.params hnames []) (.inl rfl)

end Trail

/-! ## Values -/

namespace Value

variable {a b c : String} {ma mb mc : List Landmark}

/-- A text that leads back to where it began is a value. -/
theorem of_trail {text : String} {marks : List Landmark}
    (h : ∀ group start before frames,
      Trail (place group start before frames) true text
        (place group false (before ++ marks) frames)) : Value text marks :=
  fun group start before frames => ⟨_, .ready _, (h group start before frames).loosen⟩

/-- A name is a value without landmarks. -/
theorem of_name {text : String} (h : IsName text) : Value text [] := by
  intro group start before frames
  rw [List.append_nil]
  exact ⟨_, .named _ _, Trail.word _ _ h⟩

/-- So is a quoted text. -/
theorem quoted (s : String) : Value (Json.quote s) [] := by
  refine of_trail fun group start before frames => ?_
  rw [List.append_nil]
  exact ⟨_, reads_quote s, rfl⟩

/-- What stands behind the reader inside a number. -/
inductive InNumber : Behind → Prop
  | ready (start : Bool) : InNumber (.ready start)
  | named (start : Bool) {name : List Char} (h : name ≠ ['_', '_', 'y']) :
    InNumber (.named start name)

/-- Inside of a number nothing is pending. -/
theorem InNumber.calm {b : Behind} (h : InNumber b) : b.Calm := by
  cases h with
  | ready start => exact .ready start
  | named start => exact .named start _

/-- Plain words mean nothing to the outline. -/
theorem lookup_of_isPlain {w : List Char} (h : w.all isPlain = true) :
    keywords.lookup w = none := by
  have hkeywords : ∀ k ∈ keywords, k.1.all isPlain = false := by decide
  refine List.lookup_eq_none_iff.2 fun k hk => ?_
  rw [bne_iff_ne]
  rintro rfl
  rw [hkeywords k hk] at h
  cases h

/-- A plain lexeme goes on with a number. -/
theorem InNumber.meet {t : Lexeme} (ht : t.isPlain = true) {b : Behind} (hb : InNumber b)
    (group : Group) (before : List Landmark) (frames : List Frame) :
    ∃ b', InNumber b' ∧ meetLexeme (⟨.within group, b, before⟩ :: frames) t =
      some (⟨.within group, b', before⟩ :: frames) := by
  cases t with
  | word w =>
    have hfree : keywords.lookup w = none := lookup_of_isPlain ht
    -- the name of the collector is not plain, so no point behind the word makes a push of it
    have hname : w ≠ ['_', '_', 'y'] := by
      rintro rfl
      exact absurd ht (by decide)
    have hread : meetLexeme (⟨.within group, b, before⟩ :: frames) (.word w) =
        some (Frame.name ⟨.within group, b, before⟩ w :: frames) := by
      rw [meetLexeme, Frame.word, hfree]
    rw [hread]
    cases hb with
    | ready start => exact ⟨_, .named start hname, rfl⟩
    | named start => exact ⟨_, .named false hname, rfl⟩
  | mark c =>
    have hc : (c = '.' ∨ c = '-') ∨ c = '+' := by simpa [Lexeme.isPlain] using ht
    -- a point leaves the name behind it, and the signs begin anew
    rcases hc with (rfl | rfl) | rfl
    · cases hb with
      | ready start => exact ⟨_, .ready false, rfl⟩
      | @named start name hname =>
        refine ⟨.ready false, .ready false, ?_⟩
        cases start with
        | true =>
          have hdot : Frame.mark ⟨.within group, .named true name, before⟩ '.' =
              ⟨.within group, .ready false, before⟩ := by simp [Frame.mark, hname]
          exact congrArg (fun f => some (f :: frames)) hdot
        | false => rfl
    · exact ⟨_, .ready false, rfl⟩
    · exact ⟨_, .ready false, rfl⟩
  | string cs | comment cs => cases ht

/-- A count is written like a name. -/
theorem isName_count (n : Nat) : IsName (toString n) :=
  ⟨toString_word n, lookup_of_isPlain (List.all_eq_true.2 fun _ hc =>
    isPlain_of_isDigit (isDigit_of_mem_toString hc))⟩

/-- A number is a value. -/
theorem number (x : Float) : Value (Number.text x) [] := by
  obtain ⟨hreads, hplain⟩ := reads_plain fun _ => isPlain_of_mem_numberText (x := x)
  -- lexeme by lexeme the frame stays inside of a number
  have hread {ts : List Lexeme} (hts : ∀ t ∈ ts, t.isPlain = true) {b : Behind}
      (hb : InNumber b) (group : Group) (before : List Landmark) (frames : List Frame) :
      ∃ b', InNumber b' ∧ read (⟨.within group, b, before⟩ :: frames) ts =
        some (⟨.within group, b', before⟩ :: frames) := by
    induction ts generalizing b with
    | nil => exact ⟨b, hb, rfl⟩
    | cons t ts ih =>
      rw [List.forall_mem_cons] at hts
      obtain ⟨b', hb', hmeet⟩ := hb.meet hts.1 group before frames
      obtain ⟨last, hlast, hrest⟩ := ih hts.2 hb'
      exact ⟨last, hlast, by rw [read, List.foldlM_cons, hmeet]; exact hrest⟩
  intro group start before frames
  obtain ⟨b, hb, hts⟩ := hread hplain (.ready start) group before frames
  rw [List.append_nil]
  exact ⟨b, hb.calm, _, hreads, hts⟩

/-- A word of the language that is a value. -/
theorem of_fixed (s : String) {cs : List Char} (hs : s = String.ofList cs) {closed : Bool}
    (h : ∀ group start before frames, readsOn true (place group start before frames) cs =
      some (closed, ⟨.within group, .named start cs, before⟩ :: frames)) : Value s [] := by
  intro group start before frames
  rw [List.append_nil]
  exact ⟨_, .named start cs, (Trail.first _ s hs (h group start before frames)).loosen⟩

/-- So is the null. -/
theorem null : Value "null" [] :=
  of_fixed "null" rfl fun _ _ _ _ => rfl

/-- So is the current object. -/
theorem this : Value "this" [] :=
  of_fixed "this" rfl fun _ _ _ _ => rfl

/-- So is a truth value. -/
theorem bool (b : Bool) : Value (if b then "true" else "false") [] := by
  cases b with
  | true => exact of_fixed "true" rfl fun _ _ _ _ => rfl
  | false => exact of_fixed "false" rfl fun _ _ _ _ => rfl

/-- So is a null behind a placeholder. -/
theorem placeholderNull (s : String) : Value (unsupported s ++ " null") [] := by
  intro group start before frames
  have hcomment : Trail (⟨.within group, .ready start, before⟩ :: frames) true (unsupported s)
      (⟨.within group, .ready start, before⟩ :: frames) := ⟨_, reads_unsupported s, rfl⟩
  rw [List.append_nil]
  exact ⟨_, .named start _, hcomment.fixed " null" rfl rfl⟩

/-- Values in a row, between commas. -/
theorem commaList {texts : List String} {marks : List Landmark} (h : Values texts marks) :
    Value (commaList texts) marks := by
  induction h with
  | nil =>
    intro group start before frames
    rw [List.append_nil]
    exact ⟨_, .ready start, Trail.nil.loosen⟩
  | @cons t ts m ms h hs ih =>
    cases hs with
    | nil =>
      rw [List.append_nil]
      exact h
    | @cons u us n ns hu hus =>
      intro group start before frames
      rw [JavaScript.commaList, String.intercalate_cons_cons]
      -- the other values begin behind the first one's landmarks
      obtain ⟨b, hb, hrest⟩ := ih group false (before ++ m) frames
      have hfirst : Trail (⟨.within group, .ready start, before⟩ :: frames) true (t ++ ", ")
          (⟨.within group, .ready false, before ++ m⟩ :: frames) := by
        obtain ⟨b, hb, ht⟩ := h group start before frames
        exact ht.fixed ", " rfl ((readsOn_settled hb rfl).trans rfl)
      rw [← List.append_assoc]
      exact ⟨b, hb, hfirst.append hrest (.inl rfl)⟩

/-! ### Operators -/

/-- Both of two conditions have the landmarks of the two. -/
theorem both (ha : Value a ma) (hb : Value b mb) : Value (bothText a b) (ma ++ mb) :=
  of_trail fun g s b fs => Trail.first (place g s b fs) "(__truthy(" rfl rfl |>.value ha ") && __truthy(" rfl rfl rfl
    |>.value hb "))" rfl rfl rfl

/-- So has either of them. -/
theorem either (ha : Value a ma) (hb : Value b mb) : Value (eitherText a b) (ma ++ mb) :=
  of_trail fun g s b fs => Trail.first (place g s b fs) "(__truthy(" rfl rfl |>.value ha ") || __truthy(" rfl rfl rfl
    |>.value hb "))" rfl rfl rfl

/-- So has either connective of them. -/
theorem logicalText (op : LogicalOp) (ha : Value a ma) (hb : Value b mb) :
    Value (logicalText op a b) (ma ++ mb) := by
  cases op with
  | and => exact both ha hb
  | or => exact either ha hb

/-- A unary operator adds no landmark. -/
theorem unaryText (op : UnaryOp) (ha : Value a ma) : Value (unaryText op a) ma := by
  cases op with
  | not =>
    exact of_trail fun g s b fs => Trail.first (place g s b fs) "!__truthy(" rfl rfl |>.value ha ")" rfl rfl rfl
  | negate => exact of_trail fun g s b fs => Trail.first (place g s b fs) "(-" rfl rfl |>.value ha ")" rfl rfl rfl

/-- Two operands behind the name of a support function. -/
theorem support {head : String} {cs : List Char} (hs : head = String.ofList cs)
    (h : ∀ group start before frames, ∃ start' word,
      readsOn true (place group start before frames) cs = some (true,
        place .round false [] (⟨.within group, .named start' word, before⟩ :: frames)))
    (ha : Value a ma) (hb : Value b mb) : Value (head ++ a ++ ", " ++ b ++ ")") (ma ++ mb) :=
  of_trail fun g s before fs => by
    obtain ⟨start', word, hhead⟩ := h g s before fs
    exact Trail.first (place g s before fs) head hs hhead |>.value ha ", " rfl rfl rfl
      |>.value hb ")" rfl rfl rfl

/-- Two operands around the sign of an operator. -/
theorem operation {sign : String} {cs : List Char} (hs : sign = String.ofList cs)
    (h : ∀ before frames, readsOn false (place .round false before frames) (' ' :: cs ++ [' ']) =
      some (true, place .round false before frames)) (hsettles : settles (' ' :: cs ++ [' ']) = true)
    (ha : Value a ma) (hb : Value b mb) :
    Value ("(" ++ a ++ " " ++ sign ++ " " ++ b ++ ")") (ma ++ mb) := by
  -- the sign is read together with the blanks around it
  have htext : "(" ++ a ++ " " ++ sign ++ " " ++ b ++ ")" =
      "(" ++ a ++ String.ofList (' ' :: cs ++ [' ']) ++ b ++ ")" := by
    rw [String.ofList_append, ← List.singleton_append, String.ofList_append, ← hs]
    simp only [String.append_assoc]
  rw [htext]
  exact of_trail fun g s before fs => Trail.first (place g s before fs) "(" rfl rfl
    |>.value ha _ rfl (h _ _) hsettles |>.value hb ")" rfl rfl rfl

/-- Nor does a binary operator. -/
theorem binaryText {op : Operator} (hop : op.isBinary = true) (ha : Value a ma)
    (hb : Value b mb) : Value (binaryText unsupported op a b) (ma ++ mb) := by
  cases op with
  | plus | slash | percent | equal | notEqual =>
    exact support rfl (fun _ _ _ _ => ⟨_, _, rfl⟩) ha hb
  | minus | star | less | lessEqual | greater | greaterEqual =>
    exact operation rfl (fun _ _ => rfl) rfl ha hb
  | _ => cases hop

/-! ### Members, calls and functions -/

/-- What stands in square brackets behind a value. -/
theorem indexed (ha : Value a ma) (hb : Value b mb) : Value (a ++ "[" ++ b ++ "]") (ma ++ mb) := by
  refine of_trail fun group start before frames => ?_
  obtain ⟨behind, hbehind, htrail⟩ := ha group start before frames
  have hopen : Trail (place group start before frames) true (a ++ "[")
      (place .square false [] (⟨.within group, behind, before ++ ma⟩ :: frames)) :=
    htrail.fixed "[" rfl rfl
  have hclosed := hopen.value hb "]" rfl rfl rfl
  rw [place, ← List.append_assoc]
  -- whatever the value has left behind, the brackets follow it
  cases hbehind <;> exact hclosed

/-- Nor does the choice of a member. -/
theorem member (name : String) (ha : Value a ma) : Value (a ++ "[" ++ Json.quote name ++ "]") ma := by
  have h := ha.indexed (quoted name)
  rwa [List.append_nil] at h

/-- Nor does waiting. -/
theorem await (ha : Value a ma) : Value ("(await " ++ a ++ ")") ma :=
  of_trail fun g s before fs => Trail.first (place g s before fs) "(await " rfl rfl
    |>.value ha ")" rfl rfl rfl

/-- Nor do the brackets of an array. -/
theorem array (ha : Value a ma) : Value ("[" ++ a ++ "]") ma :=
  of_trail fun g s before fs => Trail.first (place g s before fs) "[" rfl rfl
    |>.value ha "]" rfl rfl rfl

/-- Nor do those of a map. -/
theorem map (ha : Value a ma) : Value ("(\x7b" ++ a ++ "\x7d)") ma :=
  of_trail fun g s before fs => Trail.first (place g s before fs) "(\x7b" rfl rfl
    |>.value ha "\x7d)" rfl rfl rfl

/-- Nor does the key of an entry. -/
theorem entry (key : String) (ha : Value a ma) : Value (Json.quote key ++ ": " ++ a) ma := by
  intro group start before frames
  have hkey : Trail (place group start before frames) true (Json.quote key)
      (place group false before frames) := ⟨_, reads_quote key, rfl⟩
  obtain ⟨b, hb, htrail⟩ := ha group false before frames
  exact ⟨b, hb, (hkey.fixed ": " rfl rfl).append htrail (.inl rfl)⟩

/-- A method of the parent class is a value. -/
theorem super (method : String) : Value ("super[" ++ Json.quote method ++ "].bind(this)") [] := by
  refine of_trail fun g s before fs => ?_
  have h : Trail (place g s before fs) true ("super[" ++ Json.quote method ++ "].bind(this)")
      (place g false (before ++ [] ++ []) fs) :=
    Trail.first (place g s before fs) "super[" rfl rfl |>.quoted method
      |>.fixed "].bind(this)" rfl rfl
  simpa only [List.append_nil] using h

/-- A call has the landmarks of the callee and of the arguments. -/
theorem call (ha : Value a ma) (hb : Value b mb) :
    Value ("(await __call(" ++ a ++ ", [" ++ b ++ "]))") (ma ++ mb) :=
  of_trail fun g s before fs => Trail.first (place g s before fs) "(await __call(" rfl rfl
    |>.value ha ", [" rfl rfl rfl |>.value hb "]))" rfl rfl rfl

/-- So has the call of a member. -/
theorem callMember (name : String) (ha : Value a ma) (hb : Value b mb) :
    Value ("(await __callm(" ++ a ++ ", " ++ Json.quote name ++ ", [" ++ b ++ "]))") (ma ++ mb) :=
  of_trail fun g s before fs => Trail.first (place g s before fs) "(await __callm(" rfl rfl
    |>.value ha ", " rfl rfl rfl |>.quoted name |>.fixed ", [" rfl rfl
    |>.value hb "]))" rfl rfl rfl

/-- That of the parent's method has those of the arguments. -/
theorem callSuper (method : String) (ha : Value a ma) :
    Value ("(await super[" ++ Json.quote method ++ "](" ++ a ++ "))") ma :=
  of_trail fun g s before fs => Trail.first (place g s before fs) "(await super[" rfl rfl
    |>.quoted method |>.fixed "](" rfl rfl |>.value ha "))" rfl rfl rfl

/-- So has the call of a primitive. -/
theorem primitive (p : Primitive) (ha : Value a ma) :
    Value ("(await __prim." ++ p.name ++ "(" ++ a ++ "))") ma := by
  cases p <;>
    exact of_trail fun g s before fs => Trail.first (place g s before fs) "(await __prim." rfl rfl
      |>.fixed _ rfl rfl |>.fixed "(" rfl rfl |>.value ha "))" rfl rfl rfl

/-! ### Assignments -/

/-- An assignment as an expression has those of its value. -/
theorem assign (name : String) (ha : Value a ma) :
    Value ("(" ++ sanitize name ++ " = " ++ a ++ ")") ma :=
  of_trail fun g s before fs => Trail.first (place g s before fs) "(" rfl rfl
    |>.name (isName_sanitize name) |>.fixed " = " rfl rfl |>.value ha ")" rfl rfl rfl

/-- One of a member has those of the object too. -/
theorem assignMember (name : String) (ha : Value a ma) (hb : Value b mb) :
    Value ("(" ++ a ++ "[" ++ Json.quote name ++ "] = " ++ b ++ ")") (ma ++ mb) := by
  refine of_trail fun g s before fs => ?_
  obtain ⟨behind, hbehind, htrail⟩ := ha .round false [] (place g s before fs)
  have hopen : Trail (place g s before fs) true ("(" ++ a ++ "[")
      (place .square false [] (⟨.within .round, behind, ma⟩ :: place g s before fs)) :=
    (Trail.first (place g s before fs) "(" rfl rfl).append htrail (.inl rfl) |>.fixed "[" rfl rfl
  have hlast : Trail (place g s before fs) true
      ("(" ++ a ++ "[" ++ Json.quote name ++ "] = " ++ b ++ ")")
      (place g false (before ++ (ma ++ [] ++ mb)) fs) := by
    -- whatever the object has left behind, the bracket settles it
    cases hbehind <;>
      exact hopen.quoted name |>.fixed "] = " rfl rfl |>.value hb ")" rfl rfl rfl
  rwa [List.append_nil] at hlast

/-- One of an item has those of all three parts. -/
theorem assignIndex (ha : Value a ma) (hb : Value b mb) (hc : Value c mc) :
    Value ("__setIndex(" ++ a ++ ", " ++ b ++ ", " ++ c ++ ")") (ma ++ mb ++ mc) :=
  of_trail fun g s before fs => Trail.first (place g s before fs) "__setIndex(" rfl rfl
    |>.value ha ", " rfl rfl rfl |>.value hb ", " rfl rfl rfl |>.value hc ")" rfl rfl rfl

end Value

/-! ## Functions -/

/-- The text is the body of a function, behind its parameters. -/
def Body (start : Bool) (names : List (List Char)) (text : String) (marks : List Landmark) : Prop :=
  ∀ group before frames, Trail (⟨.within group, .parameters names, before⟩ :: frames) true text
    (place group start (before ++ marks) frames)

/-- Lines in braces are a block with their landmarks. -/
theorem Lines.braces {text : String} {marks : List Landmark} (h : Lines text marks)
    (ctx : Context) : Braced (braces ctx text) marks := by
  intro f frames
  exact Trail.first (f :: frames) "\x7b\n" rfl rfl |>.lines h |>.append (Trail.indentation ctx) (.inl rfl)
    |>.fixed "\x7d" rfl rfl

/-- A block is the body of a function, which is one landmark. -/
theorem Braced.body {text : String} {marks : List Landmark} (h : Braced text marks)
    (names : List (List Char)) : Body true names text [.block (.function names) marks] :=
  fun _ _ _ => h _ _

/-- A value in brackets is the body of an arrow function. -/
theorem Value.body {text : String} {marks : List Landmark} (h : Value text marks)
    (names : List (List Char)) : Body false names ("(" ++ text ++ ")") marks :=
  fun _ _ _ => Trail.first _ "(" rfl rfl |>.value h ")" rfl rfl rfl

/-- A function behind an arrow. -/
theorem Value.lambda {text : String} {marks : List Landmark} (params : List String) {start : Bool}
    (h : Body start ((params.map sanitize).map (·.toList)) text marks) :
    Value ("(async (" ++ paramList params ++ ") => " ++ text ++ ")") marks :=
  .of_trail fun g s before fs => ((Trail.first (place g s before fs) "(async (" rfl rfl
    |>.paramList params |>.fixed ") => " rfl rfl).append (h _ _ _) (.inl rfl)).fixed ")" rfl rfl

/-- The code of a literal source is a function that is called in place. -/
theorem Value.literal {text : String} {marks : List Landmark} (h : Braced text marks) :
    Value ("(await (async () => " ++ text ++ ")())") [.block (.function []) marks] := by
  refine .of_trail fun g s before fs => ?_
  have htrail : Trail (place g s before fs) true ("(await (async () => " ++ text ++ ")())")
      (place g false (before ++ ([.block (.function []) marks] ++ [])) fs) :=
    Trail.first (place g s before fs) "(await (async () => " rfl rfl |>.braced h
      |>.fixed ")())" rfl rfl
  rwa [List.append_nil] at htrail

/-- A literal source that is no program fails. -/
theorem Value.refused (message : String) :
    Value ("__fail(\"PrimitiveExecution\", " ++ Json.quote message ++ ")") [.fails] := by
  refine .of_trail fun g s before fs => ?_
  have htrail : Trail (place g s before fs) true
      ("__fail(\"PrimitiveExecution\", " ++ Json.quote message ++ ")")
      (place g false (before ++ [.fails] ++ []) fs) :=
    Trail.first (place g s before fs) "__fail(\"PrimitiveExecution\", " rfl rfl |>.quoted message
      |>.fixed ")" rfl rfl
  rwa [List.append_nil] at htrail

/-! ## Statements -/

namespace Lines

variable {text more : String} {marks marks' : List Landmark}

/-- No lines, no landmarks. -/
theorem nil : Lines "" [] := by
  intro before frames
  rw [List.append_nil]
  exact Trail.nil

/-- Lines in a row have their landmarks in a row. -/
theorem append (h : Lines text marks) (hmore : Lines more marks') :
    Lines (text ++ more) (marks ++ marks') := by
  intro before frames
  rw [← List.append_assoc]
  exact (h before frames).lines hmore

/-- A line has those of its text. -/
theorem line (h : Lines text marks) (ctx : Context) : Lines (ctx.line text) marks :=
  fun before frames => (h before frames).line ctx

/-- A statement that declares nothing and has no parts. -/
theorem of_fixed (s : String) {cs : List Char} (hs : s = String.ofList cs) {marks : List Landmark}
    (h : ∀ before frames, readsOn true (place .curly true before frames) cs =
      some (true, place .curly true (before ++ marks) frames)) : Lines s marks :=
  fun before frames => Trail.first (place .curly true before frames) s hs (h before frames)

/-- A statement with a mark of its own in front of the marks of its parts. -/
theorem cons {mark : Landmark} (h : ∀ before frames, Trail (place .curly true before frames) true
    text (place .curly true (before ++ [mark] ++ marks) frames)) : Lines text (mark :: marks) := by
  intro before frames
  rw [List.append_cons]
  exact h before frames

/-- A declaration is a landmark in front of those of its value. -/
theorem declaration (how : Bool) (name : String) (h : Value text marks) :
    Lines ((if how then "const " else "let ") ++ sanitize name ++ " = " ++ text ++ ";")
      (.binds (if how then .constant else .let) (sanitize name).toList :: marks) := by
  -- the word tells a constant from a variable
  cases how with
  | true =>
    exact cons fun before fs => Trail.first (place .curly true before fs) "const " rfl rfl
      |>.name (isName_sanitize name) |>.fixed " = " rfl rfl |>.value h ";" rfl rfl rfl
  | false =>
    exact cons fun before fs => Trail.first (place .curly true before fs) "let " rfl rfl
      |>.name (isName_sanitize name) |>.fixed " = " rfl rfl |>.value h ";" rfl rfl rfl

/-- So is an assignment. -/
theorem assignment (name : String) (h : Value text marks) :
    Lines (sanitize name ++ " = " ++ text ++ ";") (.assigns (sanitize name).toList :: marks) :=
  cons fun before fs => Trail.word ⟨.within .curly, .ready true, before⟩ fs (isName_sanitize name)
    |>.fixed " = " rfl rfl |>.value h ";" rfl rfl rfl

/-- An import declares its name, or assigns it. -/
theorem importing (isNew : Bool) (module : String) :
    Lines ((if isNew then "const " else "") ++ sanitize module ++ " = __module(" ++
        Json.quote module ++ ");")
      [if isNew then .binds .constant (sanitize module).toList
        else .assigns (sanitize module).toList] := by
  intro before frames
  have h (mark : Landmark) : place .curly true (before ++ [mark] ++ []) frames =
      place .curly true (before ++ [mark]) frames := by rw [List.append_nil]
  -- the word in front makes a declaration of it
  cases isNew with
  | true =>
    rw [← h]
    exact Trail.first (place .curly true before frames) "const " rfl rfl
      |>.name (isName_sanitize module) |>.fixed " = __module(" rfl rfl |>.quoted module
      |>.fixed ");" rfl rfl
  | false =>
    have htext : (if false then "const " else "") ++ sanitize module = sanitize module :=
      String.empty_append
    rw [← h, htext]
    exact Trail.word ⟨.within .curly, .ready true, before⟩ frames (isName_sanitize module)
      |>.fixed " = __module(" rfl rfl |>.quoted module |>.fixed ");" rfl rfl

/-- A declared function, behind whose name its parameters and its body stand. -/
theorem function (name : String) (params : List String)
    (h : Body true ((params.map sanitize).map (·.toList)) text marks) :
    Lines ("async function " ++ sanitize name ++ "(" ++ paramList params ++ ") " ++ text)
      (.binds .function (sanitize name).toList :: marks) :=
  cons fun before fs => (Trail.first (place .curly true before fs) "async function " rfl rfl
    |>.name (isName_sanitize name) |>.fixed "(" rfl rfl |>.paramList params
    |>.fixed ") " rfl rfl).append (h _ _ _) (.inl rfl)

/-- A method of a class has the landmarks of its body. -/
theorem method (name : String) (params : List String)
    (h : Body true ((params.map sanitize).map (·.toList)) text marks) :
    Lines ("async [" ++ Json.quote name ++ "](" ++ paramList params ++ ") " ++ text) marks := by
  intro before frames
  -- the name stands in brackets of its own, in front of the parameters
  have hname : Trail (place .curly true before frames) true ("async [" ++ Json.quote name ++ "](")
      (⟨.params [], .ready false, []⟩ ::
        ⟨.within .curly, .signature, before ++ []⟩ :: frames) :=
    Trail.first (place .curly true before frames) "async [" rfl rfl |>.quoted name
      |>.fixed "](" rfl rfl
  rw [List.append_nil] at hname
  exact (hname.paramList params |>.fixed ") " rfl rfl).append (h _ _ _) (.inl rfl)

/-- Printing has those of its arguments. -/
theorem print (h : Value text marks) : Lines ("__print(" ++ text ++ ");") marks :=
  fun before fs => Trail.first (place .curly true before fs) "__print(" rfl rfl
    |>.value h ");" rfl rfl rfl

/-- A yield is a landmark behind those of its value. -/
theorem push (h : Value text marks) : Lines ("__y.push(" ++ text ++ ");") (.pushes :: marks) :=
  cons fun before fs => Trail.first (place .curly true before fs) "__y.push(" rfl rfl
    |>.value h ");" rfl rfl rfl

/-- A yield outside of functions is one of its own. -/
theorem yieldOutside :
    Lines "__fail(\"TypeMismatch\", \"yield outside of a function\");" [.fails] := by
  intro before frames
  have h : Trail (place .curly true before frames) true _
      (place .curly true (before ++ [.fails] ++ []) frames) :=
    Trail.first (place .curly true before frames)
      "__fail(\"TypeMismatch\", \"yield outside of a function\");" rfl rfl
  rwa [List.append_nil] at h

/-- A break without a label jumps. -/
theorem breakLoop : Lines "break;" [.jump none] :=
  of_fixed "break;" rfl fun _ _ => rfl

/-- A break of a switch jumps to its label. -/
theorem breakSwitch (n : Nat) : Lines ("break __sw" ++ toString n ++ ";")
    [.jump (some (labelName n))] := by
  have htext : "break __sw" ++ toString n = "break " ++ ("__sw" ++ toString n) := by
    rw [← String.append_assoc]
    rfl
  intro before frames
  rw [htext, ← toList_labelName]
  exact Trail.first (place .curly true before frames) "break " rfl rfl |>.name (isName_label n)
    |>.fixed ";" rfl rfl

/-- Going on with a loop is no landmark. -/
theorem continueLoop : Lines "continue;" [] := by
  intro before frames
  rw [List.append_nil]
  exact Trail.first (place .curly true before frames) "continue;" rfl rfl

/-- Nor is a halt. -/
theorem halt : Lines "throw new __Halt();" [] :=
  of_fixed "throw new __Halt();" rfl fun _ _ => rfl

end Lines

/-- A value is a statement with its landmarks. -/
theorem Value.statement {text : String} {marks : List Landmark} (h : Value text marks) :
    Lines (text ++ ";") marks := by
  intro before frames
  obtain ⟨b, hb, htrail⟩ := h .curly true before frames
  exact htrail.fixed ";" rfl ((readsOn_settled hb rfl).trans rfl)

/-- So is a returned value. -/
theorem Value.returned {text : String} {marks : List Landmark} (h : Value text marks) :
    Lines ("return " ++ text ++ ";") marks :=
  fun before fs => Trail.first (place .curly true before fs) "return " rfl rfl
    |>.value h ";" rfl rfl rfl

/-- A block among lines is one landmark. -/
theorem Braced.lines {text : String} {marks : List Landmark} (h : Braced text marks) :
    Lines text [.block .plain marks] :=
  fun _ _ => h _ _

/-- The body of a function that collects what it yields. -/
theorem Braced.collecting {inner : String} {marks : List Landmark} (h : Braced inner marks)
    (ctx : Context) : Braced (collecting ctx inner) (functionMarks true marks) := by
  -- three lines: the array is declared, the body is run, and one of the two is returned
  have hvalues : Lines "const __y = [];" [.binds .constant ['_', '_', 'y']] := by
    intro before frames
    have h : Trail (place .curly true before frames) true _
        (place .curly true (before ++ [.binds .constant ['_', '_', 'y']] ++ []) frames) :=
      Trail.first (place .curly true before frames) "const __y = [];" rfl rfl
    rwa [List.append_nil] at h
  have hresult : Lines ("const __r = await (async () => " ++ inner ++ ")();")
      [.binds .constant ['_', '_', 'r'], .block (.function []) marks] := by
    refine .cons fun before frames => ?_
    have h : Trail (place .curly true before frames) true
        ("const __r = await (async () => " ++ inner ++ ")();") (place .curly true
          (before ++ [.binds .constant ['_', '_', 'r']] ++ [.block (.function []) marks] ++ [])
            frames) :=
      Trail.first (place .curly true before frames) "const __r = await (async () => " rfl rfl
        |>.braced h |>.fixed ")();" rfl rfl
    rwa [List.append_nil] at h
  have hreturn : Lines "return __y.length ? __y : __r;" [] := by
    intro before frames
    rw [List.append_nil]
    exact Trail.first (place .curly true before frames) "return __y.length ? __y : __r;" rfl rfl
  exact (((hvalues.line ctx.deeper).append (hresult.line ctx.deeper)).append
    (hreturn.line ctx.deeper)).braces ctx

/-! ### Conditions and loops -/

section Constructs

variable {condition body more iterable : String} {marks marks' marks'' : List Landmark}

/-- It is a chain of conditions that has come to its end. -/
theorem Braced.chain (h : Braced body marks) : Chain body [.block .plain marks] := by
  intro b hb before frames
  cases hb <;> exact h _ _

/-- A chain is read among lines. -/
theorem Chain.lines (h : Chain body marks) : Lines body marks :=
  h (.ready true) (.ready true)

/-- It is read behind the word for its other branch. -/
theorem Chain.behindElse (h : Chain body marks) : Lines (" else " ++ body) marks :=
  fun before fs => (Trail.first (place .curly true before fs) " else " rfl rfl).append
    (h _ (.named _ _) _ _) (.inl rfl)

/-- A condition in front makes the chain longer. -/
theorem Chain.ifElse (hc : Value condition marks) (ht : Braced body marks') (he : Lines more marks'') :
    Chain ("if (__truthy(" ++ condition ++ ")) " ++ body ++ more)
      (marks ++ [.block .plain marks'] ++ marks'') := by
  intro b hb before frames
  -- the condition may stand behind a word or at the beginning of a line
  have hhead : ∃ start, Trail (⟨.within .curly, b, before⟩ :: frames) true "if (__truthy("
      (place .round false [] (⟨.within .round, .named false "__truthy".toList, []⟩ ::
        ⟨.within .curly, .named start "if".toList, before⟩ :: frames)) := by
    cases hb with
    | ready start => exact ⟨_, Trail.first _ "if (__truthy(" rfl rfl⟩
    | named start name => exact ⟨_, Trail.first _ "if (__truthy(" rfl rfl⟩
  obtain ⟨start, hhead⟩ := hhead
  rw [← List.append_assoc, ← List.append_assoc]
  exact (hhead.value hc ")) " rfl rfl rfl |>.braced ht).lines he

/-- The branches of a switch compare its value with that of a case. -/
theorem Chain.branch (n : Nat) (hv : Value condition marks) (hb : Braced body marks') :
    Chain ("if (__eq(__s" ++ toString n ++ ", " ++ condition ++ ")) " ++ body)
      (marks ++ [.block .plain marks']) := by
  have htext : "if (__eq(__s" ++ toString n = "if (__eq(" ++ ("__s" ++ toString n) := by
    rw [← String.append_assoc]
    rfl
  intro b hbehind before frames
  have hhead : ∃ start, Trail (⟨.within .curly, b, before⟩ :: frames) true "if (__eq("
      (place .round false [] (⟨.within .round, .named false "__eq".toList, []⟩ ::
        ⟨.within .curly, .named start "if".toList, before⟩ :: frames)) := by
    -- the condition may stand behind a word or at the beginning of a line
    cases hbehind with
    | ready start => exact ⟨_, Trail.first _ "if (__eq(" rfl rfl⟩
    | named start name => exact ⟨_, Trail.first _ "if (__eq(" rfl rfl⟩
  obtain ⟨start, hhead⟩ := hhead
  rw [htext, ← List.append_assoc]
  exact hhead.name (isName_subject n) |>.fixed ", " rfl rfl |>.value hv ")) " rfl rfl rfl
    |>.braced hb

/-- Lines may stand behind a chain. -/
theorem Chain.append (h : Chain body marks) (hmore : Lines more marks') :
    Chain (body ++ more) (marks ++ marks') := by
  intro b hb before frames
  rw [← List.append_assoc]
  exact (h b hb before frames).lines hmore

/-- Statements in a row, between `else`s. -/
theorem Chains.chain {texts : List String} (h : Chains texts marks) (hne : texts ≠ []) :
    Chain (" else ".intercalate texts) marks := by
  induction h with
  | nil => exact absurd rfl hne
  | @cons t ts m ms h hs ih =>
    -- behind the last statement there is no `else`
    cases hs with
    | nil =>
      rw [List.append_nil]
      exact h
    | cons hu hus =>
      rw [String.intercalate_cons_cons, String.append_assoc]
      exact h.append (ih (List.cons_ne_nil _ _)).behindElse

/-- Chains in a row. -/
theorem Chains.append {texts texts' : List String} (h : Chains texts marks)
    (hmore : Chains texts' marks') : Chains (texts ++ texts') (marks ++ marks') := by
  induction h with
  | nil => exact hmore
  | cons h hs ih =>
    rw [List.append_assoc]
    exact .cons h ih

/-- They are read as one chain with words between them. -/
theorem Chains.lines {texts : List String} (h : Chains texts marks) :
    Lines (" else ".intercalate texts) marks := by
  cases h with
  | nil => exact .nil
  | cons h hs => exact ((Chains.cons h hs).chain (List.cons_ne_nil _ _)).lines

namespace Lines

/-- A loop is a block behind the landmarks of its condition. -/
theorem whileLoop (hc : Value condition marks) (hb : Braced body marks') :
    Lines ("while (__truthy(" ++ condition ++ ")) " ++ body) (marks ++ [.block .loop marks']) := by
  intro before frames
  rw [← List.append_assoc]
  exact Trail.first (place .curly true before frames) "while (__truthy(" rfl rfl
    |>.value hc ")) " rfl rfl rfl |>.braced hb

/-- The guard of a loop is a block that jumps out of it. -/
theorem loopGuard (cap : Nat) : Lines (loopGuard cap) [.block .plain [.jump none]] := by
  intro before frames
  have h : Trail (place .curly true before frames) true (JavaScript.loopGuard cap)
      (place .curly true (before ++ [] ++ [.block .plain [.jump none]]) frames) :=
    Trail.first (place .curly true before frames) "if (__n >= " rfl rfl |>.name (Value.isName_count cap)
      |>.fixed ") \x7b console.log(" rfl rfl |>.quoted _ |>.fixed "); break; \x7d" rfl rfl
  rwa [List.append_nil] at h

/-- An endless loop is a block. -/
theorem loop (hb : Braced body marks) :
    Lines ("for (let __n = 0; ; __n++) " ++ body) [.block .loop marks] := by
  intro before frames
  have h : Trail (place .curly true before frames) true ("for (let __n = 0; ; __n++) " ++ body)
      (place .curly true (before ++ [] ++ [.block .loop marks]) frames) :=
    Trail.first (place .curly true before frames) "for (let __n = 0; ; __n++) " rfl rfl |>.braced hb
  rwa [List.append_nil] at h

/-- A loop over items is a block behind the landmarks of what it runs over. -/
theorem forEach (var : String) (hi : Value iterable marks) (hb : Braced body marks') :
    Lines ("for (const " ++ sanitize var ++ " of __iter(" ++ iterable ++ ")) " ++ body)
      (marks ++ [.block .loop marks']) := by
  intro before frames
  rw [← List.append_assoc]
  exact Trail.first (place .curly true before frames) "for (const " rfl rfl
    |>.name (isName_sanitize var) |>.fixed " of __iter(" rfl rfl |>.value hi ")) " rfl rfl rfl
    |>.braced hb

/-- A try statement is two blocks. -/
theorem tryCatch (hb : Braced body marks) (hh : Braced more marks') :
    Lines ("try " ++ body ++ " catch (__e) " ++ more) [.block .plain marks, .block .plain marks'] := by
  refine cons fun before frames => ?_
  have h : Trail (place .curly true before frames) true ("try " ++ body ++ " catch (__e) " ++ more)
      (place .curly true (before ++ [.block .plain marks] ++ [] ++ [.block .plain marks']) frames) :=
    Trail.first (place .curly true before frames) "try " rfl rfl |>.braced hb
      |>.fixed " catch (__e) " rfl rfl |>.braced hh
  rwa [List.append_nil] at h

/-- A handler passes a halt on, and then gives a name to what it caught. -/
theorem caught (catchName : Option String) (ctx : Context) :
    Lines (String.join (("if (__e instanceof __Halt) throw __e;" ::
        (catchName.toList.map sanitize).map fun n => "let " ++ n ++ " = __errText(__e);").map
          ctx.line))
      (catchName.toList.map fun n => .binds .let (sanitize n).toList) := by
  have hhalt : Lines "if (__e instanceof __Halt) throw __e;" [] :=
    of_fixed "if (__e instanceof __Halt) throw __e;" rfl fun _ _ => rfl
  have hname (n : String) : Lines ("let " ++ sanitize n ++ " = __errText(__e);")
      [.binds .let (sanitize n).toList] :=
    cons fun before fs => Trail.first (place .curly true before fs) "let " rfl rfl
      |>.name (isName_sanitize n) |>.fixed " = __errText(__e);" rfl rfl
  rw [List.map_cons, String.join_cons]
  refine (hhalt.line ctx).append ?_
  -- a handler without a name only passes the halt on
  cases catchName with
  | none => exact nil
  | some n =>
    have hjoin : String.join [ctx.line ("let " ++ sanitize n ++ " = __errText(__e);")] =
        ctx.line ("let " ++ sanitize n ++ " = __errText(__e);") := by
      rw [String.join_cons, String.join_nil, String.append_empty]
    exact hjoin ▸ (hname n).line ctx

/-- The first line of a class. -/
def classHead (name : String) (parent : Option String) : String :=
  match parent with
  | some p => "class " ++ sanitize name ++ " extends " ++ sanitize p ++ " \x7b"
  | none => "class " ++ sanitize name ++ " \x7b"

/-- A class declares its name where a statement begins. -/
theorem classHead_trail (name : String) (parent : Option String) (start : Bool)
    (before : List Landmark) (frames : List Frame) :
    ∃ b : Behind, b.Calm ∧ Trail (place .curly start before frames) true (classHead name parent)
      (place .curly true [] (⟨.within .curly, b, if start then
        before ++ [.binds .class (sanitize name).toList] else before⟩ :: frames)) := by
  have hname := isName_sanitize name
  -- the brace stands behind the name of the class or of its parent
  cases parent with
  | none =>
    cases start with
    | true =>
      exact ⟨_, .ready false, Trail.first (place .curly true before frames) "class " rfl rfl
        |>.name hname |>.fixed " \x7b" rfl rfl⟩
    | false =>
      exact ⟨_, .named false _, Trail.first (place .curly false before frames) "class " rfl rfl
        |>.name hname |>.fixed " \x7b" rfl rfl⟩
  | some p =>
    cases start with
    | true =>
      exact ⟨_, .named false _, Trail.first (place .curly true before frames) "class " rfl rfl
        |>.name hname |>.fixed " extends " rfl rfl |>.name (isName_sanitize p)
        |>.fixed " \x7b" rfl rfl⟩
    | false =>
      exact ⟨_, .named false _, Trail.first (place .curly false before frames) "class " rfl rfl
        |>.name hname |>.fixed " extends " rfl rfl |>.name (isName_sanitize p)
        |>.fixed " \x7b" rfl rfl⟩

/-- A class, declared or assigned to its name. -/
theorem classDecl (isNew : Bool) (name : String) (parent : Option String) (h : Lines body marks)
    (ctx : Context) :
    Lines ((if isNew then ctx.line (classHead name parent)
        else ctx.line (sanitize name ++ " = " ++ classHead name parent)) ++ body ++
        ctx.line "\x7d")
      [if isNew then .binds .class (sanitize name).toList else .assigns (sanitize name).toList,
        .block .plain marks] := by
  refine cons fun before frames => ?_
  -- the closing brace puts the block behind what was there before
  have hclosing {b : Behind} (hb : b.Calm) (before : List Landmark) :
      Trail (place .curly true marks (⟨.within .curly, b, before⟩ :: frames)) true
        (ctx.line "\x7d") (place .curly true (before ++ [.block .plain marks]) frames) := by
    cases hb with
    | ready start => exact (Trail.first _ "\x7d" rfl rfl).line ctx
    | named start name => exact (Trail.first _ "\x7d" rfl rfl).line ctx
  cases isNew with
  | true =>
    obtain ⟨b, hb, hhead⟩ := classHead_trail name parent true before frames
    exact ((hhead.line ctx).lines h).append (hclosing hb _) (.inl rfl)
  | false =>
    have hname : Trail (place .curly true before frames) true (sanitize name ++ " = ")
        (place .curly false (before ++ [.assigns (sanitize name).toList]) frames) :=
      Trail.word ⟨.within .curly, .ready true, before⟩ frames (isName_sanitize name)
        |>.fixed " = " rfl rfl
    obtain ⟨b, hb, hhead⟩ := classHead_trail name parent false
      (before ++ [.assigns (sanitize name).toList]) frames
    exact (((hname.append hhead (.inl rfl)).line ctx).lines h).append (hclosing hb _) (.inl rfl)

/-- A switch, with its label and the value that it looks at. -/
theorem switch {subject chain : String} (n : Nat) (hs : Value subject marks)
    (hc : Lines chain marks') (ctx : Context) :
    Lines (ctx.line ("__sw" ++ toString n ++ ": \x7b") ++
        ctx.deeper.line ("const __s" ++ toString n ++ " = " ++ subject ++ ";") ++
        (if chain.isEmpty then "" else ctx.deeper.line chain) ++ ctx.line "\x7d")
      [.block (.labelled (labelName n)) (.binds .constant (subjectName n) :: marks ++ marks')] := by
  -- the subject is declared first, inside of the labelled block
  have hsubject : Lines ("const __s" ++ toString n ++ " = " ++ subject ++ ";")
      (.binds .constant (subjectName n) :: marks) := by
    have htext : "const __s" ++ toString n = "const " ++ ("__s" ++ toString n) := by
      rw [← String.append_assoc]
      rfl
    rw [htext, ← toList_subjectName]
    exact cons fun before fs => Trail.first (place .curly true before fs) "const " rfl rfl
      |>.name (isName_subject n) |>.fixed " = " rfl rfl |>.value hs ";" rfl rfl rfl
  -- without a case the chain is no line at all
  have hbranches : Lines (if chain.isEmpty then "" else ctx.deeper.line chain) marks' := by
    split
    next hempty =>
      rw [String.isEmpty_iff.1 hempty] at hc
      exact hc
    next => exact hc.line ctx.deeper
  intro before frames
  rw [← toList_labelName]
  have hlabel := (Trail.word ⟨.within .curly, .ready true, before⟩ frames (isName_label n)
    |>.fixed ": \x7b" rfl rfl).line ctx
  exact ((hlabel.lines (hsubject.line ctx.deeper)).lines hbranches).append
    ((Trail.first _ "\x7d" rfl rfl).line ctx) (.inl rfl)

end Lines

end Constructs

end BrailleScript.JavaScript
