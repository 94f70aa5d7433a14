import BrailleScript.Proofs.JavaScript.Composition
import BrailleScript.Proofs.JavaScript.Sketch

/-!
# Trails

A text of parts leads the reader of landmarks from some frames to others, part by part, as `Leads`
says of brackets alone.  What a value leaves behind it does not matter to the mark that follows.

## Key results

- `Trail.first`, `Trail.fixed`, `Trail.value`: a template, fragment by fragment
- `Value`, `Lines`, `Braced`, `Chain`: what the parts of emitted code are
-/

namespace BrailleScript.JavaScript

open Scan

/-- The text leads the reader from the one frames to the others. -/
def Trail (frames : List Frame) (closed : Bool) (text : String) (last : List Frame) : Prop :=
  ∃ ts, Reads closed text.toList ts ∧ read frames ts = some last

/-- What stands behind a value. -/
inductive Behind.Calm : Behind → Prop
  | ready (start : Bool) : Calm (.ready start)
  | named (start : Bool) (name : List Char) : Calm (.named start name)

/-- Where a fragment leads the reader, and whether it leaves no word unfinished.  It may go on where
a word may be unfinished only if it begins apart. -/
def readsOn (closed : Bool) (frames : List Frame) (cs : List Char) :
    Option (Bool × List Frame) :=
  if closed || cs.head?.any (!isWordChar ·) then
    match run .code cs with
    | (.code, ts) => (read frames ts).map (true, ·)
    | (.word w, ts) => (read frames (ts ++ [.word w])).map (false, ·)
    | _ => none
  else none

/-- The marks that are read alike behind every value. -/
def settling : List Char :=
  [')', ']', '\x7d', ',', ';', '&', '|', '-', '*', '<', '>']

/-- Whether a fragment begins with such a mark. -/
def settles : List Char → Bool
  | [] => false
  | c :: cs => settling.contains c || isBlank c && settles cs

/-- A place where a value may stand. -/
abbrev place (group : Group) (start : Bool) (before : List Landmark) (frames : List Frame) :
    List Frame :=
  ⟨.within group, .ready start, before⟩ :: frames

/-- The text is a value, wherever one may stand. -/
def Value (text : String) (marks : List Landmark) : Prop :=
  ∀ group start before frames, ∃ b : Behind, b.Calm ∧
    Trail (place group start before frames) false text
      (⟨.within group, b, before ++ marks⟩ :: frames)

/-- The text is a row of statements. -/
def Lines (text : String) (marks : List Landmark) : Prop :=
  ∀ before frames, Trail (place .curly true before frames) true text
    (place .curly true (before ++ marks) frames)

/-- The text is a row of statements between braces. -/
def Braced (text : String) (marks : List Landmark) : Prop :=
  ∀ f frames, Trail (f :: frames) true text (f.afterCurly marks :: frames)

/-- The text is a statement that may stand behind `else`. -/
def Chain (text : String) (marks : List Landmark) : Prop :=
  ∀ b : Behind, b.Calm → ∀ before frames, Trail (⟨.within .curly, b, before⟩ :: frames) true text
    (⟨.within .curly, .ready true, before ++ marks⟩ :: frames)

/-- The texts are values. -/
inductive Values : List String → List Landmark → Prop
  | nil : Values [] []
  | cons {t ts m ms} (h : Value t m) (hs : Values ts ms) : Values (t :: ts) (m ++ ms)

/-- The texts are statements that may stand behind `else`. -/
inductive Chains : List String → List Landmark → Prop
  | nil : Chains [] []
  | cons {t ts m ms} (h : Chain t m) (hs : Chains ts ms) : Chains (t :: ts) (m ++ ms)

/-! ## Names -/

/-- The text is a word that is no keyword. -/
structure IsName (text : String) : Prop where
  word : text.toList ≠ [] ∧ ∀ c ∈ text.toList, isWordChar c = true
  free : keywords.lookup text.toList = none

/-- Names of a program are no keywords, which are all reserved or internal. -/
theorem isName_sanitize (s : String) : IsName (sanitize s) := by
  -- a keyword that is not reserved begins like an internal name
  have hkeywords : ∀ k ∈ keywords, String.ofList k.1 ∈ reserved ∨ ['_', '_'] <+: k.1 := by
    decide
  have husable := isUsable_sanitize s
  refine ⟨sanitize_word s, List.lookup_eq_none_iff.2 fun k hk => ?_⟩
  rw [bne_iff_ne]
  intro heq
  have hk := hkeywords k hk
  rw [← heq, String.ofList_toList] at hk
  exact hk.elim husable.unreserved husable.notInternal

/-- The label of a switch by its characters. -/
theorem toList_labelName (n : Nat) : ("__sw" ++ toString n).toList = labelName n := by
  rw [String.toList_append]
  rfl

/-- The name of its subject by its characters. -/
theorem toList_subjectName (n : Nat) : ("__s" ++ toString n).toList = subjectName n := by
  rw [String.toList_append]
  rfl

/-- A name of the emitter's own with a number behind it. -/
theorem isName_numbered {stem : List Char} (hstem : stem.all isWordChar = true)
    (hfree : ∀ cs, keywords.lookup (stem ++ cs) = none) {text : String} {n : Nat}
    (htext : text.toList = stem ++ (toString n).toList) : IsName text := by
  obtain ⟨hne, hchars⟩ := toString_word n
  constructor
  · rw [htext]
    exact ⟨List.append_ne_nil_of_right_ne_nil _ hne,
      List.forall_mem_append.2 ⟨List.all_eq_true.1 hstem, hchars⟩⟩
  · rw [htext]
    exact hfree _

/-- A label is written like a name. -/
theorem isName_label (n : Nat) : IsName ("__sw" ++ toString n) :=
  isName_numbered rfl (fun _ => rfl) (toList_labelName n)

/-- So is the name of a subject. -/
theorem isName_subject (n : Nat) : IsName ("__s" ++ toString n) :=
  isName_numbered rfl (fun _ => rfl) (toList_subjectName n)

/-! ## Behind a value -/

section Settled

variable {group : Group} {before : List Landmark} {outer : List Frame}

/-- A mark that settles finds the frame as if nothing had been before it. -/
theorem meetLexeme_settled {b : Behind} (hb : b.Calm) {c : Char} (hc : c ∈ settling) :
    meetLexeme (⟨.within group, b, before⟩ :: outer) (.mark c) =
      meetLexeme (⟨.within group, .ready false, before⟩ :: outer) (.mark c) := by
  simp only [settling, List.mem_cons, List.not_mem_nil, or_false] at hc
  rcases hc with rfl | rfl | rfl | rfl | rfl | rfl | rfl | rfl | rfl | rfl | rfl <;>
    cases hb <;> rfl

/-- Such a mark is the first lexeme of the fragment. -/
theorem run_of_settles {cs : List Char} (h : settles cs = true) :
    ∃ c ∈ settling, ∃ ts, (run .code cs).2 = .mark c :: ts := by
  -- each of the settling characters begins its own mark
  have hstart : ∀ c ∈ settling, start c = (.code, [.mark c]) := by
    intro c hc
    simp only [settling, List.mem_cons, List.not_mem_nil, or_false] at hc
    rcases hc with rfl | rfl | rfl | rfl | rfl | rfl | rfl | rfl | rfl | rfl | rfl <;> rfl
  induction cs with
  | nil => cases h
  | cons c cs ih =>
    rw [settles, Bool.or_eq_true, Bool.and_eq_true, List.contains_iff_mem] at h
    -- either the first character settles, or it is a blank and leaves the rest to do so
    rcases h with hc | ⟨hblank, hcs⟩
    · exact ⟨c, hc, _, by rw [run, next, hstart c hc]; rfl⟩
    · obtain ⟨d, hd, ts, hts⟩ := ih hcs
      have hrun : run .code [c] = (.code, []) := run_blanks (by simpa using hblank)
      refine ⟨d, hd, ts, ?_⟩
      rw [← List.singleton_append, run_append, hrun]
      exact hts

/-- So does a text that begins with one. -/
theorem readsOn_settled {b : Behind} (hb : b.Calm) {cs : List Char} (h : settles cs = true) :
    readsOn false (⟨.within group, b, before⟩ :: outer) cs =
      readsOn false (⟨.within group, .ready false, before⟩ :: outer) cs := by
  obtain ⟨c, hc, ts, hts⟩ := run_of_settles h
  -- behind such a mark it does not matter what was there before
  have hread (us : List Lexeme) : read (⟨.within group, b, before⟩ :: outer) (.mark c :: us) =
      read (⟨.within group, .ready false, before⟩ :: outer) (.mark c :: us) := by
    rw [read, List.foldlM_cons, meetLexeme_settled hb hc]
    rfl
  unfold readsOn
  cases hrun : run .code cs with
  | mk mode us =>
    obtain rfl : us = .mark c :: ts := by rwa [hrun] at hts
    cases mode <;> simp only [List.cons_append, hread]

end Settled

namespace Trail

variable {frames last next outer : List Frame} {closed closed' : Bool} {text more s : String}
  {cs : List Char} {f : Frame} {group : Group} {start : Bool} {before marks : List Landmark}

/-- The empty text leaves the frames as they are. -/
theorem nil : Trail frames true "" frames :=
  ⟨[], .nil, rfl⟩

/-- A text may be taken for one that needs a gap behind it. -/
theorem loosen (h : Trail frames closed text last) : Trail frames false text last := by
  obtain ⟨ts, hreads, hread⟩ := h
  exact ⟨ts, hreads.loosen, hread⟩

/-- Texts lead through the frames in a row, where the first ends or the second begins apart. -/
theorem append (h : Trail frames closed text last) (hmore : Trail last closed' more next)
    (hjoin : closed = true ∨ BeginsApart more) : Trail frames closed' (text ++ more) next := by
  obtain ⟨ts, hreads, hread⟩ := h
  obtain ⟨us, hreads', hread'⟩ := hmore
  refine ⟨ts ++ us, ?_, by rw [read_append hread, hread']⟩
  rw [String.toList_append]
  -- the second text begins in code, or is parted from a word by its first character
  rcases hjoin with rfl | ⟨c, rest, hcs, hc⟩
  · exact hreads.append hreads'
  · rw [hcs] at hreads' ⊢
    exact hreads.loosen.append_gap hreads' hc

/-- A fixed text leads through them as its characters do. -/
theorem of_fragment (hs : s = String.ofList cs)
    (h : readsOn closed frames cs = some (closed', last)) : Trail frames closed' s last := by
  have htoList : s.toList = cs := by rw [hs, String.toList_ofList]
  unfold readsOn at h
  split at h
  next =>
    -- the text may end between two lexemes or inside of a word
    split at h
    next ts hrun =>
      obtain ⟨_, hread, heq⟩ := Option.map_eq_some_iff.1 h
      obtain ⟨rfl, rfl⟩ := Prod.mk.inj heq
      exact ⟨ts, htoList ▸ .closed hrun, hread⟩
    next w ts hrun =>
      obtain ⟨_, hread, heq⟩ := Option.map_eq_some_iff.1 h
      obtain ⟨rfl, rfl⟩ := Prod.mk.inj heq
      exact ⟨_, htoList ▸ .word hrun, hread⟩
    next => cases h
  next => cases h

/-- A template begins with a fragment. -/
theorem first (frames : List Frame) (s : String) (hs : s = String.ofList cs)
    (h : readsOn true frames cs = some (closed, last)) : Trail frames closed s last :=
  of_fragment hs h

/-- A fixed text that leads on ends or begins apart. -/
theorem beginsApart (hs : s = String.ofList cs)
    (h : readsOn closed frames cs = some (closed', last)) : closed = true ∨ BeginsApart s := by
  unfold readsOn at h
  split at h
  next hjoin =>
    rcases Bool.or_eq_true_iff.1 hjoin with hclosed | hapart
    · exact .inl hclosed
    · obtain ⟨c, hc, hword⟩ := (Option.any_eq_true _ _).1 hapart
      obtain ⟨rest, rfl⟩ := List.head?_eq_some_iff.1 hc
      exact .inr ⟨c, rest, by rw [hs, String.toList_ofList], by simpa using hword⟩
  next => cases h

/-- A template goes on with a fragment. -/
theorem fixed (h : Trail frames closed text last) (s : String) (hs : s = String.ofList cs)
    (hs' : readsOn closed last cs = some (closed', next)) : Trail frames closed' (text ++ s) next :=
  h.append (of_fragment hs hs') (beginsApart hs hs')

/-- A word that is no keyword. -/
theorem word (f : Frame) (frames : List Frame) (h : IsName text) :
    Trail (f :: frames) false text (f.name text.toList :: frames) := by
  refine ⟨_, .word_of h.word, ?_⟩
  show some (f.word text.toList :: frames) = _
  rw [Frame.word, h.free]

/-- A template goes on with a name. -/
theorem name (h : Trail frames true text (f :: outer)) (hmore : IsName more) :
    Trail frames false (text ++ more) (f.name more.toList :: outer) :=
  h.append (word f outer hmore) (.inl rfl)

/-- A template goes on with a value and what stands behind it. -/
theorem value (h : Trail frames true text (⟨.within group, .ready start, before⟩ :: outer))
    (hmore : Value more marks) (s : String) (hs : s = String.ofList cs)
    (hs' : readsOn false (⟨.within group, .ready false, before ++ marks⟩ :: outer) cs =
      some (closed', next)) (hsettles : settles cs = true) :
    Trail frames closed' (text ++ more ++ s) next := by
  obtain ⟨b, hb, hvalue⟩ := hmore group start before outer
  refine (h.append hvalue (.inl rfl)).fixed s hs ?_
  rwa [readsOn_settled hb hsettles]

/-- A template goes on with what stands between braces. -/
theorem braced (h : Trail frames true text (f :: outer)) (hmore : Braced more marks) :
    Trail frames true (text ++ more) (f.afterCurly marks :: outer) :=
  h.append (hmore f outer) (.inl rfl)

/-- A template goes on with statements. -/
theorem lines (h : Trail frames true text (⟨.within .curly, .ready true, before⟩ :: outer))
    (hmore : Lines more marks) :
    Trail frames true (text ++ more) (⟨.within .curly, .ready true, before ++ marks⟩ :: outer) :=
  h.append (hmore before outer) (.inl rfl)

/-- Indentation leaves the frames as they are. -/
theorem indentation (ctx : Context) : Trail frames true ctx.indentation frames := by
  refine ⟨[], ?_, rfl⟩
  rw [Context.indentation, String.toList_ofList]
  exact .blanks fun c hc => by rw [List.eq_of_mem_replicate hc]; decide

/-- A line leads where its text does. -/
theorem line (h : Trail frames closed text last) (ctx : Context) :
    Trail frames true (ctx.line text) last :=
  ((indentation ctx).append h (.inl rfl)).loosen.fixed "\n" rfl rfl

end Trail

end BrailleScript.JavaScript
