import BrailleScript.Proofs.JavaScript.Pieces

/-!
# Putting pieces together

A text of pieces leads from inside some brackets to inside others: each fragment may close and open
some, and a whole piece of code leads back to where it began.  What is put together this way is read
piece by piece.

## Key results

- `Leads.append`: two texts
- `Leads.fixed`, `Leads.code`: a template, fragment by fragment
- `Emits.bind`: emission step by step
-/

namespace BrailleScript.JavaScript

open Scan

/-- The text is made of the pieces, is read piece by piece, and leads from inside the brackets
`before` to inside the brackets `after`.  A constant that it declares is one that `K` allows. -/
structure Spells (K : String → Prop) (before after : List Char) (closed : Bool) (text : String)
    (pieces : List Piece) : Prop where
  toList_eq : text.toList = pieces.flatMap (·.text.toList)
  reads : Reads closed text.toList (pieces.flatMap (·.lexemes))
  nest_eq : nest before (pieces.flatMap (·.lexemes)) = some after
  constants : ∀ s, .constant s ∈ pieces → K s

/-- The text is made of pieces and leads from inside the brackets `before` to inside `after`. -/
def Leads (K : String → Prop) (before after : List Char) (closed : Bool) (text : String) : Prop :=
  ∃ pieces, Spells K before after closed text pieces

/-- The text begins with a character that no word goes on with. -/
def BeginsApart (text : String) : Prop :=
  ∃ c rest, text.toList = c :: rest ∧ isWordChar c = false

/-- How a fragment leads on: whether it leaves no word unfinished, and the brackets open behind it.
It may go on where a word may be unfinished only if it begins apart. -/
def leadsOn (closed : Bool) (before : List Char) (cs : List Char) : Option (Bool × List Char) :=
  if closed || cs.head?.any (!isWordChar ·) then
    match run .code cs with
    | (.code, ts) => (nest before ts).map (true, ·)
    | (.word w, ts) => (nest before (ts ++ [.word w])).map (false, ·)
    | _ => none
  else none

namespace Leads

variable {K : String → Prop} {before after last : List Char} {closed closed' : Bool}
  {text more s : String} {cs : List Char}

/-- The empty text leads nowhere. -/
theorem nil : Leads K before before true "" :=
  ⟨[], rfl, .nil, rfl, nofun⟩

/-- A text may be taken for one that needs a gap behind it. -/
theorem loosen (h : Leads K before after closed text) : Leads K before after false text := by
  obtain ⟨pieces, h⟩ := h
  exact ⟨pieces, h.toList_eq, h.reads.loosen, h.nest_eq, h.constants⟩

/-- Inside further brackets. -/
theorem frame (h : Leads K before after closed text) (outer : List Char) :
    Leads K (before ++ outer) (after ++ outer) closed text := by
  obtain ⟨pieces, h⟩ := h
  exact ⟨pieces, h.toList_eq, h.reads, nest_frame h.nest_eq outer, h.constants⟩

/-- Texts lead on in a row, where the first ends or the second begins apart. -/
theorem append (h : Leads K before after closed text) (hmore : Leads K after last closed' more)
    (hjoin : closed = true ∨ BeginsApart more) : Leads K before last closed' (text ++ more) := by
  obtain ⟨ps, h⟩ := h
  obtain ⟨qs, hmore⟩ := hmore
  have hreads : Reads closed' (text.toList ++ more.toList)
      (ps.flatMap (·.lexemes) ++ qs.flatMap (·.lexemes)) := by
    -- the second text begins apart, or the first one has ended before it
    rcases hjoin with rfl | ⟨c, rest, hcs, hc⟩
    · exact h.reads.append hmore.reads
    · have hread := hmore.reads
      rw [hcs] at hread ⊢
      exact h.reads.loosen.append_gap hread hc
  refine ⟨ps ++ qs, ?_, ?_, ?_, fun s hs => ?_⟩
  · rw [String.toList_append, List.flatMap_append, h.toList_eq, hmore.toList_eq]
  · rwa [String.toList_append, List.flatMap_append]
  · rw [List.flatMap_append, nest_append h.nest_eq, hmore.nest_eq]
  · exact (List.mem_append.1 hs).elim (h.constants s) (hmore.constants s)

/-! ## Templates -/

/-- A piece other than a fixed text leads from code to code. -/
theorem of_piece (p : Piece) (hp : ∀ s hs, p ≠ .fixed s hs)
    (hK : ∀ s, p = .constant s → K s) : Leads K [] [] p.closed p.text := by
  obtain ⟨hreads, hnest⟩ := p.reads hp
  refine ⟨[p], ?_, ?_, ?_, fun s hs => hK s (List.mem_singleton.1 hs).symm⟩
  · rw [List.flatMap_singleton]
  · rwa [List.flatMap_singleton]
  · rw [List.flatMap_singleton, hnest]

/-- A fixed text leads where its brackets lead. -/
theorem of_fragment (hs : s = String.ofList cs) (hmem : s ∈ fragments)
    (h : leadsOn closed before cs = some (closed', after)) : Leads K before after closed' s := by
  have htoList : s.toList = cs := by rw [hs, String.toList_ofList]
  -- a fixed text is one piece, whose lexemes are those that it is scanned as
  have hspells {ts : List Lexeme} (hread : Reads closed' cs ts)
      (hnest : nest before ts = some after) : Leads K before after closed' s := by
    have hlexemes : (Piece.fixed s hmem).lexemes = ts := by
      rw [← htoList] at hread
      rw [Piece.lexemes, hread.scan_eq]
      rfl
    refine ⟨[.fixed s hmem], ?_, ?_, ?_, fun t ht => ?_⟩
    · rw [List.flatMap_singleton]
      rfl
    · rwa [List.flatMap_singleton, hlexemes, htoList]
    · rwa [List.flatMap_singleton, hlexemes]
    · cases List.mem_singleton.1 ht
  unfold leadsOn at h
  split at h
  next =>
    split at h
    -- it ends in code, or inside of a word that may go on
    next ts hrun =>
      obtain ⟨_, hnest, heq⟩ := Option.map_eq_some_iff.1 h
      obtain ⟨rfl, rfl⟩ := Prod.mk.inj heq
      exact hspells (.closed hrun) hnest
    next w ts hrun =>
      obtain ⟨_, hnest, heq⟩ := Option.map_eq_some_iff.1 h
      obtain ⟨rfl, rfl⟩ := Prod.mk.inj heq
      exact hspells (.word hrun) hnest
    next => cases h
  next => cases h

/-- A fixed text that leads on ends or begins apart. -/
theorem beginsApart_of_fragment (hs : s = String.ofList cs)
    (h : leadsOn closed before cs = some (closed', after)) : closed = true ∨ BeginsApart s := by
  unfold leadsOn at h
  split at h
  next hjoin =>
    -- either what is in front has ended, or the text does not go on with it
    rcases Bool.or_eq_true_iff.1 hjoin with hclosed | hapart
    · exact .inl hclosed
    · obtain ⟨c, hc, hword⟩ := (Option.any_eq_true _ _).1 hapart
      obtain ⟨rest, rfl⟩ := List.head?_eq_some_iff.1 hc
      exact .inr ⟨c, rest, by rw [hs, String.toList_ofList], by simpa using hword⟩
  next => cases h

/-- A template begins with a fragment. -/
theorem first (s : String) (hs : s = String.ofList cs) (hmem : s ∈ fragments)
    (h : leadsOn true [] cs = some (closed, after)) : Leads K [] after closed s :=
  of_fragment hs hmem h

/-- A template goes on with a fragment. -/
theorem fixed (h : Leads K before after closed text) (s : String) (hs : s = String.ofList cs)
    (hmem : s ∈ fragments) (hs' : leadsOn closed after cs = some (closed', last)) :
    Leads K before last closed' (text ++ s) :=
  h.append (of_fragment hs hmem hs') (beginsApart_of_fragment hs hs')

/-- A template goes on with a whole piece of code. -/
theorem code (h : Leads K before after true text) (hmore : Leads K [] [] closed' more) :
    Leads K before after closed' (text ++ more) :=
  h.append (hmore.frame after) (.inl rfl)

/-- A sanitized name leads on as code. -/
theorem name (s : String) : Leads K [] [] false (sanitize s) :=
  of_piece (.name s) nofun nofun

/-- So does the declaration of a constant. -/
theorem constant (h : K s) : Leads K [] [] false ("const " ++ sanitize s) :=
  of_piece (.constant s) nofun fun _ hs => by cases hs; exact h

/-- So does a quoted text. -/
theorem quoted (s : String) : Leads K [] [] false (Json.quote s) :=
  of_piece (.quoted s) nofun nofun

/-- So does the comment that stands for what is unsupported. -/
theorem placeholder (s : String) : Leads K [] [] false (unsupported s) :=
  of_piece (.placeholder s) nofun nofun

/-- So does a number. -/
theorem number (x : Float) : Leads K [] [] false (Number.text x) :=
  of_piece (.number x) nofun nofun

/-- So does a count. -/
theorem count (n : Nat) : Leads K [] [] false (toString n) :=
  of_piece (.count n) nofun nofun

/-- So does the label of a switch. -/
theorem label (n : Nat) : Leads K [] [] false ("__sw" ++ toString n) :=
  of_piece (.label n) nofun nofun

/-- So does the name of a switch's subject. -/
theorem subject (n : Nat) : Leads K [] [] false ("__s" ++ toString n) :=
  of_piece (.subject n) nofun nofun

/-- So does the declaration of that name. -/
theorem constantSubject (n : Nat) : Leads K [] [] false ("const __s" ++ toString n) :=
  of_piece (.constantSubject n) nofun nofun

/-! ## Lines, blocks and lists -/

/-- Indentation leads on without a gap. -/
theorem indentation (ctx : Context) : Leads K [] [] true ctx.indentation :=
  of_piece (.blank (2 * ctx.indent)) nofun nofun

/-- A line of code ends apart. -/
theorem line (h : Leads K before after closed text) (ctx : Context) :
    Leads K before after true (ctx.line text) :=
  ((indentation ctx).frame before).append h (.inl rfl) |>.loosen
    |>.fixed "\n" rfl (by repeat constructor) rfl

/-- A closed text in braces ends apart. -/
theorem braces (h : Leads K [] [] true text) (ctx : Context) :
    Leads K [] [] true (JavaScript.braces ctx text) :=
  (first "\x7b\n" rfl (by repeat constructor) rfl).code h |>.code (indentation ctx)
    |>.fixed "\x7d" rfl (by repeat constructor) rfl

/-- Texts with a fixed separator between them lead on as each of them does. -/
theorem intercalate {texts : List String} (h : ∀ t ∈ texts, Leads K [] [] closed t)
    (hs : s = String.ofList cs) (hmem : s ∈ fragments)
    (hs' : leadsOn false [] cs = some (true, [])) : Leads K [] [] false (s.intercalate texts) := by
  induction texts with
  | nil => exact nil.loosen
  | cons t rest ih =>
    rw [List.forall_mem_cons] at h
    -- behind the last text there is no separator
    cases rest with
    | nil => exact h.1.loosen
    | cons u rest =>
      rw [String.intercalate_cons_cons]
      exact (h.1.loosen.fixed s hs hmem hs').code (ih h.2)

/-- So do texts with commas between them. -/
theorem commaList {texts : List String} (h : ∀ t ∈ texts, Leads K [] [] closed t) :
    Leads K [] [] false (JavaScript.commaList texts) :=
  intercalate h rfl (by repeat constructor) rfl

/-- Closed texts lead on one after the other. -/
theorem join {texts : List String} (h : ∀ t ∈ texts, Leads K [] [] true t) :
    Leads K [] [] true (String.join texts) := by
  induction texts with
  | nil => exact nil
  | cons t rest ih =>
    rw [List.forall_mem_cons] at h
    rw [String.join_cons]
    exact h.1.code (ih h.2)

/-- A list of parameters leads on as code. -/
theorem paramList (params : List String) : Leads K [] [] false (JavaScript.paramList params) :=
  commaList fun _ ht => by
    obtain ⟨p, -, rfl⟩ := List.mem_map.1 ht
    exact name p

end Leads

/-! ## Emission -/

/-- Whatever is declared when it begins, the emission gives what has the property. -/
def Emits {α : Type} (P : α → Prop) (x : Emit α) : Prop :=
  ∀ s, P (x.run s).1

namespace Emits

variable {α β : Type} {P : α → Prop} {Q : β → Prop} {x : Emit α} {f : α → Emit β}

/-- A result that fits is emitted. -/
theorem pure {a : α} (h : P a) : Emits P (pure a) :=
  fun _ => h

/-- What is emitted first is what the next part starts from. -/
theorem bind (hx : Emits P x) (hf : ∀ a, P a → Emits Q (f a)) : Emits Q (x >>= f) :=
  fun s => hf _ (hx s) _

/-- Every result is some result. -/
theorem any (x : Emit α) : Emits (fun _ => True) x :=
  fun _ => trivial

/-- A weaker description fits as well. -/
theorem imp {P' : α → Prop} (hx : Emits P x) (h : ∀ a, P a → P' a) : Emits P' x :=
  fun s => h _ (hx s)

/-- Emitting within given names emits the same kind of text. -/
theorem withNames (hx : Emits P x) (names : List String) : Emits P (withNames names x) :=
  fun s => hx { s with declared := names }

end Emits

end BrailleScript.JavaScript
