import Mathlib.Data.List.TakeWhile
import BrailleScript.Backend.DryRun
import BrailleScript.Machine.Primitives

/-!
# Placeholders of templates

A placeholder is a name without braces in braces, wherever it stands in a template.  What a template
becomes when its placeholders are replaced is said by `Replaced`; the same is done by the replacing
of all matches of a pattern, from left to right, which compiled programs use (`replaceMatches`).
`fill` pairs an opening brace with the next closing one instead.  So it misses a placeholder that
stands behind an opening brace which is not closed before it.

## Key results

- `replaceMatches_append_braced`: a placeholder is replaced whatever stands in front of it
- `replaced_iff`: replacing all matches is replacing all placeholders, in every template
- `fillChars_eq_replaceMatches`: the templates in which `fill` does so too
- `fillTemplate_replaces`: filling a template from a map or an instance
-/

namespace BrailleScript.Template

/-! ## Placeholders -/

/-- Is the character an opening or a closing brace? -/
def isBrace (c : Char) : Bool :=
  c == '\x7b' || c == '\x7d'

/-- A name in braces. -/
def braced (name : List Char) : List Char :=
  '\x7b' :: (name ++ ['\x7d'])

/-- The names that can stand in a placeholder. -/
def Braceless (name : List Char) : Prop :=
  ∀ c ∈ name, isBrace c = false

/-- Somewhere in the text stands a placeholder. -/
def HasPlaceholder (cs : List Char) : Prop :=
  ∃ pre name rest, Braceless name ∧ cs = pre ++ braced name ++ rest

/-- In front of the placeholder of `name` stands an opening brace, and there is no closing brace in
the text `between` the two. -/
def Nested (cs between name : List Char) : Prop :=
  ∃ pre rest, cs = pre ++ '\x7b' :: (between ++ braced name ++ rest) ∧
    '\x7d' ∉ between ∧ Braceless name

section Replacing

variable (value? : String → Option String)

/-- What a placeholder becomes: the text of its name, if that has one. -/
def filled (name : List Char) : List Char :=
  match value? (String.ofList name) with
  | some s => s.toList
  | none => braced name

/-- A text becomes another one by the replacing of its placeholders from left to right.  What was
put in is not looked at again, and all else is kept. -/
inductive Replaced : List Char → List Char → Prop
  | rest {cs : List Char} (h : ¬HasPlaceholder cs) : Replaced cs cs
  | placeholder {pre name rest out : List Char} (hpre : ¬HasPlaceholder pre)
      (hname : Braceless name) (h : Replaced rest out) :
      Replaced (pre ++ braced name ++ rest) (pre ++ filled value? name ++ out)

end Replacing

/-! ## Matches of a pattern -/

/-- The match of `\{([^{}]*)\}` at the start of a text: the name, and what is behind the match.  The
name is the longest run without braces; behind a shorter one no closing brace can stand. -/
def match? : List Char → Option (List Char × List Char)
  | [] => none
  | c :: cs =>
    if c = '\x7b' then
      match cs.dropWhile (!isBrace ·) with
      | [] => none
      | close :: behind =>
        if close = '\x7d' then some (cs.takeWhile (!isBrace ·), behind) else none
    else none

/-- The braces stand around the name, and the rest behind. -/
theorem braced_append (name rest : List Char) :
    braced name ++ rest = '\x7b' :: (name ++ '\x7d' :: rest) := by
  simp [braced]

/-- They add two characters. -/
theorem length_braced (name : List Char) : (braced name).length = name.length + 2 := by
  simp [braced]

/-- A name without either brace is braceless. -/
theorem braceless_of_not_mem {name : List Char} (hopen : '\x7b' ∉ name) (hclose : '\x7d' ∉ name) :
    Braceless name := by
  intro c hc
  have hne : c ≠ '\x7b' := fun heq => hopen (heq ▸ hc)
  have hne' : c ≠ '\x7d' := fun heq => hclose (heq ▸ hc)
  simp [isBrace, hne, hne']

/-- A braceless name in braces is a placeholder at once. -/
theorem match?_braced {name : List Char} (h : Braceless name) (rest : List Char) :
    match? (braced name ++ rest) = some (name, rest) := by
  have hrun : ∀ c ∈ name, (!isBrace c) = true := fun c hc => by rw [h c hc]; rfl
  have hclose : isBrace '\x7d' = true := rfl
  rw [braced_append, match?, if_pos rfl, List.dropWhile_append_of_pos hrun,
    List.takeWhile_append_of_pos hrun, List.dropWhile_cons, List.takeWhile_cons]
  simp [hclose]

/-- A match is a placeholder. -/
theorem eq_of_match? {cs name behind : List Char} (h : match? cs = some (name, behind)) :
    cs = braced name ++ behind ∧ Braceless name := by
  cases cs with
  | nil => cases h
  | cons c cs =>
    rw [match?] at h
    split at h
    case isFalse => cases h
    case isTrue hc =>
      -- without a closing brace there is no match
      split at h
      case h_1 => cases h
      case h_2 close rest hdrop =>
        split at h
        case isFalse => cases h
        case isTrue hclose =>
          cases h
          refine ⟨?_, fun d hd => ?_⟩
          · rw [braced_append, hc, ← hclose, ← hdrop, List.takeWhile_append_dropWhile]
          · have := List.mem_takeWhile_imp hd
            simpa using this

/-- More text behind a match changes nothing about it. -/
theorem match?_append {cs name behind : List Char} (h : match? cs = some (name, behind))
    (rest : List Char) : match? (cs ++ rest) = some (name, behind ++ rest) := by
  obtain ⟨heq, hname⟩ := eq_of_match? h
  rw [heq, List.append_assoc, match?_braced hname]

/-- No placeholder begins with another character. -/
theorem match?_eq_none {c : Char} (h : c ≠ '\x7b') (cs : List Char) : match? (c :: cs) = none := by
  rw [match?, if_neg h]

/-- Where there is no match yet, an opening brace behind the text makes none. -/
theorem match?_append_of_none {c : Char} {cs : List Char} (h : match? (c :: cs) = none)
    (rest : List Char) : match? (c :: (cs ++ '\x7b' :: rest)) = none := by
  cases hm : match? (c :: (cs ++ '\x7b' :: rest)) with
  | none => rfl
  | some found =>
    obtain ⟨name, behind⟩ := found
    obtain ⟨heq, hname⟩ := eq_of_match? hm
    rw [braced_append, List.cons.injEq] at heq
    obtain ⟨rfl, htail⟩ := heq
    -- the name ends in front of the new brace, so it ended there already
    rcases List.append_eq_append_iff.1 htail with ⟨more, rfl, hmore⟩ | ⟨more, rfl, hmore⟩
    · cases more with
      | nil => cases hmore
      | cons d more =>
        obtain ⟨rfl, -⟩ := List.cons.inj hmore
        have := hname '\x7b' (by simp)
        cases this
    · cases more with
      | nil => cases hmore
      | cons d more =>
        obtain ⟨rfl, rfl⟩ := List.cons.inj hmore
        have hfound := match?_braced hname more
        rw [braced_append] at hfound
        rw [hfound] at h
        cases h

/-- A text has a placeholder at its beginning or further on. -/
theorem hasPlaceholder_cons {c : Char} {cs : List Char} :
    HasPlaceholder (c :: cs) ↔ match? (c :: cs) ≠ none ∨ HasPlaceholder cs := by
  constructor
  case mp =>
    rintro ⟨pre, name, rest, hname, heq⟩
    -- a placeholder at the beginning is what `match?` finds
    cases pre with
    | nil =>
      left
      rw [heq, List.nil_append, match?_braced hname]
      exact Option.some_ne_none _
    | cons d pre =>
      right
      exact ⟨pre, name, rest, hname, (List.cons.inj heq).2⟩
  case mpr =>
    rintro (hmatch | ⟨pre, name, rest, hname, rfl⟩)
    · obtain ⟨⟨name, behind⟩, hfound⟩ := Option.ne_none_iff_exists'.1 hmatch
      obtain ⟨heq, hname⟩ := eq_of_match? hfound
      exact ⟨[], name, behind, hname, heq⟩
    · exact ⟨c :: pre, name, rest, hname, rfl⟩

/-- The empty text has none. -/
theorem not_hasPlaceholder_nil : ¬HasPlaceholder [] := by
  rintro ⟨pre, name, rest, -, heq⟩
  simp [braced] at heq

/-- Without a closing brace there is no placeholder. -/
theorem not_hasPlaceholder_of_unclosed {cs : List Char} (h : '\x7d' ∉ cs) : ¬HasPlaceholder cs := by
  rintro ⟨pre, name, rest, -, rfl⟩
  apply h
  simp [braced]

/-- Nor without an opening one. -/
theorem not_hasPlaceholder_of_unopened {cs : List Char} (h : '\x7b' ∉ cs) : ¬HasPlaceholder cs := by
  rintro ⟨pre, name, rest, -, rfl⟩
  apply h
  simp [braced]

/-! ## Replacing all matches -/

/-- Replaces all matches from left to right, and goes on behind each. -/
def replaceMatches (value? : String → Option String) (cs : List Char) : List Char :=
  match cs with
  | [] => []
  | c :: cs =>
    match _h : match? (c :: cs) with
    | some (name, behind) => filled value? name ++ replaceMatches value? behind
    | none => c :: replaceMatches value? cs
termination_by cs.length
decreasing_by
  · rw [(eq_of_match? _h).1, List.length_append, length_braced]
    omega
  · simp

variable {value? : String → Option String}

/-- In the empty text nothing is replaced. -/
theorem replaceMatches_nil : replaceMatches value? [] = [] := by
  rw [replaceMatches]

/-- A placeholder at the beginning is replaced, and then those behind it. -/
theorem replaceMatches_of_match {c : Char} {cs name behind : List Char}
    (h : match? (c :: cs) = some (name, behind)) :
    replaceMatches value? (c :: cs) = filled value? name ++ replaceMatches value? behind := by
  rw [replaceMatches]
  split
  · next heq =>
    rw [h] at heq
    cases heq
    rfl
  · next heq =>
    rw [h] at heq
    cases heq

/-- A character that begins none is kept. -/
theorem replaceMatches_of_none {c : Char} {cs : List Char} (h : match? (c :: cs) = none) :
    replaceMatches value? (c :: cs) = c :: replaceMatches value? cs := by
  rw [replaceMatches]
  split
  · next heq =>
    rw [h] at heq
    cases heq
  · rfl

/-- A text without placeholders is kept as it is. -/
theorem replaceMatches_eq_self {cs : List Char} (h : ¬HasPlaceholder cs) :
    replaceMatches value? cs = cs := by
  induction cs with
  | nil => exact replaceMatches_nil
  | cons c cs ih =>
    rw [hasPlaceholder_cons, not_or, not_not] at h
    rw [replaceMatches_of_none h.1, ih h.2]

/-- A braceless name in braces is replaced. -/
theorem replaceMatches_braced {name : List Char} (hname : Braceless name) (rest : List Char) :
    replaceMatches value? (braced name ++ rest) =
      filled value? name ++ replaceMatches value? rest := by
  have hmatch := match?_braced hname rest
  rw [braced_append] at hmatch ⊢
  exact replaceMatches_of_match hmatch

/-- A placeholder is replaced whatever stands in front of it. -/
theorem replaceMatches_append_braced {name : List Char} (hname : Braceless name)
    (pre rest : List Char) :
    replaceMatches value? (pre ++ braced name ++ rest) =
      replaceMatches value? pre ++ filled value? name ++ replaceMatches value? rest := by
  -- on the length, since a match in front may be long
  induction hn : pre.length using Nat.strongRecOn generalizing pre with
  | ind n ih =>
    subst hn
    cases pre with
    | nil =>
      rw [List.nil_append, replaceMatches_braced hname, replaceMatches_nil, List.nil_append]
    | cons c pre =>
      cases hmatch : match? (c :: pre) with
      | none =>
        have hlong := match?_append_of_none hmatch (name ++ '\x7d' :: rest)
        rw [← braced_append, ← List.append_assoc] at hlong
        rw [List.cons_append, List.cons_append, replaceMatches_of_none hlong,
          ih pre.length (by simp) pre rfl, replaceMatches_of_none hmatch]
        rfl
      | some found =>
        obtain ⟨key, behind⟩ := found
        obtain ⟨heq, -⟩ := eq_of_match? hmatch
        have hshort : behind.length < (c :: pre).length := by
          rw [heq, List.length_append, length_braced]
          omega
        have hlong := match?_append hmatch (braced name ++ rest)
        rw [List.cons_append] at hlong
        rw [List.append_assoc, List.cons_append, replaceMatches_of_match hlong,
          ← List.append_assoc, ih behind.length hshort behind rfl, replaceMatches_of_match hmatch]
        simp only [List.append_assoc]

/-- Replacing one more character that begins no match. -/
theorem Replaced.cons {c : Char} {cs out : List Char} (h : Replaced value? cs out)
    (hmatch : match? (c :: cs) = none) : Replaced value? (c :: cs) (c :: out) := by
  cases h with
  | rest hrest =>
    refine .rest ?_
    rw [hasPlaceholder_cons, not_or, not_not]
    exact ⟨hmatch, hrest⟩
  | @placeholder pre name rest out hpre hname h =>
    refine @Replaced.placeholder value? (c :: pre) name rest _ ?_ hname h
    rw [hasPlaceholder_cons, not_or, not_not]
    refine ⟨?_, hpre⟩
    -- a match in front of the placeholder would still be one with the placeholder behind it
    cases hfound : match? (c :: pre) with
    | none => rfl
    | some found =>
      have hlong := match?_append hfound (braced name ++ rest)
      rw [List.cons_append, ← List.append_assoc] at hlong
      rw [hlong] at hmatch
      cases hmatch

/-- Replacing from the left gives a text in which each placeholder is replaced. -/
theorem replaced_replaceMatches (cs : List Char) : Replaced value? cs (replaceMatches value? cs) := by
  -- behind a placeholder the text is shorter, but not by one character
  induction hn : cs.length using Nat.strongRecOn generalizing cs with
  | ind n ih =>
    subst hn
    cases cs with
    | nil =>
      rw [replaceMatches_nil]
      exact .rest not_hasPlaceholder_nil
    | cons c cs =>
      cases hmatch : match? (c :: cs) with
      | none =>
        rw [replaceMatches_of_none hmatch]
        exact (ih cs.length (by simp) cs rfl).cons hmatch
      | some found =>
        obtain ⟨name, behind⟩ := found
        obtain ⟨heq, hname⟩ := eq_of_match? hmatch
        have hshort : behind.length < (c :: cs).length := by
          rw [heq, List.length_append, length_braced]
          omega
        rw [replaceMatches_of_match hmatch, heq]
        exact .placeholder not_hasPlaceholder_nil hname (ih behind.length hshort behind rfl)

/-- Replacing all matches of the pattern is replacing all placeholders, in every template. -/
theorem replaced_iff {cs out : List Char} :
    Replaced value? cs out ↔ out = replaceMatches value? cs := by
  constructor
  case mp =>
    intro h
    -- in front of a placeholder nothing is to be replaced
    induction h with
    | rest h => exact (replaceMatches_eq_self h).symm
    | placeholder hpre hname _ ih =>
      rw [replaceMatches_append_braced hname, replaceMatches_eq_self hpre, ih]
  case mpr =>
    rintro rfl
    exact replaced_replaceMatches cs

/-! ## Filling -/

/-- A character that does not occur differs from all that do. -/
private theorem bne_of_not_mem {c : Char} {cs : List Char} (h : c ∉ cs) : ∀ d ∈ cs, (d != c) = true := by
  intro d hd
  rw [bne_iff_ne]
  rintro rfl
  exact h hd

/-- Filling the empty text leaves it empty. -/
theorem fillChars_nil : fillChars value? [] = [] := by
  rw [fillChars]

/-- A character that is no opening brace is kept. -/
theorem fillChars_of_ne {c : Char} (h : c ≠ '\x7b') (cs : List Char) :
    fillChars value? (c :: cs) = c :: fillChars value? cs := by
  rw [fillChars, if_neg h]

/-- Behind an opening brace that is never closed all stays as it is. -/
theorem fillChars_unclosed {cs : List Char} (h : '\x7d' ∉ cs) :
    fillChars value? ('\x7b' :: cs) = '\x7b' :: cs := by
  -- there is no closing brace to stop at
  have hdrop : cs.dropWhile (· != '\x7d') = [] :=
    List.dropWhile_eq_nil_iff.2 (bne_of_not_mem h)
  rw [fillChars, if_pos rfl]
  split
  · rfl
  · next heq =>
    rw [hdrop] at heq
    cases heq

/-- An opening brace is paired with the next closing one. -/
theorem fillChars_braced {name : List Char} (h : '\x7d' ∉ name) (rest : List Char) :
    fillChars value? (braced name ++ rest) = filled value? name ++ fillChars value? rest := by
  have hrun := bne_of_not_mem h
  -- the name has no closing brace, so the next one is its own
  have hdrop : (name ++ '\x7d' :: rest).dropWhile (· != '\x7d') = '\x7d' :: rest := by
    rw [List.dropWhile_append_of_pos hrun]
    rfl
  have htake : (name ++ '\x7d' :: rest).takeWhile (· != '\x7d') = name := by
    rw [List.takeWhile_append_of_pos hrun]
    simp
  rw [braced_append, fillChars, if_pos rfl]
  split
  · next heq =>
    rw [hdrop] at heq
    cases heq
  · next close behind heq =>
    rw [hdrop] at heq
    cases heq
    dsimp only
    rw [htake, filled]
    rfl

/-! ## Nested braces -/

/-- A nested placeholder stays nested behind one more character. -/
theorem Nested.cons {cs between name : List Char} (h : Nested cs between name) (c : Char) :
    Nested (c :: cs) between name := by
  obtain ⟨pre, rest, rfl, hbetween, hname⟩ := h
  exact ⟨c :: pre, rest, rfl, hbetween, hname⟩

/-- It does behind any text. -/
theorem Nested.append {cs between name : List Char} (h : Nested cs between name)
    (pre : List Char) : Nested (pre ++ cs) between name := by
  induction pre with
  | nil => exact h
  | cons c pre ih => exact ih.cons c

/-- A name between the first opening brace and the next closing one either has no braces, or a
placeholder stands at its end. -/
theorem braceless_or_nested {name : List Char} (h : '\x7d' ∉ name) (rest : List Char) :
    Braceless name ∨ ∃ between key, name = between ++ '\x7b' :: key ∧ Braceless key ∧
      Nested (braced name ++ rest) between key := by
  by_cases hopen : '\x7b' ∈ name
  · right
    -- split at the last opening brace
    obtain ⟨key, between, hrev, hkey⟩ := List.eq_append_cons_of_mem (List.mem_reverse.2 hopen)
    have hname : name = between.reverse ++ '\x7b' :: key.reverse := by
      rw [← List.reverse_reverse name, hrev]
      simp
    rw [hname, List.mem_append, not_or, List.mem_cons, not_or] at h
    have hbraceless : Braceless key.reverse :=
      braceless_of_not_mem (fun hmem => hkey (List.mem_reverse.1 hmem)) h.2.2
    refine ⟨between.reverse, key.reverse, hname, hbraceless, [], rest, ?_, h.1, hbraceless⟩
    rw [hname]
    simp [braced]
  · exact .inl (braceless_of_not_mem hopen h)

/-- A placeholder in open braces is replaced all the same. -/
theorem replaceMatches_nested {between name : List Char} (hbetween : '\x7d' ∉ between)
    (hname : Braceless name) (rest : List Char) :
    replaceMatches value? (braced (between ++ '\x7b' :: name) ++ rest) =
      '\x7b' :: between ++ filled value? name ++ replaceMatches value? rest := by
  -- no brace is closed in front of the placeholder
  have hfront : ¬HasPlaceholder ('\x7b' :: between) := by
    apply not_hasPlaceholder_of_unclosed
    simpa using hbetween
  have hsplit : braced (between ++ '\x7b' :: name) ++ rest =
      '\x7b' :: between ++ braced name ++ rest := by
    simp [braced]
  rw [hsplit, replaceMatches_append_braced hname, replaceMatches_eq_self hfront]

/-- Nothing is nested where no two opening braces follow each other without a closing one. -/
theorem not_nested_of_filter {cs : List Char} (h : ¬['\x7b', '\x7b'] <:+: cs.filter isBrace)
    (between name : List Char) : ¬Nested cs between name := by
  rintro ⟨pre, rest, rfl, hbetween, -⟩
  apply h
  have hopen : isBrace '\x7b' = true := rfl
  rw [List.filter_append, List.filter_cons_of_pos hopen, List.filter_append, List.filter_append,
    braced, List.filter_cons_of_pos hopen]
  refine List.IsInfix.trans ?_ (List.suffix_append _ _).isInfix
  cases hbraces : between.filter isBrace with
  | nil => exact ⟨[], _, rfl⟩
  | cons c braces =>
    -- a brace in between is an opening one
    have hc : c ∈ between.filter isBrace := hbraces ▸ List.mem_cons_self
    obtain ⟨hmem, hbrace⟩ := List.mem_filter.1 hc
    have hne : c ≠ '\x7d' := fun heq => hbetween (heq ▸ hmem)
    obtain rfl : c = '\x7b' := by simpa [isBrace, hne] using hbrace
    exact ⟨[], _, rfl⟩

/-- Filling replaces all placeholders, unless one that stands in open braces has a value, or all that
is between these braces and the next closing one has. -/
theorem fillChars_eq_replaceMatches {cs : List Char}
    (h : ∀ between name, Nested cs between name → value? (String.ofList name) = none ∧
      value? (String.ofList (between ++ '\x7b' :: name)) = none) :
    fillChars value? cs = replaceMatches value? cs := by
  induction hn : cs.length using Nat.strongRecOn generalizing cs with
  | ind n ih =>
    subst hn
    cases cs with
    | nil => rw [fillChars_nil, replaceMatches_nil]
    | cons c cs =>
      by_cases hc : c = '\x7b'
      · subst hc
        by_cases hclose : '\x7d' ∈ cs
        · obtain ⟨name, rest, rfl, hname⟩ := List.eq_append_cons_of_mem hclose
          rw [← braced_append] at h ih ⊢
          have hrest : fillChars value? rest = replaceMatches value? rest := by
            refine ih rest.length ?_ (fun between key hnested => ?_) rfl
            · rw [List.length_append, length_braced]
              omega
            · exact h between key (hnested.append _)
          rw [fillChars_braced hname, hrest]
          obtain hname' | ⟨between, key, rfl, hkey, hnested⟩ := braceless_or_nested hname rest
          · rw [replaceMatches_braced hname']
          · -- neither the inner name nor the outer one has a value, so all stays as it is
            obtain ⟨hinner, houter⟩ := h between key hnested
            have hbetween : '\x7d' ∉ between := fun hmem => hname (List.mem_append_left _ hmem)
            rw [replaceMatches_nested hbetween hkey, filled, filled, hinner, houter]
            simp [braced]
        · rw [fillChars_unclosed hclose, replaceMatches_eq_self]
          apply not_hasPlaceholder_of_unclosed
          simpa using hclose
      · rw [fillChars_of_ne hc, replaceMatches_of_none (match?_eq_none hc cs),
          ih cs.length (by simp) (fun between key hnested => h between key (hnested.cons c)) rfl]

/-! ## Templates of a program -/

/-- A template that is filled from a map or an instance becomes what it should: each name in braces
that has a value, and no braces in it, is replaced by the text of the value, from left to right, and
all else is kept, as the replacing of all matches does it.  This is so unless a placeholder with a
value stands in braces that are open, or all has a value that is between such braces. -/
theorem fillTemplate_replaces {template : String} {vars : Value} {m : Machine}
    (hvars : vars.type = .map ∨ vars.type = .object)
    (hnested : ∀ between name, Nested template.toList between name →
      Run.templateValue? m.heap vars (String.ofList name) = none ∧
      Run.templateValue? m.heap vars (String.ofList (between ++ '\x7b' :: name)) = none) :
    ∃ out, Run.fillTemplate template vars m = .ok (.text out) m ∧
      (∀ cs, Replaced (Run.templateValue? m.heap vars) template.toList cs ↔ cs = out.toList) ∧
      out.toList = replaceMatches (Run.templateValue? m.heap vars) template.toList := by
  -- filling from the left is replacing, as no placeholder is nested
  have hfill : (fill (Run.templateValue? m.heap vars) template).toList =
      replaceMatches (Run.templateValue? m.heap vars) template.toList := by
    rw [fill, String.toList_ofList, fillChars_eq_replaceMatches hnested]
  refine ⟨fill (Run.templateValue? m.heap vars) template, ?_, fun cs => ?_, hfill⟩
  · cases vars with
    | map | object => rfl
    | _ => exact absurd hvars (by simp [Value.type])
  · rw [replaced_iff, hfill]

/-- A machine with one map. -/
def machineWith (entries : Fields Value) : Machine :=
  { Machine.fresh {} (Ledger.start "sample" {}) (.dryRun "small" 64) (fun n => ⟨n⟩) with
    heap := (({} : Heap).newMap entries).2 }

/-- A closing brace in front, a name without a value and an open brace at the end. -/
theorem fillTemplate_replaces_greeting :
    let template := "\x7d\x7bname\x7d, \x7bother\x7d \x7b"
    let m := machineWith [("name", .text "Ada")]
    (∀ between name, ¬Nested template.toList between name) ∧
      Run.fillTemplate template (.map 0) m = .ok (.text "\x7dAda, \x7bother\x7d \x7b") m := by
  intro template m
  let value? := Run.templateValue? m.heap (.map 0)
  have hbraces : template.toList.filter isBrace =
      ['\x7d', '\x7b', '\x7d', '\x7b', '\x7d', '\x7b'] := by decide
  have hnot : ∀ between name, ¬Nested template.toList between name :=
    not_nested_of_filter (by rw [hbraces]; decide)
  obtain ⟨out, hrun, hreplaced, -⟩ : ∃ out, Run.fillTemplate template (.map 0) m =
      .ok (.text out) m ∧ (∀ cs, Replaced value? template.toList cs ↔ cs = out.toList) ∧ _ :=
    fillTemplate_replaces (.inl rfl) fun between name h => absurd h (hnot between name)
  -- the two placeholders, from behind
  have hother : Replaced value? (", ".toList ++ braced "other".toList ++ " \x7b".toList)
      (", ".toList ++ filled value? "other".toList ++ " \x7b".toList) :=
    .placeholder (not_hasPlaceholder_of_unclosed (by decide))
      (braceless_of_not_mem (by decide) (by decide))
      (.rest (not_hasPlaceholder_of_unclosed (by decide)))
  have hname : Replaced value? ("\x7d".toList ++ braced "name".toList ++ _)
      ("\x7d".toList ++ filled value? "name".toList ++ _) :=
    .placeholder (not_hasPlaceholder_of_unopened (by decide))
      (braceless_of_not_mem (by decide) (by decide)) hother
  have htemplate : template.toList = "\x7d".toList ++ braced "name".toList ++
      (", ".toList ++ braced "other".toList ++ " \x7b".toList) := by decide
  rw [← htemplate] at hname
  have hout := (hreplaced _).1 hname
  have hvalues : filled value? "name".toList = "Ada".toList ∧
      filled value? "other".toList = braced "other".toList := by
    rw [filled, filled, String.ofList_toList, String.ofList_toList]
    exact ⟨rfl, rfl⟩
  have hfilled : "\x7d".toList ++ "Ada".toList ++
      (", ".toList ++ braced "other".toList ++ " \x7b".toList) =
      "\x7dAda, \x7bother\x7d \x7b".toList := by decide
  rw [hvalues.1, hvalues.2, hfilled] at hout
  refine ⟨hnot, ?_⟩
  rw [hrun, String.toList_inj.1 hout]

/-- An opening brace in front of a placeholder: the placeholder should be replaced, and replacing all
matches does so, but filling leaves the template as it is. -/
theorem fillTemplate_nested :
    let m := machineWith [("k", .text "v")]
    let value? := Run.templateValue? m.heap (.map 0)
    Replaced value? "\x7b \x7bk\x7d".toList "\x7b v".toList ∧
      replaceMatches value? "\x7b \x7bk\x7d".toList = "\x7b v".toList ∧
      Run.fillTemplate "\x7b \x7bk\x7d" (.map 0) m = .ok (.text "\x7b \x7bk\x7d") m := by
  intro m value?
  have hreplaced : Replaced value? ("\x7b ".toList ++ braced "k".toList ++ [])
      ("\x7b ".toList ++ filled value? "k".toList ++ []) :=
    .placeholder (not_hasPlaceholder_of_unclosed (by decide))
      (braceless_of_not_mem (by decide) (by decide)) (.rest not_hasPlaceholder_nil)
  have hvalue : filled value? "k".toList = "v".toList := by
    rw [filled, String.ofList_toList]
    rfl
  have htemplate : "\x7b ".toList ++ braced "k".toList ++ [] = "\x7b \x7bk\x7d".toList := by decide
  have hout : "\x7b ".toList ++ "v".toList ++ [] = "\x7b v".toList := by decide
  rw [htemplate, hvalue, hout] at hreplaced
  -- the first opening brace is paired with the closing one, and the name between has no value
  have hfill : fillChars value? (braced " \x7bk".toList ++ []) =
      filled value? " \x7bk".toList ++ fillChars value? [] := fillChars_braced (by decide) []
  have hkept : filled value? " \x7bk".toList = braced " \x7bk".toList := by
    rw [filled, String.ofList_toList]
    rfl
  have hpaired : braced " \x7bk".toList ++ [] = "\x7b \x7bk\x7d".toList := by decide
  rw [hkept, fillChars_nil, hpaired] at hfill
  refine ⟨hreplaced, (replaced_iff.1 hreplaced).symm, ?_⟩
  show EStateM.Result.ok (Json.text (String.ofList (fillChars value? _))) m = _
  rw [hfill, String.ofList_toList]

end BrailleScript.Template
