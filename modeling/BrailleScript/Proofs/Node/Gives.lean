import BrailleScript.Node.Parser

/-!
# What a parser gives

`Gives R p post` says that the parser `p`, on a token list whose text tokens all satisfy `R`, only
succeeds with a result that has `post`, and leaves an end of the list.  Nothing is said of when it
succeeds.  `R` is there for texts that come back as literals of the tree.

## Key results

- `Gives.bind`, `Gives.mapped`: parsers one after the other
- `peek_gives`, `next_gives`: single tokens
- `repeatWhile_gives`, `listUntil_gives`: repetitions give lists of what their items give
-/

namespace BrailleScript

namespace Parser

variable {α β : Type} {R : String → Prop}

/-- All text tokens satisfy `R`. -/
def Texts (R : String → Prop) (ts : List Token) : Prop :=
  ∀ t ∈ ts, ∀ s, t.kind = .text s → R s

/-- The parser only succeeds with a result that has `post`, and takes tokens off the front. -/
def Gives (R : String → Prop) (p : Parser α) (post : α → Prop) : Prop :=
  ∀ s, Texts R s → ∀ x s', p.run s = .ok (x, s') → s' <:+ s ∧ post x

/-- A token whose text, if it has one, satisfies `R`. -/
def TextOf (R : String → Prop) (t : Token) : Prop :=
  ∀ s, t.kind = .text s → R s

namespace Gives

variable {p : Parser α} {q : α → Prop} {r : β → Prop}

/-- A weaker description of the result may be given. -/
theorem mono {q' : α → Prop} (h : Gives R p q) (hr : ∀ x, q x → q' x) : Gives R p q' := by
  intro s hs x s' hx
  obtain ⟨hsuffix, hq⟩ := h s hs x s' hx
  exact ⟨hsuffix, hr x hq⟩

/-- A result that fits is given. -/
theorem pure {x : α} (h : q x) : Gives R (Pure.pure x) q := by
  intro s _ y s' hy
  cases hy
  exact ⟨List.suffix_refl s, h⟩

/-- A parser that fails gives whatever is said. -/
theorem fail (message : String) (pos : Pos) : Gives R (Parser.fail message pos : Parser α) q :=
  fun _ _ _ _ hx => nomatch hx

/-- What the first parser gives is what the second one starts from. -/
theorem bind {g : α → Parser β} (hp : Gives R p q) (hg : ∀ x, q x → Gives R (g x) r) :
    Gives R (p >>= g) r := by
  intro s hs y s'' hy
  rw [StateT.run_bind] at hy
  cases hx : p.run s with
  | error e =>
    rw [hx] at hy
    exact nomatch hy
  | ok e =>
    obtain ⟨x, s'⟩ := e
    rw [hx] at hy
    obtain ⟨hsuffix, hq⟩ := hp s hs x s' hx
    -- what is left has only texts that were there
    have hs' : Texts R s' := fun t ht => hs t (hsuffix.subset ht)
    obtain ⟨hsuffix', hr⟩ := hg x hq s' hs' y s'' hy
    exact ⟨hsuffix'.trans hsuffix, hr⟩

/-- A changed result is given when the change fits. -/
theorem mapped {g : α → β} (hp : Gives R p q) (hg : ∀ x, q x → r (g x)) :
    Gives R (g <$> p) r := by
  rw [map_eq_pure_bind]
  exact hp.bind fun x hx => pure (hg x hx)

/-- The tokens are looked at. -/
theorem get : Gives R (get : Parser (List Token)) fun _ => True := by
  intro s _ x s' hx
  cases hx
  exact ⟨List.suffix_refl s, trivial⟩

end Gives

/-! ## Single tokens -/

/-- The next token has a text that is allowed. -/
theorem peek_gives : Gives R peek (TextOf R) := by
  intro s hs t s' ht
  cases s with
  | nil =>
    cases ht
    exact ⟨List.suffix_refl _, fun w hw => nomatch hw⟩
  | cons u rest =>
    cases ht
    exact ⟨List.suffix_refl _, fun w hw => hs t (.head _) w hw⟩

/-- So it has when it is taken. -/
theorem next_gives : Gives R next (TextOf R) := by
  refine peek_gives.bind fun t ht => ?_
  -- taking the token leaves fewer behind
  have htail : Gives R (modify List.tail : Parser PUnit) fun _ => True := by
    intro s _ x s' hx
    cases hx
    exact ⟨List.tail_suffix s, trivial⟩
  split
  · exact htail.bind fun _ _ => .pure ht
  · exact .pure ht

/-- Looking further ahead says nothing of it. -/
theorem peekAt_gives (n : Nat) : Gives R (peekAt n) fun _ => True := by
  refine Gives.get.bind fun s _ => ?_
  split
  · exact .pure trivial
  · exact .pure trivial

/-- A parser that fails at the next token gives whatever is said. -/
theorem failHere_gives (message : String) {q : α → Prop} :
    Gives R (failHere message : Parser α) q :=
  peek_gives.bind fun _ _ => .fail _ _

/-- A check gives some answer. -/
theorem check_gives (p : TokenKind → Bool) : Gives R (check p) fun _ => True :=
  peek_gives.bind fun _ _ => .pure trivial

/-- So does asking for the end. -/
theorem atEnd_gives : Gives R atEnd fun _ => True :=
  peek_gives.bind fun _ _ => .pure trivial

/-- So does accepting a token. -/
theorem accept_gives (p : TokenKind → Bool) : Gives R (accept p) fun _ => True := by
  refine (check_gives p).bind fun b _ => ?_
  cases b with
  | true => exact next_gives.bind fun _ _ => .pure trivial
  | false => exact .pure trivial

/-- An expected token has a text that is allowed. -/
theorem expect_gives (p : TokenKind → Bool) (message : String) :
    Gives R (expect p message) (TextOf R) := by
  refine (check_gives p).bind fun b _ => ?_
  cases b with
  | true => exact next_gives
  | false => exact failHere_gives message

/-- An identifier is some name. -/
theorem expectIdentifier_gives (message : String) :
    Gives R (expectIdentifier message) fun _ => True := by
  refine peek_gives.bind fun t _ => ?_
  split
  · exact next_gives.bind fun _ _ => .pure trivial
  · exact failHere_gives message

/-- So is the name of a member. -/
theorem expectMemberName_gives : Gives R expectMemberName fun _ => True := by
  refine peek_gives.bind fun t _ => ?_
  split
  · exact next_gives.bind fun _ _ => .pure trivial
  · exact next_gives.bind fun _ _ => .pure trivial
  · exact failHere_gives _

/-! ## Repetitions -/

section

variable {item : Parser α} {q : α → Prop}

/-- Repeating gives what each repetition gives. -/
theorem repeatFuel_gives {more : Parser Bool} (hmore : Gives R more fun _ => True)
    (hitem : Gives R item q) (fuel : Nat) :
    Gives R (repeatFuel more item fuel) fun xs => ∀ x ∈ xs, q x := by
  induction fuel with
  | zero => exact failHere_gives _
  | succ fuel ih =>
    refine hmore.bind fun b _ => ?_
    cases b with
    | true =>
      refine hitem.bind fun x hx => ih.bind fun xs hxs => .pure ?_
      exact List.forall_mem_cons.2 ⟨hx, hxs⟩
    | false => exact .pure fun x hx => absurd hx List.not_mem_nil

/-- So does repeating as long as there is more. -/
theorem repeatWhile_gives {more : Parser Bool} (hmore : Gives R more fun _ => True)
    (hitem : Gives R item q) : Gives R (repeatWhile more item) fun xs => ∀ x ∈ xs, q x :=
  Gives.get.bind fun s _ => repeatFuel_gives hmore hitem (s.length + 1)

/-- So does a list with commas. -/
theorem separatedFuel_gives (hitem : Gives R item q) (fuel : Nat) :
    Gives R (separatedFuel item fuel) fun xs => ∀ x ∈ xs, q x := by
  induction fuel with
  | zero => exact failHere_gives _
  | succ fuel ih =>
    refine hitem.bind fun x hx => (accept_gives _).bind fun b _ => ?_
    cases b with
    | true => exact ih.bind fun xs hxs => .pure (List.forall_mem_cons.2 ⟨hx, hxs⟩)
    | false => exact .pure (List.forall_mem_singleton.2 hx)

/-- So does a list up to its end. -/
theorem listUntil_gives (close : Delimiter) (message : String) (hitem : Gives R item q) :
    Gives R (listUntil close message item) fun xs => ∀ x ∈ xs, q x := by
  refine (check_gives _).bind fun b _ => ?_
  -- the list ends with its delimiter, empty or not
  have hclose (xs : List α) (hxs : ∀ x ∈ xs, q x) :
      Gives R (expectDelim close message >>= fun _ => Pure.pure xs) fun xs => ∀ x ∈ xs, q x :=
    (expect_gives _ message).bind fun _ _ => .pure hxs
  cases b with
  | true => exact hclose [] fun x hx => absurd hx List.not_mem_nil
  | false =>
    exact (Gives.get.bind fun s _ => separatedFuel_gives hitem (s.length + 1)).bind hclose

end

end Parser

end BrailleScript
