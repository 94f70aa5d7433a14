import BrailleScript.Proofs.Node.Settles
import BrailleScript.Proofs.Node.Spans

/-!
# In front of the end of input and in front of a semicolon

A parser that succeeds in front of the end of input comes to the same in front of a semicolon with
more tokens behind it: neither token goes on with what is in front of it, and nothing is looked at
behind them.  `AgreesOn` says this of two parsers that may differ in their fuel.  Some parsers, such as
those of statements, do see which of the two tokens is there.  They agree as long as they leave a token
in front of it, which they do inside of brackets.

## Key results

- `Agrees.bind`, `Agrees.closed`: parsers one after the other, and in front of a closing token
- `accept_steady`, `expect_steady`, `AgreesOn.peekAt`: single tokens
- `repeatWhile_steady`, `listUntil_steady`: the repetitions that the grammar shares
-/

namespace BrailleScript

namespace Parser

/-- Two tokens that end what is in front of them, and what is behind the second. -/
structure Boundary where
  eof : Token
  semicolon : Token
  after : List Token
  isEnd : eof.kind = .endOfInput
  isSemicolon : semicolon.kind = .delimiter .semicolon

variable {α β : Type} {b : Boundary} {whole : Prop} {before rest : List Token} {t : Token}

/-- What the first parser comes to on `before` and the end of input, the second comes to on `before`
and the semicolon.  Unless `whole` holds, this is said only if they leave a token of `before`. -/
def AgreesOn (b : Boundary) (whole : Prop) (before : List Token) (p q : Parser α) : Prop :=
  ∀ x s, p.run (before ++ [b.eof]) = .ok (x, s) → ∃ left, s = left ++ [b.eof] ∧ left <:+ before ∧
    (whole ∨ left ≠ [] →
      q.run (before ++ b.semicolon :: b.after) = .ok (x, left ++ b.semicolon :: b.after))

/-- The parsers agree on all tokens in front of the boundary. -/
def Agrees (b : Boundary) (whole : Prop) (p q : Parser α) : Prop :=
  ∀ before, AgreesOn b whole before p q

/-- The parser agrees with itself on these tokens. -/
abbrev SteadyOn (b : Boundary) (whole : Prop) (before : List Token) (p : Parser α) : Prop :=
  AgreesOn b whole before p p

/-- The parser agrees with itself. -/
abbrev Steady (b : Boundary) (whole : Prop) (p : Parser α) : Prop :=
  Agrees b whole p p

/-! ## Sequences -/

namespace AgreesOn

variable {p q : Parser α} {f g : α → Parser β}

/-- Parsers that agree do so in sequence. -/
theorem bind (hp : AgreesOn b whole before p q) (hg : ∀ x left, AgreesOn b whole left (f x) (g x)) :
    AgreesOn b whole before (p >>= f) (q >>= g) := by
  intro y s hy
  obtain ⟨x, s', hx, hy⟩ := exists_run_of_bind hy
  obtain ⟨mid, rfl, hmid, hq⟩ := hp x s' hx
  obtain ⟨left, rfl, hleft, hrun⟩ := hg x mid y s hy
  refine ⟨left, rfl, hleft.trans hmid, fun hw => ?_⟩
  -- what is left at the end was there in between
  have hw' : whole ∨ mid ≠ [] := hw.imp_right fun hne h => hne (List.suffix_nil.1 (h ▸ hleft))
  rw [run_bind_ok (hq hw')]
  exact hrun hw

/-- A result is read on both sides. -/
theorem pure (x : α) : SteadyOn b whole before (Pure.pure x) := by
  intro y s hy
  cases hy
  exact ⟨before, rfl, List.suffix_refl before, fun _ => rfl⟩

/-- A parser that fails agrees with any other. -/
theorem fail (message : String) (pos : Pos) (q : Parser α) :
    AgreesOn b whole before (Parser.fail message pos) q :=
  fun _ _ h => nomatch h

/-- So does one that fails at the next token. -/
theorem failHere (message : String) (q : Parser α) :
    AgreesOn b whole before (Parser.failHere message) q := by
  intro x s h
  obtain ⟨t, s', -, h⟩ := exists_run_of_bind h
  exact nomatch h

/-- Both parsers do the same as two others on these tokens. -/
theorem congr {p' q' : Parser α} (hp : p.run (before ++ [b.eof]) = p'.run (before ++ [b.eof]))
    (hq : q.run (before ++ b.semicolon :: b.after) = q'.run (before ++ b.semicolon :: b.after))
    (h : AgreesOn b whole before p' q') : AgreesOn b whole before p q := by
  intro x s hx
  rw [hq]
  exact h x s (hp ▸ hx)

/-- A parser that takes a token does not succeed at the end of input. -/
theorem atEnd {p : Nat → Parser α} {n : Nat} (hp : Settles n p 1 [] b.eof) {fuel : Nat}
    (hfuel : n ≤ fuel) (q : Parser α) : AgreesOn b whole [] (p fuel) q := by
  intro x s hx
  obtain ⟨o, ho, hrun⟩ := hp ⟨b.isEnd, nofun⟩
  rw [List.nil_append, ← List.nil_append [b.eof], hrun fuel hfuel] at hx
  cases o with
  | error e => exact nomatch hx
  | ok r => exact absurd ho.2 (Nat.not_succ_le_zero _)

end AgreesOn

namespace Agrees

variable {p q : Parser α} {f g : α → Parser β}

/-- Parsers that agree on all tokens do so in sequence. -/
theorem bind (hp : Agrees b whole p q) (hg : ∀ x, Agrees b whole (f x) (g x)) :
    Agrees b whole (p >>= f) (q >>= g) :=
  fun before => (hp before).bind fun x left => hg x left

/-- A result is read everywhere. -/
theorem pure (x : α) : Steady b whole (Pure.pure x) :=
  fun _ => .pure x

/-- A parser that fails agrees with any other. -/
theorem failHere (message : String) (q : Parser α) : Agrees b whole (Parser.failHere message) q :=
  fun _ => .failHere message q

/-- Changing the results of both keeps the agreement. -/
theorem mapped {h : α → β} (hp : Agrees b whole p q) : Agrees b whole (h <$> p) (h <$> q) := by
  simp only [map_eq_pure_bind]
  exact hp.bind fun x => pure (h x)

/-- Less is said. -/
theorem part (hp : Agrees b True p q) : Agrees b whole p q := by
  intro before x s hx
  obtain ⟨left, hs, hleft, hq⟩ := hp before x s hx
  exact ⟨left, hs, hleft, fun _ => hq (.inl trivial)⟩

/-- A parser that takes a token is looked at where there is one. -/
theorem cons (hp : Moves 1 p) (h : ∀ t rest, AgreesOn b whole (t :: rest) p q) :
    Agrees b whole p q := by
  intro before
  cases before with
  | nil => exact AgreesOn.atEnd (hp 0 [] b.eof) (Nat.le_refl 0) q
  | cons t rest => exact h t rest

/-- The tokens in front of the boundary bound the fuel. -/
theorem fuel {f g : Nat → Parser α} (h : ∀ m n, m ≤ n → Agrees b whole (f m) (g n)) :
    Agrees b whole (do f ((← get).length + 1)) (do g ((← get).length + 1)) := by
  intro before
  refine AgreesOn.congr (run_bind_ok (run_get _)) (run_bind_ok (run_get _)) (h _ _ ?_ before)
  simp only [List.length_append, List.length_cons, List.length_nil]
  omega

end Agrees

/-! ## Single tokens -/

/-- The kinds at the boundary are none that are asked for. -/
def Stops (p : TokenKind → Bool) : Prop :=
  p .endOfInput = false ∧ p (.delimiter .semicolon) = false

/-- A delimiter other than the semicolon is none of the kinds at the boundary. -/
theorem stops_delimiter {d : Delimiter} (h : d ≠ .semicolon) : Stops (TokenKind.isDelimiter d) :=
  ⟨rfl, by simpa [TokenKind.isDelimiter] using h⟩

/-- Nor is an operator. -/
theorem stops_operator (o : Operator) : Stops (TokenKind.isOperator o) :=
  ⟨rfl, rfl⟩

/-- Nor is a keyword. -/
theorem stops_keyword (k : Keyword) : Stops (TokenKind.isKeyword k) :=
  ⟨rfl, rfl⟩

/-- What stops at the boundary sees the same next token on both sides. -/
theorem headKind_boundary {p : TokenKind → Bool} (hp : Stops p) (before : List Token) :
    p (headKind (before ++ b.semicolon :: b.after)) = p (headKind (before ++ [b.eof])) := by
  cases before with
  | nil => exact (congrArg p b.isSemicolon).trans (hp.2.trans (hp.1.symm.trans (congrArg p b.isEnd.symm)))
  | cons t rest => rfl

section

variable {p : TokenKind → Bool} {message : String}

/-- At the boundary one parser sees the end of input and the other the semicolon. -/
theorem AgreesOn.peek_nil {f g : Token → Parser β} (h : AgreesOn b whole [] (f b.eof) (g b.semicolon)) :
    AgreesOn b whole [] (peek >>= f) (peek >>= g) :=
  h.congr rfl rfl

/-- In front of it both see the next token. -/
theorem AgreesOn.peek_cons {f g : Token → Parser β} (h : AgreesOn b whole (t :: rest) (f t) (g t)) :
    AgreesOn b whole (t :: rest) (peek >>= f) (peek >>= g) :=
  h.congr rfl rfl

/-- The token is taken, or stays if it is an end of input. -/
theorem AgreesOn.next {f g : Token → Parser β} (h : ∀ left, AgreesOn b whole left (f t) (g t)) :
    AgreesOn b whole (t :: rest) (Parser.next >>= f) (Parser.next >>= g) := by
  -- an end of input is never taken
  cases ht : t.kind.isEndOfInput with
  | true =>
    have hnext (s : List Token) : Parser.next.run (t :: s) = .ok (t, t :: s) := by
      rw [Parser.next, run_bind_ok (run_peek_cons t s), ht]
      rfl
    exact (h (t :: rest)).congr (run_bind_ok (hnext _)) (run_bind_ok (hnext _))
  | false =>
    intro x s hx
    have hnext (s : List Token) : Parser.next.run (t :: s) = .ok (t, s) := run_next_cons ht s
    rw [List.cons_append, run_bind_ok (hnext _)] at hx
    obtain ⟨left, hs, hleft, hrun⟩ := h rest x s hx
    refine ⟨left, hs, hleft.trans (List.suffix_cons t rest), fun hw => ?_⟩
    rw [List.cons_append, run_bind_ok (hnext _)]
    exact hrun hw

/-- At the boundary nothing is said of what is left. -/
theorem Agrees.inside {p q : Parser α} (hnil : ∀ x s, p.run [b.eof] = .ok (x, s) → s = [b.eof])
    (hcons : ∀ t rest, AgreesOn b False (t :: rest) p q) : Agrees b False p q := by
  intro before
  cases before with
  | nil =>
    intro x s hx
    exact ⟨[], hnil x s hx, List.suffix_refl [], fun h => absurd rfl (h.resolve_left id)⟩
  | cons t rest => exact hcons t rest

/-- Looking at the next token is steady as long as one is left. -/
theorem peek_steady : Steady b False peek := by
  refine .inside (fun x s hx => ?_) fun t rest => ?_
  · cases hx
    rfl
  · exact (AgreesOn.pure t).congr rfl rfl

/-- So is taking it. -/
theorem next_steady : Steady b False Parser.next := by
  refine .inside (fun x s hx => ?_) fun t rest => ?_
  · rw [Parser.next, run_bind_ok (run_peek_cons b.eof []), b.isEnd] at hx
    cases hx
    rfl
  · rw [← bind_pure Parser.next]
    exact AgreesOn.next fun left => .pure t

/-- So is asking for the end. -/
theorem atEnd_steady : Steady b False Parser.atEnd :=
  peek_steady.bind fun _ => .pure _

/-- The next token is looked at, and the boundary answers as the end of input does. -/
theorem check_steady (hp : Stops p) : Steady b whole (check p) := by
  intro before
  refine AgreesOn.congr (run_check p _) ?_ (.pure (p (headKind (before ++ [b.eof]))))
  rw [run_check, headKind_boundary hp]
  rfl

/-- A check that stops at the boundary comes out the same. -/
theorem AgreesOn.checkHead (hp : Stops p) {f g : Bool → Parser β}
    (h : AgreesOn b whole before (f (p (headKind (before ++ [b.eof]))))
      (g (p (headKind (before ++ [b.eof]))))) :
    AgreesOn b whole before (check p >>= f) (check p >>= g) := by
  refine h.congr (run_bind_ok (run_check p _)) ?_
  rw [run_bind_ok (run_check p _), headKind_boundary hp]

/-- The token is taken if it is of the kind, and it is not at the boundary. -/
theorem accept_steady (hp : Stops p) : Steady b whole (accept p) := by
  intro before
  refine AgreesOn.checkHead hp ?_
  -- what stops at the boundary is not the token that is asked for
  cases before with
  | nil =>
    rw [List.nil_append, headKind, b.isEnd, hp.1]
    exact .pure false
  | cons t rest =>
    cases p (headKind (t :: rest ++ [b.eof])) with
    | true => exact AgreesOn.next fun left => .pure true
    | false => exact .pure false

/-- Nothing is taken at the boundary. -/
theorem AgreesOn.accept_nil (hp : Stops p) {f g : Bool → Parser β}
    (h : AgreesOn b whole [] (f false) (g false)) :
    AgreesOn b whole [] (accept p >>= f) (accept p >>= g) :=
  h.congr (run_bind_ok (run_accept_not ((congrArg p b.isEnd).trans hp.1)))
    (run_bind_ok (run_accept_not ((congrArg p b.isSemicolon).trans hp.2)))

/-- Also a semicolon may be asked for where something is left. -/
theorem accept_inside (p : TokenKind → Bool) : Steady b False (accept p) := by
  have hcheck : Steady b False (check p) := peek_steady.bind fun _ => .pure _
  refine hcheck.bind fun found => ?_
  cases found with
  | true => exact next_steady.bind fun _ => .pure true
  | false => exact .pure false

/-- A token that stops at the boundary is expected in the same place. -/
theorem expect_steady (hp : Stops p) : Steady b whole (expect p message) := by
  intro before
  refine AgreesOn.checkHead hp ?_
  -- the end of the first text and the boundary are refused in the same way
  cases before with
  | nil =>
    rw [List.nil_append, headKind, b.isEnd, hp.1]
    exact .failHere _ _
  | cons t rest =>
    cases p (headKind (t :: rest ++ [b.eof])) with
    | true =>
      rw [← bind_pure Parser.next]
      exact AgreesOn.next fun left => .pure t
    | false => exact .failHere _ _

/-- The token is there, so what is in front of it need not be whole. -/
theorem Agrees.closed {q q' : Parser α} {f g : α → Token → Parser β} (hp : Stops p)
    (hq : Agrees b False q q') (hg : ∀ x t, Agrees b whole (f x t) (g x t)) :
    Agrees b whole (do let x ← q; let t ← expect p message; f x t)
      (do let x ← q'; let t ← expect p message; g x t) := by
  intro before y s hy
  obtain ⟨x, s', hx, hy⟩ := exists_run_of_bind hy
  obtain ⟨mid, rfl, hmid, hq'⟩ := hq before x s' hx
  obtain ⟨left, rfl, hleft, hrun⟩ := (expect_steady hp).bind (hg x) mid y s hy
  -- an end of input is not the token that is expected
  have hne : mid ≠ [] := by
    rintro rfl
    obtain ⟨t, s'', ht, -⟩ := exists_run_of_bind hy
    rw [expect, List.nil_append, run_bind_ok (run_check p _), headKind, b.isEnd, hp.1] at ht
    cases ht
  refine ⟨left, rfl, hleft.trans hmid, fun hw => ?_⟩
  rw [run_bind_ok (hq' (.inr hne))]
  exact hrun hw

/-- A repetition in front of a token that must be there. -/
theorem Agrees.fuel_closed {q q' : Nat → Parser α} {f g : α → Token → Parser β} (hp : Stops p)
    (hq : ∀ m n, m ≤ n → Agrees b False (q m) (q' n)) (hg : ∀ x t, Agrees b whole (f x t) (g x t)) :
    Agrees b whole (do let s ← get; let x ← q (s.length + 1); let t ← expect p message; f x t)
      (do let s ← get; let x ← q' (s.length + 1); let t ← expect p message; g x t) := by
  rw [← bind_assoc, ← bind_assoc]
  exact (Agrees.fuel hq).closed hp hg

/-- So is an identifier. -/
theorem expectIdentifier_steady :
    Steady b whole (expectIdentifier message) := by
  intro before
  cases before with
  | nil =>
    refine AgreesOn.peek_nil ?_
    rw [b.isEnd]
    exact .failHere _ _
  | cons t rest =>
    refine AgreesOn.peek_cons ?_
    split
    · exact AgreesOn.next fun left => .pure _
    · exact .failHere _ _

/-- So is the name of a member. -/
theorem expectMemberName_steady : Steady b whole expectMemberName := by
  intro before
  cases before with
  | nil =>
    refine AgreesOn.peek_nil ?_
    rw [b.isEnd]
    exact .failHere _ _
  | cons t rest =>
    refine AgreesOn.peek_cons ?_
    split
    · exact AgreesOn.next fun left => .pure _
    · exact AgreesOn.next fun left => .pure _
    · exact .failHere _ _

end

/-! ## Looking further ahead -/

/-- The tokens are looked at through `view`, which does not see which of the two is at the boundary. -/
theorem AgreesOn.view {γ : Type} (view : List Token → γ) (f : γ → Parser β)
    (hview : view (before ++ b.semicolon :: b.after) = view (before ++ [b.eof]))
    (h : SteadyOn b whole before (f (view (before ++ [b.eof])))) :
    SteadyOn b whole before (do f (view (← get))) := by
  refine h.congr (run_bind_ok (run_get _)) ?_
  rw [run_bind_ok (run_get _), hview]

/-- A token in front of the boundary, or one of the two that are there. -/
theorem AgreesOn.peekAt {n : Nat} {f : TokenKind → Parser β} (hn : n ≤ before.length)
    (hstop : f (.delimiter .semicolon) = f .endOfInput)
    (h : ∀ kind, SteadyOn b whole before (f kind)) :
    SteadyOn b whole before (Parser.peekAt n >>= f) := by
  refine AgreesOn.congr (run_bind_ok (run_peekAt n _)) (run_bind_ok (run_peekAt n _)) ?_
  rw [List.drop_append_of_le_length hn, List.drop_append_of_le_length hn]
  -- the look ahead ends in front of the boundary, or meets it
  cases before.drop n with
  | nil =>
    rw [List.nil_append, List.nil_append, headKind, headKind, b.isEnd, b.isSemicolon, hstop]
    exact h _
  | cons t rest => exact h t.kind

/-- Two tokens are looked at.  The second is of no consequence if the first is at the boundary. -/
theorem AgreesOn.peekTwo {f : TokenKind → TokenKind → Parser β}
    (hfirst : ∀ k, f (.delimiter .semicolon) k = f .endOfInput .endOfInput)
    (hsecond : ∀ k, f k (.delimiter .semicolon) = f k .endOfInput)
    (h : ∀ k l, SteadyOn b whole (t :: rest) (f k l)) :
    SteadyOn b whole (t :: rest) (Parser.peekAt 1 >>= fun k => Parser.peekAt 2 >>= f k) := by
  cases rest with
  | nil =>
    -- the first of them is at the boundary
    refine AgreesOn.congr ?_ ?_ (h .endOfInput .endOfInput)
    · rw [run_bind_ok (run_peekAt 1 _), run_bind_ok (run_peekAt 2 _)]
      exact congrArg (fun k => (f k .endOfInput).run [t, b.eof]) b.isEnd
    · rw [run_bind_ok (run_peekAt 1 _), run_bind_ok (run_peekAt 2 _)]
      rw [show headKind (List.drop 1 ([t] ++ b.semicolon :: b.after)) = .delimiter .semicolon from
        b.isSemicolon, hfirst]
  | cons u rest =>
    have hu : SteadyOn b whole (t :: u :: rest) (Parser.peekAt 2 >>= f u.kind) :=
      .peekAt (by simp) (hsecond u.kind) (h u.kind)
    exact hu.congr (run_bind_ok (run_peekAt 1 _)) (run_bind_ok (run_peekAt 1 _))

/-! ## Repetitions -/

section

variable {item : Parser α}

/-- Repetitions agree, however much further the second one may go. -/
theorem repeatFuel_agrees {more : Parser Bool} (hmore : Steady b False more)
    (hitem : Steady b False item) {m n : Nat} (hmn : m ≤ n) :
    Agrees b False (repeatFuel more item m) (repeatFuel more item n) := by
  -- both have fuel left for the same round
  induction m generalizing n with
  | zero => exact .failHere _ _
  | succ m ih =>
    obtain ⟨n, rfl⟩ : ∃ k, n = k + 1 := ⟨n - 1, by omega⟩
    refine hmore.bind fun again => ?_
    cases again with
    | true => exact hitem.bind fun x => (ih (Nat.le_of_succ_le_succ hmn)).bind fun xs => .pure _
    | false => exact .pure _

/-- Repeating is steady when what is repeated is. -/
theorem repeatWhile_steady {more : Parser Bool} (hmore : Steady b False more)
    (hitem : Steady b False item) :
    Steady b False (repeatWhile more item) :=
  .fuel fun _ _ hmn => repeatFuel_agrees hmore hitem hmn

/-- Lists with commas agree, however much further the second one may go. -/
theorem separatedFuel_agrees (hitem : Steady b False item) {m n : Nat} (hmn : m ≤ n) :
    Agrees b False (separatedFuel item m) (separatedFuel item n) := by
  -- both have fuel left for the same round
  induction m generalizing n with
  | zero => exact .failHere _ _
  | succ m ih =>
    obtain ⟨n, rfl⟩ : ∃ k, n = k + 1 := ⟨n - 1, by omega⟩
    refine hitem.bind fun x => (accept_inside _).bind fun more => ?_
    cases more with
    | true => exact (ih (Nat.le_of_succ_le_succ hmn)).bind fun xs => .pure _
    | false => exact .pure _

/-- A list in brackets ends in front of the boundary. -/
theorem listUntil_steady {close : Delimiter} (hclose : close ≠ .semicolon) {message : String}
    (hitem : Steady b False item) :
    Steady b whole (listUntil close message item) := by
  refine (check_steady (stops_delimiter hclose)).bind fun empty => ?_
  cases empty with
  | true => exact (expect_steady (stops_delimiter hclose)).bind fun _ => .pure _
  | false =>
    exact .fuel_closed (stops_delimiter hclose) (fun _ _ hmn => separatedFuel_agrees hitem hmn)
      fun xs _ => .pure xs

end

end Parser

end BrailleScript
