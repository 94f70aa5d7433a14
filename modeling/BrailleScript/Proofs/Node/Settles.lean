import BrailleScript.Proofs.Node.Takes

/-!
# What a parser comes to before the end of input

The tokens behind the first end of input play no part: a parser never takes that token, and what it
comes to does not depend on what is behind it.  `Settles` says this of one list of tokens, together
with two more things: how many tokens are taken at least when the parser succeeds, and that no
repetition has run out of fuel.  The parser may depend on the fuel; then the outcome is the same for
all fuel from some amount on.

## Key results

- `Settles.bind`, `Settles.first`: parsers one after the other
- `Settles.rounds`: a repetition that takes a token in each round needs no more rounds than there are
  tokens, and one more to see that
- `Moves.bind`, `Moves.first`, `Moves.fuel`: the same on every list of tokens
- `repeatWhile_moves`, `listUntil_moves`: the repetitions that the grammar shares
-/

namespace BrailleScript

/-- The error of a repetition that takes no token. -/
def SyntaxError.IsStall (e : SyntaxError) : Prop :=
  ∃ s, (Parser.stalled : Parser Unit).run s = .error e

namespace Parser

/-- `eof` is the first end of input, and `before` is what stands in front of it. -/
structure Upto (before : List Token) (eof : Token) : Prop where
  isEnd : eof.kind = .endOfInput
  noEnd : ∀ t ∈ before, t.kind.isEndOfInput = false

/-- A success leaves an end of `before` and has taken at least `k` tokens; a failure is no stall. -/
def Advances {α : Type} (k : Nat) (before : List Token) :
    Except SyntaxError (α × List Token) → Prop
  | .ok (_, left) => left <:+ before ∧ left.length + k ≤ before.length
  | .error e => ¬ e.IsStall

/-- The parser comes to one outcome on `before`, whatever stands behind the end of input, for all
fuel from `n` on. -/
def Settles {α : Type} (n : Nat) (p : Nat → Parser α) (k : Nat) (before : List Token)
    (eof : Token) : Prop :=
  Upto before eof → ∃ o, Advances k before o ∧ ∀ fuel, n ≤ fuel → ∀ after,
    (p fuel).run (before ++ eof :: after) = o.map fun r => (r.1, r.2 ++ eof :: after)

/-- The parser comes to one outcome in front of every end of input, and takes at least `k` tokens
if it succeeds. -/
def Moves {α : Type} (k : Nat) (p : Parser α) : Prop :=
  ∀ n before eof, Settles n (fun _ => p) k before eof

variable {α β : Type} {n k j : Nat} {before left rest : List Token} {eof t : Token}

/-- The tokens that are left stand in front of the same end of input. -/
theorem Upto.suffix (h : Upto before eof) (hs : left <:+ before) : Upto left eof :=
  ⟨h.isEnd, fun t ht => h.noEnd t (hs.subset ht)⟩

/-- Two parsers in a row take the tokens of both. -/
theorem Advances.trans {a b : Nat} {o : Except SyntaxError (α × List Token)} (hs : left <:+ before)
    (ha : left.length + a ≤ before.length) (hk : k ≤ a + b) (h : Advances b left o) :
    Advances k before o := by
  cases o with
  | error e => exact h
  | ok r =>
    obtain ⟨hsuffix, hlen⟩ := h
    exact ⟨hsuffix.trans hs, by omega⟩

/-! ## Sequences -/

namespace Settles

variable {p : Nat → Parser α} {g : α → Nat → Parser β} {a b : Nat}

/-- Parsers that settle do so in sequence. -/
theorem sequence (hk : k ≤ a + b) (hp : Settles n p a before eof)
    (hg : ∀ x left, left.length + a ≤ before.length → Settles n (g x) b left eof) :
    Settles n (fun fuel => p fuel >>= fun x => g x fuel) k before eof := by
  intro h
  obtain ⟨o, ho, hrun⟩ := hp h
  -- the first parser has settled on a failure or on what is left for the second
  cases o with
  | error e =>
    refine ⟨.error e, ho, fun fuel hfuel after => ?_⟩
    rw [StateT.run_bind, hrun fuel hfuel]
    rfl
  | ok r =>
    obtain ⟨x, left⟩ := r
    obtain ⟨hsuffix, hlen⟩ := ho
    obtain ⟨o, ho, hrun'⟩ := hg x left hlen (h.suffix hsuffix)
    refine ⟨o, ho.trans hsuffix hlen hk, fun fuel hfuel after => ?_⟩
    rw [run_bind_ok (hrun fuel hfuel after)]
    exact hrun' fuel hfuel after

/-- The tokens are taken by what comes second. -/
theorem bind (hp : Settles n p a before eof)
    (hg : ∀ x left, left.length + a ≤ before.length → Settles n (g x) k left eof) :
    Settles n (fun fuel => p fuel >>= fun x => g x fuel) k before eof :=
  sequence (by omega) hp hg

/-- The tokens are taken by what comes first. -/
theorem first (hp : Settles n p k before eof)
    (hg : ∀ x left, left.length + k ≤ before.length → Settles n (g x) 0 left eof) :
    Settles n (fun fuel => p fuel >>= fun x => g x fuel) k before eof :=
  sequence (by omega) hp hg

/-- A result settles and takes nothing. -/
theorem pure (x : α) : Settles n (fun _ => (Pure.pure x : Parser α)) 0 before eof :=
  fun _ => ⟨.ok (x, before), ⟨List.suffix_refl _, Nat.le_refl _⟩, fun _ _ _ => rfl⟩

/-- Changing a result changes nothing about that. -/
theorem mapped {f : α → β} (hp : Settles n p k before eof) :
    Settles n (fun fuel => f <$> p fuel) k before eof := by
  simp only [map_eq_pure_bind]
  exact hp.first fun x left _ => pure (f x)

/-- Fewer tokens may be asked for. -/
theorem fewer (hp : Settles n p k before eof) (ha : a ≤ k) : Settles n p a before eof := by
  intro h
  obtain ⟨o, ho, hrun⟩ := hp h
  exact ⟨o, ho.trans (a := 0) (List.suffix_refl _) (by omega) (by omega), hrun⟩

/-- What settles with some fuel settles with more. -/
theorem mono {m : Nat} (hp : Settles m p k before eof) (hm : m ≤ n) : Settles n p k before eof := by
  intro h
  obtain ⟨o, ho, hrun⟩ := hp h
  exact ⟨o, ho, fun fuel hfuel => hrun fuel (by omega)⟩

/-- Both parsers do the same on these tokens. -/
theorem congr {q : Nat → Parser α}
    (hq : ∀ fuel after, (q fuel).run (before ++ eof :: after) = (p fuel).run (before ++ eof :: after))
    (hp : Settles n p k before eof) : Settles n q k before eof := by
  intro h
  obtain ⟨o, ho, hrun⟩ := hp h
  exact ⟨o, ho, fun fuel hfuel after => (hq fuel after).trans (hrun fuel hfuel after)⟩

/-- A repetition with some state.  Before each further round a token is taken, so that the tokens
in front of the end of input bound the rounds. -/
theorem rounds {σ : Type} {p : σ → Nat → Parser α}
    (hround : ∀ s before, (∀ s' left, left.length < before.length →
        Settles before.length (p s') k left eof) →
      Settles before.length (fun fuel => p s (fuel + 1)) k before eof) :
    ∀ s before, Settles (before.length + 1) (p s) k before eof := by
  intro s before
  -- the tokens in front of the end of input bound the rounds
  induction hlen : before.length using Nat.strongRecOn generalizing s before with
  | _ len ih =>
    subst hlen
    intro h
    obtain ⟨o, ho, hrun⟩ := hround s before
      (fun s' left hleft => (ih _ hleft s' left rfl).mono hleft) h
    refine ⟨o, ho, fun fuel hfuel after => ?_⟩
    obtain ⟨fuel, rfl⟩ : ∃ m, fuel = m + 1 := ⟨fuel - 1, by omega⟩
    exact hrun fuel (by omega) after

end Settles

namespace Moves

variable {p : Parser α} {g : α → Parser β}

/-- Parsers that move do so in sequence, by what the second takes. -/
theorem bind (hp : Moves j p) (hg : ∀ x, Moves k (g x)) : Moves k (p >>= g) :=
  fun n before eof => (hp n before eof).bind fun x left _ => hg x n left eof

/-- They do so by what the first takes. -/
theorem first (hp : Moves k p) (hg : ∀ x, Moves 0 (g x)) : Moves k (p >>= g) :=
  fun n before eof => (hp n before eof).first fun x left _ => hg x n left eof

/-- A result moves by nothing. -/
theorem pure (x : α) : Moves 0 (Pure.pure x : Parser α) :=
  fun _ _ _ => .pure x

/-- Changing a result changes nothing about that. -/
theorem mapped {g : α → β} (hp : Moves k p) : Moves k (g <$> p) :=
  fun n before eof => (hp n before eof).mapped

/-- A parser that moves may be said to move by nothing. -/
theorem any (hp : Moves k p) : Moves 0 p :=
  fun n before eof => (hp n before eof).fewer (Nat.zero_le k)

/-- The tokens that are left are fuel enough. -/
theorem fuel {p : Nat → Parser α} (hp : ∀ before eof, Settles (before.length + 1) p k before eof) :
    Moves k (do p ((← get).length + 1)) := by
  intro n before eof h
  obtain ⟨o, ho, hrun⟩ := hp before eof h
  refine ⟨o, ho, fun _ _ after => ?_⟩
  refine hrun _ ?_ after
  rw [List.length_append]
  omega

/-- A parser with fuel for the tokens that are left moves. -/
theorem fuel_bind {p : Nat → Parser α}
    (hp : ∀ before eof, Settles (before.length + 1) p j before eof) (hg : ∀ x, Moves k (g x)) :
    Moves k (do let s ← get; let x ← p (s.length + 1); g x) := by
  rw [← bind_assoc]
  exact (fuel hp).bind hg

end Moves

/-! ## Failures -/

/-- The message begins otherwise than that of a stall. -/
def Apart (message : String) : Prop :=
  message.toList.head?.any (· != 'P') = true

/-- Only the beginning of a message counts. -/
theorem Apart.append {a : String} (h : Apart a) (b : String) : Apart (a ++ b) := by
  unfold Apart at h ⊢
  rw [String.toList_append]
  -- an empty message begins like any other
  cases hc : a.toList with
  | nil =>
    rw [hc] at h
    cases h
  | cons c cs =>
    rw [hc] at h
    exact h

/-- A message that begins otherwise is no stall. -/
theorem not_isStall_of_apart {e : SyntaxError} (h : Apart e.message) : ¬ e.IsStall := by
  rintro ⟨s, hs⟩
  obtain ⟨t, ht, -⟩ := run_peek s
  rw [stalled, failHere, run_bind_ok ht] at hs
  obtain rfl := Except.error.inj hs
  unfold Apart at h
  simp only [String.toList_append] at h
  cases h

/-- Failing with such a message moves. -/
theorem fail_moves {message : String} (hm : Apart message) (pos : Pos) :
    Moves k (fail message pos : Parser α) :=
  fun _ _ _ _ => ⟨.error ⟨message, pos⟩, not_isStall_of_apart hm, fun _ _ _ => rfl⟩

/-! ## Single tokens -/

/-- At the end of input, that is the next token. -/
theorem Settles.peek_nil {g : Token → Nat → Parser β} (hg : Settles n (g eof) k [] eof) :
    Settles n (fun fuel => peek >>= fun t => g t fuel) k [] eof :=
  hg.congr fun _ _ => rfl

/-- In front of it, the next token is the first. -/
theorem Settles.peek_cons {g : Token → Nat → Parser β}
    (hg : Settles n (g t) k (t :: rest) eof) :
    Settles n (fun fuel => peek >>= fun t => g t fuel) k (t :: rest) eof :=
  hg.congr fun _ _ => rfl

/-- What comes next is looked at: a token, or the end of input. -/
theorem peek_moves : Moves 0 peek := by
  intro n before eof
  cases before with
  | nil => exact (Settles.pure eof).congr fun _ _ => rfl
  | cons t rest => exact (Settles.pure t).congr fun _ _ => rfl

/-- Failing at the next token moves. -/
theorem failHere_moves {message : String} (hm : Apart message) :
    Moves k (failHere message : Parser α) :=
  peek_moves.bind fun _ => fail_moves ((hm.append _).append _) _

/-- The end of input stays. -/
theorem next_nil : Settles n (fun _ => next) 0 [] eof := by
  intro h
  refine ⟨.ok (eof, []), ⟨List.suffix_refl _, Nat.le_refl _⟩, fun _ _ after => ?_⟩
  rw [List.nil_append, next, run_bind_ok (run_peek_cons eof after), h.isEnd]
  rfl

/-- Taking a token in front of the end of input takes one. -/
theorem next_cons : Settles n (fun _ => next) 1 (t :: rest) eof := by
  intro h
  refine ⟨.ok (t, rest), ⟨List.suffix_cons t rest, Nat.le_refl _⟩, fun _ _ after => ?_⟩
  exact run_next_cons (h.noEnd t List.mem_cons_self) (rest ++ eof :: after)

/-- Taking a token moves, though at the end of input it takes none. -/
theorem next_moves : Moves 0 next := by
  intro n before eof
  cases before with
  | nil => exact next_nil
  | cons t rest => exact next_cons.fewer (Nat.zero_le 1)

/-- So does a check. -/
theorem check_moves (p : TokenKind → Bool) : Moves 0 (check p) :=
  peek_moves.bind fun _ => .pure _

/-- So does asking for the end. -/
theorem atEnd_moves : Moves 0 atEnd :=
  peek_moves.bind fun _ => .pure _

/-- So does accepting a token. -/
theorem accept_moves (p : TokenKind → Bool) : Moves 0 (accept p) := by
  refine (check_moves p).bind fun b => ?_
  cases b with
  | true => exact next_moves.bind fun _ => .pure _
  | false => exact .pure _

/-- The next kind does not hang on what stands behind the end of input. -/
theorem headKind_upto (before after : List Token) (eof : Token) :
    headKind (before ++ eof :: after) = headKind (before ++ [eof]) := by
  cases before <;> rfl

/-- The answer depends on the next token only. -/
theorem Settles.checkHead {p : TokenKind → Bool} {g : Bool → Nat → Parser β}
    (hg : Settles n (g (p (headKind (before ++ [eof])))) k before eof) :
    Settles n (fun fuel => check p >>= fun b => g b fuel) k before eof :=
  hg.congr fun _ after => by rw [run_bind_ok (run_check p _), headKind_upto before after]

/-- A kind that is asked for is never the end of input. -/
theorem expect_moves {p : TokenKind → Bool} (hp : p .endOfInput = false) {message : String}
    (hm : Apart message) : Moves 1 (expect p message) := by
  intro n before eof h
  refine Settles.checkHead ?_ h
  split
  · next hyes =>
    -- only the end of input is left, which is not what is asked for
    cases before with
    | nil =>
      have hend : p eof.kind = true := hyes
      rw [h.isEnd, hp] at hend
      cases hend
    | cons t rest => exact next_cons
  · exact failHere_moves hm n before eof

/-- An expected identifier is taken. -/
theorem expectIdentifier_moves {message : String} (hm : Apart message) :
    Moves 1 (expectIdentifier message) := by
  intro n before eof h
  cases before with
  | nil =>
    refine Settles.peek_nil ?_ h
    rw [h.isEnd]
    exact failHere_moves hm n [] eof
  | cons t rest =>
    refine Settles.peek_cons ?_ h
    split
    · exact next_cons.first fun _ left _ => .pure _
    · exact failHere_moves hm n _ eof

/-- So is the name of a member. -/
theorem expectMemberName_moves : Moves 1 expectMemberName := by
  intro n before eof h
  cases before with
  | nil =>
    refine Settles.peek_nil ?_ h
    rw [h.isEnd]
    exact failHere_moves (by rfl) n [] eof
  | cons t rest =>
    refine Settles.peek_cons ?_ h
    split
    · exact next_cons.first fun _ left _ => .pure _
    · exact next_cons.first fun _ left _ => .pure _
    · exact failHere_moves (by rfl) n _ eof

/-! ## Looking further ahead -/

/-- The tokens are looked at through `f`, which sees nothing behind the end of input. -/
theorem Settles.view {γ : Type} {f : List Token → γ} {v : γ} {g : γ → Nat → Parser β}
    (hf : ∀ after, f (before ++ eof :: after) = v) (hg : Settles n (g v) k before eof) :
    Settles n (fun fuel => do let s ← get; g (f s) fuel) k before eof := by
  refine hg.congr fun fuel after => ?_
  rw [run_bind_ok (run_get _), hf]

/-- A token in front of the end of input, or the end itself. -/
theorem Settles.peekAt {m : Nat} {g : TokenKind → Nat → Parser β} (hm : m ≤ before.length)
    (hg : ∀ kind, Settles n (g kind) k before eof) :
    Settles n (fun fuel => Parser.peekAt m >>= fun kind => g kind fuel) k before eof := by
  refine (hg (headKind (before.drop m ++ [eof]))).congr fun fuel after => ?_
  have hkind : headKind ((before ++ eof :: after).drop m) = headKind (before.drop m ++ [eof]) := by
    rw [List.drop_append_of_le_length hm]
    cases before.drop m <;> rfl
  rw [run_bind_ok (run_peekAt m _), hkind]

/-- What is looked at is of no consequence. -/
theorem Settles.peekAt_unused {m : Nat} {p : Nat → Parser β} (hp : Settles n p k before eof) :
    Settles n (fun fuel => Parser.peekAt m >>= fun _ => p fuel) k before eof :=
  hp.congr fun _ _ => by rw [run_bind_ok (run_peekAt m _)]

/-- Two tokens are looked at, and the second is of no consequence if the first is the end of
input. -/
theorem Settles.peekTwo {g : TokenKind → TokenKind → Nat → Parser β}
    (hend : ∀ x y, g .endOfInput x = g .endOfInput y)
    (hg : ∀ x y, Settles n (g x y) k (t :: rest) eof) :
    Settles n (fun fuel => Parser.peekAt 1 >>= fun x => Parser.peekAt 2 >>= fun y => g x y fuel) k
      (t :: rest) eof := by
  intro h
  cases rest with
  | nil =>
    -- the second token is behind the end of input
    refine (hg .endOfInput .endOfInput).congr (fun fuel after => ?_) h
    have hkind : headKind (([t] ++ eof :: after).drop 1) = .endOfInput := h.isEnd
    rw [run_bind_ok (run_peekAt 1 _), run_bind_ok (run_peekAt 2 _), hkind, hend _ .endOfInput]
  | cons u rest =>
    refine Settles.peekAt (by simp) (fun x => ?_) h
    exact Settles.peekAt (by simp) fun y => hg x y

/-! ## Repetitions -/

section

variable {item : Parser α}

/-- Repeating settles when each round takes a token. -/
theorem repeatFuel_settles {more : Parser Bool} (hmore : Moves j more) (hitem : Moves 1 item)
    (before : List Token) : Settles (before.length + 1) (repeatFuel more item) 0 before eof := by
  refine Settles.rounds (p := fun _ : Unit => repeatFuel more item) (fun _ before ih => ?_) () before
  refine (hmore _ before eof).bind fun b left hleft => ?_
  -- the round has taken a token, so fewer are left for the next
  cases b with
  | true =>
    refine (hitem _ left eof).bind fun x left' hleft' => ?_
    exact (ih () left' (by omega)).bind fun xs left'' _ => .pure _
  | false => exact .pure _

/-- So it moves with the fuel that it has. -/
theorem repeatWhile_moves {more : Parser Bool} (hmore : Moves j more) (hitem : Moves 1 item) :
    Moves 0 (repeatWhile more item) :=
  .fuel fun before _ => repeatFuel_settles hmore hitem before

/-- A list with commas settles when each entry takes a token. -/
theorem separatedFuel_settles (hitem : Moves 1 item) (before : List Token) :
    Settles (before.length + 1) (separatedFuel item) 1 before eof := by
  refine Settles.rounds (p := fun _ : Unit => separatedFuel item) (fun _ before ih => ?_) () before
  refine (hitem _ before eof).first fun x left hleft => ?_
  refine (accept_moves _ _ left eof).bind fun more left' hleft' => ?_
  -- the entry has taken a token, so fewer are left for the next
  cases more with
  | true =>
    refine (ih () left' (by omega)).fewer (Nat.zero_le 1) |>.bind fun xs left'' _ => ?_
    exact .pure _
  | false => exact .pure _

/-- A list up to its end moves. -/
theorem listUntil_moves {close : Delimiter} {message : String} (hm : Apart message)
    (hitem : Moves 1 item) : Moves 1 (listUntil close message item) := by
  refine (check_moves _).bind fun empty => ?_
  have hclose (xs : List α) : Moves 1 (expectDelim close message >>= fun _ => pure xs) :=
    (expect_moves rfl hm).first fun _ => .pure xs
  cases empty with
  | true => exact hclose []
  | false => exact .fuel_bind (fun before _ => separatedFuel_settles hitem before) hclose

end

end Parser

end BrailleScript
