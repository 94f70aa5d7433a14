import BrailleScript.Proofs.Node.Reads

/-!
# The brackets around what a parser takes

Parentheses, brackets and braces that are open at some point of the tokens are there as the list of
the closing delimiters that are awaited, innermost first.  `Closes n w ts` says that the tokens `ts`
close those of `w`, and never have more than `n` open.  `Spans` says of a parser that it takes such
tokens if it succeeds; the room it is given is what it may open beyond what is open already.

The links ahead are counted along, that is, the tokens with which an assignment, a short lambda or
an alternative goes on at the same level: where a parser takes one, fewer are left.

## Key results

- `Closes.append`, `Closes.awaited_of_prefix`: tokens after each other, and what is open inside
- `Spans.bind`, `Spans.opens`, `Spans.closes`, `Spans.link`: parsers one after the other
- `repeatWhile_spans`, `listUntil_spans`: the repetitions that the grammar shares
-/

namespace BrailleScript

/-! ## Open brackets -/

/-- The closing delimiters that are awaited behind the delimiter, if `w` are awaited in front of it.
There is no answer if it closes something else. -/
def Delimiter.turn : Delimiter → List Delimiter → Option (List Delimiter)
  | .parenOpen, w => some (.parenClose :: w)
  | .bracketOpen, w => some (.bracketClose :: w)
  | .braceOpen, w => some (.braceClose :: w)
  | .comma, w | .colon, w | .semicolon, w => some w
  | _, [] => none
  | close, c :: w => if c = close then some w else none

/-- Tokens of other kinds neither open nor close. -/
def TokenKind.turn : TokenKind → List Delimiter → Option (List Delimiter)
  | .delimiter d, w => d.turn w
  | _, w => some w

/-- The closing delimiters that are awaited behind the tokens, innermost first. -/
def awaited (w : List Delimiter) (ts : List Token) : Option (List Delimiter) :=
  ts.foldlM (fun w t => t.kind.turn w) w

/-- Brackets that are open further out do not matter. -/
theorem Delimiter.turn_append {d : Delimiter} {v v' : List Delimiter} (h : d.turn v = some v')
    (w : List Delimiter) : d.turn (v ++ w) = some (v' ++ w) := by
  cases d with
  | parenOpen | bracketOpen | braceOpen | comma | colon | semicolon =>
    cases h
    rfl
  | parenClose | bracketClose | braceClose =>
    -- a closing delimiter closes the first of `v`, which is the first of both
    cases v with
    | nil => cases h
    | cons c v =>
      simp only [List.cons_append, Delimiter.turn] at h ⊢
      split at h
      next hc =>
        cases h
        rw [if_pos hc]
      next => cases h

/-- Nor do they for the other kinds. -/
theorem TokenKind.turn_append {k : TokenKind} {v v' : List Delimiter} (h : k.turn v = some v')
    (w : List Delimiter) : k.turn (v ++ w) = some (v' ++ w) := by
  cases k with
  | delimiter d => exact Delimiter.turn_append h w
  | _ => exact Option.some.inj h ▸ rfl

/-- The kind is that of a token, and of no bracket. -/
structure TokenKind.IsPlain (k : TokenKind) : Prop where
  noEnd : k.isEndOfInput = false
  turn : ∀ w, k.turn w = some w

namespace TokenKind

/-- An identifier turns no bracket. -/
theorem IsPlain.identifier (name : String) : IsPlain (.identifier name) := ⟨rfl, fun _ => rfl⟩

/-- Nor does a keyword. -/
theorem IsPlain.keyword (k : Keyword) : IsPlain (.keyword k) := ⟨rfl, fun _ => rfl⟩

/-- Nor does an operator. -/
theorem IsPlain.operator (o : Operator) : IsPlain (.operator o) := ⟨rfl, fun _ => rfl⟩

/-- Nor does what is asked for as a keyword. -/
theorem isPlain_of_isKeyword {k : Keyword} (kind : TokenKind) (h : kind.isKeyword k = true) :
    kind.IsPlain := by
  cases kind with
  | keyword k' => exact .keyword k'
  | _ => cases h

/-- Nor does what is asked for as an operator. -/
theorem isPlain_of_isOperator {o : Operator} (kind : TokenKind) (h : kind.isOperator o = true) :
    kind.IsPlain := by
  cases kind with
  | operator o' => exact .operator o'
  | _ => cases h

/-- A comma, a colon and a semicolon are no brackets. -/
theorem isPlain_of_isDelimiter {d : Delimiter} (hd : ∀ w, d.turn w = some w) (kind : TokenKind)
    (h : kind.isDelimiter d = true) : kind.IsPlain := by
  cases kind with
  | delimiter d' =>
    obtain rfl := eq_of_beq h
    exact ⟨rfl, hd⟩
  | _ => cases h

end TokenKind

/-! ## Links -/

/-- The tokens with which a chain of assignments, lambdas or conditionals goes on. -/
def TokenKind.isChainLink : TokenKind → Bool
  | .operator .assign | .operator .arrow | .keyword .elseKw => true
  | _ => false

/-- Nor does the link of a chain. -/
theorem TokenKind.isPlain_of_isChainLink {k : TokenKind} (h : k.isChainLink = true) :
    k.IsPlain := by
  cases k with
  | operator o => exact .operator o
  | keyword k => exact .keyword k
  | _ => cases h

/-- What is asked for as a link's operator is a link. -/
theorem TokenKind.isChainLink_of_isOperator {o : Operator} (ho : (operator o).isChainLink = true)
    (kind : TokenKind) (h : kind.isOperator o = true) : kind.isChainLink = true := by
  cases kind with
  | operator o' => rwa [← eq_of_beq h]
  | _ => cases h

/-- So is what is asked for as a link's keyword. -/
theorem TokenKind.isChainLink_of_isKeyword {k : Keyword} (hk : (keyword k).isChainLink = true)
    (kind : TokenKind) (h : kind.isKeyword k = true) : kind.isChainLink = true := by
  cases kind with
  | keyword k' => rwa [← eq_of_beq h]
  | _ => cases h

/-- The tokens in front of the first end of input. -/
def beforeEnd (ts : List Token) : List Token :=
  ts.takeWhile (!·.kind.isEndOfInput)

/-- A token in front of the end of input is one of those before it. -/
theorem beforeEnd_cons {t : Token} (ht : t.kind.isEndOfInput = false) (ts : List Token) :
    beforeEnd (t :: ts) = t :: beforeEnd ts :=
  List.takeWhile_cons_of_pos (by rw [ht]; rfl)

/-- The links in front of the first end of input. -/
def chainLinks (ts : List Token) : Nat :=
  (beforeEnd ts).countP (·.kind.isChainLink)

/-- It counts when it is a link. -/
theorem chainLinks_cons {t : Token} (ht : t.kind.isEndOfInput = false) (ts : List Token) :
    chainLinks (t :: ts) = chainLinks ts + if t.kind.isChainLink then 1 else 0 := by
  rw [chainLinks, beforeEnd_cons ht, List.countP_cons, chainLinks]

namespace Parser

/-- A keyword is of one kind. -/
theorem eq_of_isKeyword {kind : TokenKind} {k : Keyword} (h : kind.isKeyword k = true) :
    kind = .keyword k := by
  cases kind with
  | keyword k' => rw [eq_of_beq h]
  | _ => cases h

/-- The tokens close what `w` awaits, with at most `n` closing delimiters awaited at a time.  The
end of input is not among them. -/
inductive Closes (n : Nat) : List Delimiter → List Token → Prop
  | nil : Closes n [] []
  | cons {w w' : List Delimiter} {t : Token} {ts : List Token} (hw : w.length ≤ n)
    (hend : t.kind.isEndOfInput = false) (ht : t.kind.turn w = some w') (h : Closes n w' ts) :
    Closes n w (t :: ts)

namespace Closes

variable {m n : Nat} {v w : List Delimiter} {ts us : List Token}

/-- Tokens that close brackets do so in a row. -/
theorem append (hts : Closes m v ts) (hus : Closes n w us) (hm : m + w.length ≤ n) :
    Closes n (v ++ w) (ts ++ us) := by
  induction hts with
  | nil => exact hus
  | cons hv hend ht _ ih =>
    refine .cons ?_ hend (TokenKind.turn_append ht w) ih
    rw [List.length_append]
    omega

/-- More brackets may be allowed to be open. -/
theorem mono (hts : Closes m w ts) (hm : m ≤ n) : Closes n w ts := by
  have h := hts.append (.nil : Closes n [] []) hm
  rwa [List.append_nil, List.append_nil] at h

/-- Among such tokens is no end of input. -/
theorem noEnd (hts : Closes n w ts) : ∀ t ∈ ts, t.kind.isEndOfInput = false := by
  induction hts with
  | nil => exact nofun
  | cons _ hend _ _ ih => exact List.forall_mem_cons.2 ⟨hend, ih⟩

/-- Taking them leaves no more links. -/
theorem chainLinks_le (hts : Closes n w ts) (us : List Token) :
    chainLinks us ≤ chainLinks (ts ++ us) := by
  induction hts with
  | nil => exact Nat.le_refl _
  | cons _ hend _ _ ih =>
    rw [List.cons_append, chainLinks_cons hend]
    omega

/-- At no point inside are more than `n` awaited. -/
theorem awaited_of_prefix (hts : Closes n w ts) (h : us <+: ts) :
    ∃ v, awaited w us = some v ∧ v.length ≤ n := by
  -- token by token, with what is awaited behind each
  induction hts generalizing us with
  | nil =>
    rw [List.prefix_nil.1 h]
    exact ⟨[], rfl, Nat.zero_le n⟩
  | @cons w w' t ts hw _ ht _ ih =>
    cases us with
    | nil => exact ⟨w, rfl, hw⟩
    | cons u us =>
      obtain ⟨rfl, hus⟩ := List.cons_prefix_cons.1 h
      obtain ⟨v, hv, hn⟩ := ih hus
      refine ⟨v, ?_, hn⟩
      rw [awaited, List.foldlM_cons, ht]
      exact hv

end Closes

/-! ## Parsers that close what is open -/

variable {α β : Type}

/-- Parsers one after the other succeed if each of them does. -/
theorem exists_run_of_bind {p : Parser α} {g : α → Parser β} {s s'' : List Token} {y : β}
    (h : (p >>= g).run s = .ok (y, s'')) :
    ∃ x s', p.run s = .ok (x, s') ∧ (g x).run s' = .ok (y, s'') := by
  rw [StateT.run_bind] at h
  cases hx : p.run s with
  | error e =>
    rw [hx] at h
    exact nomatch h
  | ok o =>
    rw [hx] at h
    exact ⟨o.1, o.2, rfl, h⟩

/-- On `s`, with at most `K` links ahead, a success takes tokens that close `w`, with room for `r`
more brackets, and gives a result with `q`. -/
def SpansAt (K r : Nat) (w : List Delimiter) (s : List Token) (p : Parser α) (q : α → Prop) :
    Prop :=
  chainLinks s ≤ K → ∀ x s', p.run s = .ok (x, s') →
    ∃ ts, s = ts ++ s' ∧ Closes (w.length + r) w ts ∧ q x

/-- The same on all tokens. -/
def Spans (K r : Nat) (w : List Delimiter) (p : Parser α) (q : α → Prop) : Prop :=
  ∀ s, SpansAt K r w s p q

/-- The parser takes nothing if it succeeds. -/
def Looks (p : Parser α) : Prop :=
  ∀ s x s', p.run s = .ok (x, s') → s' = s

/-- The next token of `s` is `t`; past the last one it is an end of input. -/
def Heads (t : Token) (s : List Token) : Prop :=
  peek.run s = .ok (t, s)

/-- A next token that is no end of input is the first of those left. -/
theorem Heads.cons {t : Token} {s : List Token} (h : Heads t s) (ht : t.kind.isEndOfInput = false) :
    ∃ rest, s = t :: rest := by
  cases s with
  | nil =>
    cases h
    exact nomatch ht
  | cons u rest =>
    cases h
    exact ⟨rest, rfl⟩

/-! ### Looking -/

namespace Looks

variable {p : Parser α} {g : α → Parser β}

/-- A result takes nothing. -/
theorem pure (x : α) : Looks (Pure.pure x : Parser α) := by
  intro s y s' hy
  cases hy
  rfl

/-- Parsers that take nothing do so in sequence. -/
theorem bind (hp : Looks p) (hg : ∀ x, Looks (g x)) : Looks (p >>= g) := by
  intro s y s'' h
  obtain ⟨x, s', hx, hy⟩ := exists_run_of_bind h
  obtain rfl := hp s x s' hx
  exact hg x s' y s'' hy

end Looks

/-- Asking for the tokens takes nothing. -/
theorem get_looks : Looks (get : Parser (List Token)) := by
  intro s x s' hx
  cases hx
  rfl

/-- Nor does looking at the next one. -/
theorem peek_looks : Looks peek :=
  get_looks.bind fun s => by cases s <;> exact .pure _

/-- Nor does looking further ahead. -/
theorem peekAt_looks (n : Nat) : Looks (peekAt n) :=
  get_looks.bind fun s => by cases h : s[n]? <;> exact .pure _

/-- Nor does a check. -/
theorem check_looks (f : TokenKind → Bool) : Looks (check f) :=
  peek_looks.bind fun _ => .pure _

/-- Nor does asking for the end. -/
theorem atEnd_looks : Looks atEnd :=
  peek_looks.bind fun _ => .pure _

variable {K m r : Nat} {w : List Delimiter} {s rest : List Token} {t : Token}

namespace SpansAt

variable {p : Parser α} {g : α → Parser β} {q : α → Prop} {q' : β → Prop}

/-- What `p` closes is open no longer, which leaves more room. -/
theorem bind {v : List Delimiter} (hp : SpansAt K m v s p q) (hm : m ≤ r)
    (hg : ∀ x, q x → Spans K (r + v.length) w (g x) q') : SpansAt K r (v ++ w) s (p >>= g) q' := by
  intro hK y s'' h
  obtain ⟨x, s', hx, hy⟩ := exists_run_of_bind h
  obtain ⟨ts, rfl, hts, hq⟩ := hp hK x s' hx
  obtain ⟨us, rfl, hus, hq'⟩ := hg x hq s' (Nat.le_trans (hts.chainLinks_le s') hK) y s'' hy
  -- behind `p` only `w` is open, so that `g` has the room of `v` as well
  have hroom : w.length + (r + v.length) = (v ++ w).length + r := by
    rw [List.length_append]
    omega
  rw [hroom] at hus
  refine ⟨ts ++ us, (List.append_assoc _ _ _).symm, hts.append hus ?_, hq'⟩
  rw [List.length_append]
  omega

/-- A parser that takes nothing may stand in front. -/
theorem look (hp : Looks p) (hg : ∀ x, SpansAt K r w s (g x) q') :
    SpansAt K r w s (p >>= g) q' := by
  intro hK y s'' h
  obtain ⟨x, s', hx, hy⟩ := exists_run_of_bind h
  obtain rfl := hp s x s' hx
  exact hg x hK y s'' hy

/-- The next token is taken. -/
theorem step {p' : Parser α} {r' : Nat} {w' : List Delimiter}
    (hrun : p.run (t :: rest) = p'.run rest) (hend : t.kind.isEndOfInput = false)
    (ht : t.kind.turn w = some w') (hr : w'.length + r' = w.length + r)
    (h : SpansAt K r' w' rest p' q) : SpansAt K r w (t :: rest) p q := by
  intro hK x s' hx
  rw [hrun] at hx
  rw [chainLinks_cons hend] at hK
  obtain ⟨ts, rfl, hts, hq⟩ := h (by omega) x s' hx
  exact ⟨t :: ts, rfl, .cons (Nat.le_add_right _ _) hend ht (hr ▸ hts), hq⟩

/-- A link is taken, so that there are fewer ahead. -/
theorem step_link {p' : Parser α} (hrun : p.run (t :: rest) = p'.run rest)
    (ht : t.kind.isChainLink = true) (h : ∀ K', K = K' + 1 → SpansAt K' r w rest p' q) :
    SpansAt K r w (t :: rest) p q := by
  have hplain := TokenKind.isPlain_of_isChainLink ht
  intro hK x s' hx
  rw [hrun] at hx
  rw [chainLinks_cons hplain.noEnd, if_pos ht] at hK
  -- there is a link, so the bound is not zero
  obtain ⟨K, rfl⟩ : ∃ K', K = K' + 1 := ⟨K - 1, by omega⟩
  obtain ⟨ts, rfl, hts, hq⟩ := h K rfl (by omega) x s' hx
  exact ⟨t :: ts, rfl, .cons (Nat.le_add_right _ _) hplain.noEnd (hplain.turn w) hts, hq⟩

/-- More room may be given. -/
theorem roomier (hp : SpansAt K m w s p q) (hm : m ≤ r) : SpansAt K r w s p q := by
  intro hK x s' hx
  obtain ⟨ts, hs, hts, hq⟩ := hp hK x s' hx
  exact ⟨ts, hs, hts.mono (Nat.add_le_add_left hm _), hq⟩

/-! ### Looking at the next token -/

/-- What is done with the next token may be said of that token. -/
theorem peek {g : Token → Parser β} (hg : ∀ t, Heads t s → SpansAt K r w s (g t) q') :
    SpansAt K r w s (peek >>= g) q' := by
  obtain ⟨t, ht, -⟩ := run_peek s
  intro hK x s' hx
  rw [run_bind_ok ht] at hx
  exact hg t ht hK x s' hx

/-- A check tells which kind the next token is. -/
theorem check {f : TokenKind → Bool} {g : Bool → Parser β}
    (htrue : ∀ t, Heads t s → f t.kind = true → SpansAt K r w s (g true) q')
    (hfalse : SpansAt K r w s (g false) q') : SpansAt K r w s (check f >>= g) q' := by
  rw [Parser.check, bind_assoc]
  refine peek fun t ht => ?_
  rw [pure_bind]
  cases hf : f t.kind with
  | true => exact htrue t ht hf
  | false => exact hfalse

/-- Taking a token turns the open brackets. -/
theorem next {g : Token → Parser β} {r' : Nat} {w' : List Delimiter} (hs : Heads t s)
    (hend : t.kind.isEndOfInput = false) (ht : t.kind.turn w = some w')
    (hr : w'.length + r' = w.length + r) (hg : Spans K r' w' (g t) q') :
    SpansAt K r w s (next >>= g) q' := by
  obtain ⟨rest, rfl⟩ := hs.cons hend
  exact step (run_bind_ok (run_next_cons hend rest)) hend ht hr (hg rest)

/-- A token that is no bracket is taken. -/
theorem plain {g : Token → Parser β} (hs : Heads t s) (ht : t.kind.IsPlain)
    (hg : Spans K r w (g t) q') : SpansAt K r w s (Parser.next >>= g) q' :=
  next hs ht.noEnd (ht.turn w) rfl hg

/-- Taking a keyword turns none. -/
theorem keyword {g : Token → Parser β} {k : Keyword} (hs : Heads t s) (hk : t.kind = .keyword k)
    (hg : Spans K r w (g t) q') : SpansAt K r w s (Parser.next >>= g) q' :=
  plain hs (hk ▸ .keyword k) hg

/-- Taking a link leaves one link fewer. -/
theorem link {g : Token → Parser β} (hs : Heads t s) (ht : t.kind.isChainLink = true)
    (hg : ∀ K', K = K' + 1 → Spans K' r w (g t) q') :
    SpansAt K r w s (Parser.next >>= g) q' := by
  have hend := (TokenKind.isPlain_of_isChainLink ht).noEnd
  obtain ⟨rest, rfl⟩ := hs.cons hend
  exact step_link (run_bind_ok (run_next_cons hend rest)) ht fun K' hK => hg K' hK rest

/-- Taking an opening bracket opens it. -/
theorem opens {g : Token → Parser β} {o c : Delimiter} (hs : Heads t s) (ht : t.kind = .delimiter o)
    (ho : ∀ w, o.turn w = some (c :: w)) (hg : Spans K r (c :: w) (g t) q') :
    SpansAt K (r + 1) w s (Parser.next >>= g) q' := by
  refine next hs (by rw [ht]; rfl) (by rw [ht]; exact ho w) ?_ hg
  rw [List.length_cons]
  omega

end SpansAt

namespace Spans

variable {p : Parser α} {g : α → Parser β} {q : α → Prop} {q' : β → Prop} {f : TokenKind → Bool}

/-- Parsers in a row close what each of them closes. -/
theorem bind {v : List Delimiter} (hp : Spans K m v p q) (hm : m ≤ r)
    (hg : ∀ x, q x → Spans K (r + v.length) w (g x) q') : Spans K r (v ++ w) (p >>= g) q' :=
  fun s => (hp s).bind hm hg

/-- Tokens that are no brackets are taken first. -/
theorem after (hp : Spans K 0 [] p fun _ => True) (hg : ∀ x, Spans K r w (g x) q') :
    Spans K r w (p >>= g) q' :=
  hp.bind (Nat.zero_le r) fun x _ => hg x

/-- A parser that takes nothing may stand in front. -/
theorem look (hp : Looks p) (hg : ∀ x, Spans K r w (g x) q') : Spans K r w (p >>= g) q' :=
  fun s => .look hp fun x => hg x s

/-- A result closes nothing. -/
theorem pure {x : α} (h : q x) : Spans K r [] (Pure.pure x) q := by
  intro s _ y s' hy
  cases hy
  exact ⟨[], rfl, .nil, h⟩

/-- A parser that fails closes whatever is said. -/
theorem fail (message : String) (pos : Pos) : Spans K r w (Parser.fail message pos) q :=
  fun _ _ _ _ hx => nomatch hx

/-- So does one that fails at the next token. -/
theorem failHere (message : String) : Spans K r w (Parser.failHere message) q := by
  intro s
  exact .peek fun t _ => fail _ _ s

/-- A changed result is given when the change fits. -/
theorem mapped {f : α → β} (hp : Spans K m [] p q) (hm : m ≤ r) (hf : ∀ x, q x → q' (f x)) :
    Spans K r [] (f <$> p) q' := by
  rw [map_eq_pure_bind]
  exact hp.bind hm fun x hx => .pure (hf x hx)

/-- Less may be said of the result. -/
theorem imp {q'' : α → Prop} (hp : Spans K r w p q) (hq : ∀ x, q x → q'' x) :
    Spans K r w p q'' := by
  intro s hK x s' hx
  obtain ⟨ts, hs, hts, hx⟩ := hp s hK x s' hx
  exact ⟨ts, hs, hts, hq x hx⟩

/-- There may be room for more brackets. -/
theorem roomier (hp : Spans K m [] p q) (hm : m ≤ r) : Spans K r [] p q :=
  fun s => (hp s).roomier hm

/-- The next token is taken if it is of the given kind. -/
theorem accept {g : Bool → Parser β}
    (htrue : ∀ t s, Heads t s → f t.kind = true →
      SpansAt K r w s (next >>= fun _ => g true) q')
    (hfalse : Spans K r w (g false) q') : Spans K r w (accept f >>= g) q' := by
  intro s
  rw [Parser.accept, bind_assoc]
  refine .check (fun t hs ht => ?_) ?_
  · simpa only [if_true, bind_assoc, pure_bind] using htrue t s hs ht
  · simpa using hfalse s

/-- What follows an expected token may be said of that token. -/
theorem expect {g : Token → Parser β} {message : String}
    (hg : ∀ t s, Heads t s → f t.kind = true → SpansAt K r w s (next >>= g) q') :
    Spans K r w (expect f message >>= g) q' := by
  intro s
  rw [Parser.expect, bind_assoc]
  refine .check (fun t hs ht => hg t s hs ht) ?_
  -- any other token is an error
  have hfail : Spans K 0 [] (Parser.failHere message : Parser Token) fun _ => False :=
    failHere message
  exact (hfail s).bind (Nat.zero_le r) fun _ h => h.elim

/-- An expected bracket is opened. -/
theorem opens {g : Token → Parser β} {o c : Delimiter} {message : String}
    (ho : ∀ w, o.turn w = some (c :: w)) (hg : ∀ t, Spans K r (c :: w) (g t) q') :
    Spans K (r + 1) w (expectDelim o message >>= g) q' :=
  expect fun t _ hs ht => .opens hs (eq_of_isDelimiter ht) ho (hg t)

/-- A bracket is opened if it comes next. -/
theorem mayOpen {g : Bool → Parser β} {o c : Delimiter} (ho : ∀ w, o.turn w = some (c :: w))
    (htrue : Spans K r (c :: w) (g true) q') (hfalse : Spans K (r + 1) w (g false) q') :
    Spans K (r + 1) w (acceptDelim o >>= g) q' :=
  accept (fun _ _ hs ht => .opens hs (eq_of_isDelimiter ht) ho htrue) hfalse

/-- What is open is closed, which gives more room. -/
theorem closes {g : Token → Parser β} {c : Delimiter} {message : String}
    (hc : ∀ w, c.turn (c :: w) = some w) (hg : ∀ t, Spans K (r + 1) w (g t) q') :
    Spans K r (c :: w) (expectDelim c message >>= g) q' := by
  refine expect fun t s hs ht => ?_
  have hkind := eq_of_isDelimiter ht
  refine .next hs (by rw [hkind]; rfl) (by rw [hkind]; exact hc w) ?_ (hg t)
  rw [List.length_cons]
  omega

/-- A link is taken, so that there are fewer ahead. -/
theorem link {g : Token → Parser β} {message : String} (hf : ∀ k, f k = true → k.isChainLink = true)
    (hg : ∀ K' t, K = K' + 1 → Spans K' r w (g t) q') :
    Spans K r w (Parser.expect f message >>= g) q' :=
  expect fun t _ hs ht => .link hs (hf _ ht) fun K' hK => hg K' t hK

/-- An accepted link leaves one link fewer. -/
theorem mayLink {g : Bool → Parser β} (hf : ∀ k, f k = true → k.isChainLink = true)
    (htrue : ∀ K', K = K' + 1 → Spans K' r w (g true) q') (hfalse : Spans K r w (g false) q') :
    Spans K r w (Parser.accept f >>= g) q' :=
  accept (fun _ _ hs ht => .link hs (hf _ ht) htrue) hfalse

end Spans

/-! ## Single tokens -/

/-- A plain token that may be accepted closes nothing. -/
theorem accept_spans {f : TokenKind → Bool} (hf : ∀ k, f k = true → k.IsPlain) :
    Spans K 0 [] (accept f) fun _ => True := by
  rw [← bind_pure (accept f)]
  exact .accept (fun t s hs ht => .plain hs (hf _ ht) (.pure trivial)) (.pure trivial)

/-- Nor does one that is expected. -/
theorem expect_spans {f : TokenKind → Bool} {message : String} (hf : ∀ k, f k = true → k.IsPlain) :
    Spans K 0 [] (expect f message) fun _ => True := by
  rw [← bind_pure (expect f message)]
  exact .expect fun t s hs ht => .plain hs (hf _ ht) (.pure trivial)

/-- Nor does an accepted delimiter that is no bracket. -/
theorem acceptDelim_spans {d : Delimiter} (hd : ∀ w, d.turn w = some w) :
    Spans K 0 [] (acceptDelim d) fun _ => True :=
  accept_spans (TokenKind.isPlain_of_isDelimiter hd)

/-- Nor does an expected one. -/
theorem expectDelim_spans {d : Delimiter} {message : String} (hd : ∀ w, d.turn w = some w) :
    Spans K 0 [] (expectDelim d message) fun _ => True :=
  expect_spans (TokenKind.isPlain_of_isDelimiter hd)

/-- Nor does an accepted operator. -/
theorem acceptOp_spans {o : Operator} : Spans K 0 [] (acceptOp o) fun _ => True :=
  accept_spans TokenKind.isPlain_of_isOperator

/-- Nor does an expected one. -/
theorem expectOp_spans {o : Operator} {message : String} :
    Spans K 0 [] (expectOp o message) fun _ => True :=
  expect_spans TokenKind.isPlain_of_isOperator

/-- Nor does an accepted keyword. -/
theorem acceptKeyword_spans {k : Keyword} : Spans K 0 [] (acceptKeyword k) fun _ => True :=
  accept_spans TokenKind.isPlain_of_isKeyword

/-- Nor does an expected one. -/
theorem expectKeyword_spans {k : Keyword} {message : String} :
    Spans K 0 [] (expectKeyword k message) fun _ => True :=
  expect_spans TokenKind.isPlain_of_isKeyword

/-- Nor does an identifier. -/
theorem expectIdentifier_spans {message : String} :
    Spans K 0 [] (expectIdentifier message) fun _ => True := by
  intro s
  refine .peek fun t hs => ?_
  split
  next hk => exact .plain hs (hk ▸ .identifier _) (.pure trivial)
  next => exact Spans.failHere _ s

/-- Nor does the name of a member. -/
theorem expectMemberName_spans : Spans K 0 [] expectMemberName fun _ => True := by
  intro s
  refine .peek fun t hs => ?_
  split
  next hk => exact .plain hs (hk ▸ .identifier _) (.pure trivial)
  next hk => exact .keyword hs hk (.pure trivial)
  next => exact Spans.failHere _ s

/-! ## Repetitions -/

section

variable {item : Parser α} {q : α → Prop}

/-- Repeating closes what each round does, which is nothing. -/
theorem repeatFuel_spans {more : Parser Bool} (hmore : Looks more) (hitem : Spans K r [] item q)
    (fuel : Nat) : Spans K r [] (repeatFuel more item fuel) fun xs => ∀ x ∈ xs, q x := by
  induction fuel with
  | zero => exact .failHere _
  | succ fuel ih =>
    refine .look hmore fun b => ?_
    -- each round leaves as many brackets open as it has found
    cases b with
    | true =>
      refine hitem.bind (Nat.le_refl r) fun x hx => ih.bind (Nat.le_refl r) fun xs hxs => .pure ?_
      exact List.forall_mem_cons.2 ⟨hx, hxs⟩
    | false => exact .pure fun x hx => absurd hx List.not_mem_nil

/-- So it is as long as there is more. -/
theorem repeatWhile_spans {more : Parser Bool} (hmore : Looks more) (hitem : Spans K r [] item q) :
    Spans K r [] (repeatWhile more item) fun xs => ∀ x ∈ xs, q x :=
  .look get_looks fun s => repeatFuel_spans hmore hitem (s.length + 1)

/-- So it is with commas between. -/
theorem separatedFuel_spans (hitem : Spans K r [] item q) (fuel : Nat) :
    Spans K r [] (separatedFuel item fuel) fun xs => ∀ x ∈ xs, q x := by
  induction fuel with
  | zero => exact .failHere _
  | succ fuel ih =>
    refine hitem.bind (Nat.le_refl r) fun x hx => ?_
    refine (acceptDelim_spans fun _ => rfl).after fun b => ?_
    cases b with
    | true =>
      exact ih.bind (Nat.le_refl r) fun xs hxs => .pure (List.forall_mem_cons.2 ⟨hx, hxs⟩)
    | false => exact .pure (List.forall_mem_singleton.2 hx)

/-- The closing delimiter of the list was opened in front of it. -/
theorem listUntil_spans {close : Delimiter} {message : String}
    (hclose : ∀ w, close.turn (close :: w) = some w) (hitem : Spans K r [] item q) :
    Spans K r [close] (listUntil close message item) fun xs => ∀ x ∈ xs, q x := by
  refine .look (check_looks _) fun b => ?_
  -- the closing delimiter ends the list, empty or not
  have hrest (xs : List α) (hxs : ∀ x ∈ xs, q x) :
      Spans K r [close] (expectDelim close message >>= fun _ => pure xs) fun xs => ∀ x ∈ xs, q x :=
    .closes hclose fun _ => .pure hxs
  cases b with
  | true => exact hrest [] fun x hx => absurd hx List.not_mem_nil
  | false =>
    have hitems : Spans K r [] (get >>= fun s : List Token => separatedFuel item (s.length + 1))
        fun xs => ∀ x ∈ xs, q x :=
      .look get_looks fun s => separatedFuel_spans hitem (s.length + 1)
    exact hitems.bind (Nat.le_refl r) hrest

end

end Parser

end BrailleScript
