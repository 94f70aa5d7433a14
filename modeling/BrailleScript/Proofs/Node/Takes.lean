import BrailleScript.Proofs.Node.Writer

/-!
# What a parser takes

`Takes p ks follow post` says that on every token list that begins with tokens of the kinds `ks`
and goes on with a kind that `follow` allows, the parser `p` succeeds, takes exactly those tokens
and gives a result with `post`.  What may follow belongs to the statement because parsers look
ahead: `x` alone is an expression only if no arrow comes next.

## Key results

- `Takes.bind`, `Takes.finish`: parsers one after the other take their tokens one after the other
- `Takes.look`, `Takes.peekHead`, `Takes.checkHead`, `Takes.token`: the steps that look at a token
  or take one
- `Takes.fuel`: the tokens that are left bound the repetitions
- `repeatWhile_takes`, `listUntil_takes`: repetitions take their items one after the other
-/

namespace BrailleScript.Parser

/-- The kind of the next token. -/
def headKind : List Token → TokenKind
  | t :: _ => t.kind
  | [] => .endOfInput

/-- On tokens of the kinds `ks`, with an allowed kind behind them, the parser takes these and
nothing else, and its result has `post`. -/
def Takes {α : Type} (p : Parser α) (ks : List TokenKind) (follow : TokenKind → Bool)
    (post : α → Prop) : Prop :=
  ∀ ts rest : List Token, ts.map (·.kind) = ks → follow (headKind rest) = true →
    ∃ x, p.run (ts ++ rest) = .ok (x, rest) ∧ post x

/-- Anything may follow. -/
def anyKind : TokenKind → Bool := fun _ => true

variable {α β : Type} {ks ks₁ ks₂ : List TokenKind} {k : TokenKind}
variable {follow follow₁ : TokenKind → Bool} {post : β → Prop}

/-- The next kind is that of the first token, or of what stands behind. -/
theorem headKind_append (ts rest : List Token) :
    headKind (ts ++ rest) = (ts.map (·.kind)).headD (headKind rest) := by
  cases ts <;> rfl

/-- A sequence goes on with a result. -/
theorem run_bind_ok {p : Parser α} {g : α → Parser β} {s s' : List Token} {x : α}
    (h : p.run s = .ok (x, s')) : (p >>= g).run s = (g x).run s' := by
  rw [StateT.run_bind, h]
  rfl

/-! ## Sequences -/

/-- A result takes no token. -/
theorem Takes.done {x : β} (h : post x) : Takes (pure x) [] follow post := by
  intro ts rest hts _
  obtain rfl : ts = [] := List.map_eq_nil_iff.mp hts
  exact ⟨x, rfl, h⟩

/-- Parsers take their tokens in a row. -/
theorem Takes.bind {p : Parser α} {g : α → Parser β} {q : α → Prop}
    (hp : Takes p ks₁ follow₁ q)
    (hf : ∀ k, follow k = true → follow₁ (ks₂.headD k) = true)
    (hg : ∀ x, q x → Takes (g x) ks₂ follow post) :
    Takes (p >>= g) (ks₁ ++ ks₂) follow post := by
  intro ts rest hts hrest
  -- what follows the first part is the head of the second, or what follows both
  obtain ⟨ts₁, ts₂, rfl, h₁, h₂⟩ := List.map_eq_append_iff.mp hts
  have hmid : follow₁ (headKind (ts₂ ++ rest)) = true := by
    rw [headKind_append, h₂]
    exact hf _ hrest
  obtain ⟨x, hx, hm⟩ := hp ts₁ (ts₂ ++ rest) h₁ hmid
  obtain ⟨y, hy, hq⟩ := hg x hm ts₂ rest h₂ hrest
  refine ⟨y, ?_, hq⟩
  rw [List.append_assoc, run_bind_ok hx, hy]

/-- A step that takes one token, whatever comes behind it. -/
theorem Takes.token {p : Parser α} {g : α → Parser β} {q : α → Prop}
    (hp : Takes p [k] anyKind q) (hg : ∀ x, q x → Takes (g x) ks follow post) :
    Takes (p >>= g) (k :: ks) follow post :=
  hp.bind (fun _ _ => rfl) hg

/-- A last step that takes nothing. -/
theorem Takes.finish {p : Parser α} {g : α → Parser β} {q : α → Prop}
    (hp : Takes p ks follow₁ q) (hf : ∀ k, follow k = true → follow₁ k = true)
    (hg : ∀ x, q x → Takes (g x) [] follow post) : Takes (p >>= g) ks follow post := by
  have h : Takes (p >>= g) (ks ++ []) follow post := hp.bind hf hg
  rwa [List.append_nil] at h

/-- A last step that only changes the result. -/
theorem Takes.result {p : Parser α} {g : α → β} {q : α → Prop} (hp : Takes p ks follow q)
    (hg : ∀ x, q x → post (g x)) : Takes (p >>= fun x => pure (g x)) ks follow post :=
  hp.finish (fun _ h => h) fun x hx => Takes.done (hg x hx)

/-- Changing a result takes the same tokens. -/
theorem Takes.mapped {p : Parser α} {g : α → β} {q : α → Prop} (hp : Takes p ks follow q)
    (hg : ∀ x, q x → post (g x)) : Takes (g <$> p) ks follow post := by
  rw [map_eq_pure_bind]
  exact hp.result hg

/-- Fewer kinds may be allowed to follow. -/
theorem Takes.before {p : Parser β} (hp : Takes p ks follow₁ post)
    (hf : ∀ k, follow k = true → follow₁ k = true) : Takes p ks follow post := by
  intro ts rest hts hrest
  exact hp ts rest hts (hf _ hrest)

/-- Less may be said of the result. -/
theorem Takes.imp {p : Parser β} {q : β → Prop} (hp : Takes p ks follow q)
    (hq : ∀ x, q x → post x) : Takes p ks follow post := by
  intro ts rest hts hrest
  obtain ⟨x, hx, h⟩ := hp ts rest hts hrest
  exact ⟨x, hx, hq x h⟩

/-! ## Looking ahead -/

/-- A step that only looks at the tokens. -/
theorem Takes.look {p : Parser α} {g : α → Parser β} {q : α → Prop}
    (hp : ∀ ts rest, ts.map (·.kind) = ks → follow (headKind rest) = true →
      ∃ x, p.run (ts ++ rest) = .ok (x, ts ++ rest) ∧ q x)
    (hg : ∀ x, q x → Takes (g x) ks follow post) : Takes (p >>= g) ks follow post := by
  intro ts rest hts hrest
  obtain ⟨x, hx, hm⟩ := hp ts rest hts hrest
  obtain ⟨y, hy, hq⟩ := hg x hm ts rest hts hrest
  exact ⟨y, by rw [run_bind_ok hx, hy], hq⟩

/-- Asking for the tokens gives those that are left. -/
theorem run_get (s : List Token) : (get : Parser (List Token)).run s = .ok (s, s) := rfl

/-- The next token is the first of these. -/
theorem run_peek_cons (t : Token) (s : List Token) : peek.run (t :: s) = .ok (t, t :: s) := rfl

/-- There is always a next token. -/
theorem run_peek (s : List Token) :
    ∃ t, peek.run s = .ok (t, s) ∧ t.kind = headKind s := by
  cases s with
  | nil => exact ⟨_, rfl, rfl⟩
  | cons t s => exact ⟨t, rfl, rfl⟩

/-- A check asks for its kind. -/
theorem run_check (p : TokenKind → Bool) (s : List Token) :
    (check p).run s = .ok (p (headKind s), s) := by
  obtain ⟨t, ht, hk⟩ := run_peek s
  rw [check, run_bind_ok ht, hk]
  rfl

/-- Looking ahead gives the kind of a later one. -/
theorem run_peekAt (n : Nat) (s : List Token) :
    (peekAt n).run s = .ok (headKind (s.drop n), s) := by
  rw [peekAt, run_bind_ok (run_get s), ← List.head?_drop]
  cases s.drop n with
  | nil => rfl
  | cons t rest => rfl

/-- The end is where the next kind says so. -/
theorem run_atEnd (s : List Token) : atEnd.run s = .ok ((headKind s).isEndOfInput, s) :=
  run_check TokenKind.isEndOfInput s

/-- The end of a statement is there, at a closing brace, or at a semicolon. -/
theorem run_atStatementEnd (s : List Token) : atStatementEnd.run s =
    .ok ((headKind s).isEndOfInput || (headKind s).isDelimiter .braceClose ||
      (headKind s).isDelimiter .semicolon, s) := by
  have hclose : (checkDelim .braceClose).run s = .ok (_, s) := run_check _ s
  have hsemi : (checkDelim .semicolon).run s = .ok (_, s) := run_check _ s
  rw [atStatementEnd, run_bind_ok (run_atEnd s), run_bind_ok hclose, run_bind_ok hsemi]
  rfl

/-- The next token is looked at; `q` holds of its kind. -/
theorem Takes.peekHead {g : Token → Parser β} {q : TokenKind → Prop}
    (hm : ∀ k, follow k = true → q (ks.headD k))
    (hg : ∀ t, q t.kind → Takes (g t) ks follow post) : Takes (peek >>= g) ks follow post := by
  refine Takes.look (fun ts rest hts hrest => ?_) hg
  obtain ⟨t, ht, hk⟩ := run_peek (ts ++ rest)
  refine ⟨t, ht, ?_⟩
  rw [hk, headKind_append, hts]
  exact hm _ hrest

/-- The next token is looked at, whatever it is. -/
theorem Takes.peekAny {g : Token → Parser β} (hg : ∀ t, Takes (g t) ks follow post) :
    Takes (peek >>= g) ks follow post :=
  Takes.peekHead (q := fun _ => True) (fun _ _ => trivial) fun t _ => hg t

/-- The next token is looked at, and its kind is known. -/
theorem Takes.peekCons {g : Token → Parser β}
    (hg : ∀ t, t.kind = k → Takes (g t) (k :: ks) follow post) :
    Takes (peek >>= g) (k :: ks) follow post :=
  Takes.peekHead (q := fun k' => k' = k) (fun _ _ => rfl) hg

/-- A check whose answer is known may stand in front. -/
theorem Takes.checkHead {p : TokenKind → Bool} {g : Bool → Parser β} (b : Bool)
    (hb : ∀ k, follow k = true → p (ks.headD k) = b) (hg : Takes (g b) ks follow post) :
    Takes (check p >>= g) ks follow post := by
  refine Takes.look (q := fun x => x = b) (fun ts rest hts hrest => ?_) (fun x hx => hx ▸ hg)
  refine ⟨_, run_check p (ts ++ rest), ?_⟩
  rw [headKind_append, hts]
  exact hb _ hrest

/-- A token further on is looked at, and its kind is known. -/
theorem Takes.peekAtHead {n : Nat} {g : TokenKind → Parser β} (hk : ks[n]? = some k)
    (hg : Takes (g k) ks follow post) : Takes (peekAt n >>= g) ks follow post := by
  refine Takes.look (q := (· = k)) (fun ts rest hts _ => ?_) fun x hx => hx ▸ hg
  refine ⟨_, run_peekAt n (ts ++ rest), ?_⟩
  -- the token that is looked at is still one of the written ones
  rw [← hts, List.getElem?_map, Option.map_eq_some_iff] at hk
  obtain ⟨t, ht, hkind⟩ := hk
  have hdrop : ((ts ++ rest).drop n).head? = some t := by
    rw [List.head?_drop, List.getElem?_append_left (List.getElem?_eq_some_iff.mp ht).1, ht]
  obtain ⟨us, hus⟩ := List.head?_eq_some_iff.mp hdrop
  rw [hus]
  exact hkind

/-- The number of tokens that are left bounds the repetitions. -/
theorem Takes.fuel {g : List Token → Parser β}
    (hg : ∀ s, ks.length ≤ s.length → Takes (g s) ks follow post) :
    Takes (get >>= g) ks follow post := by
  refine Takes.look (q := fun s => ks.length ≤ s.length) (fun ts rest hts _ => ?_) hg
  refine ⟨ts ++ rest, rfl, ?_⟩
  rw [← hts, List.length_map, List.length_append]
  omega

/-! ## Single tokens -/

/-- Taking a token takes the first one. -/
theorem run_next_cons {t : Token} (ht : t.kind.isEndOfInput = false) (s : List Token) :
    next.run (t :: s) = .ok (t, s) := by
  rw [next, run_bind_ok (run_peek_cons t s), ht]
  rfl

/-- Whatever it is, unless the end of input. -/
theorem next_takes (hk : k.isEndOfInput = false) : Takes next [k] anyKind (·.kind = k) := by
  intro ts rest hts _
  obtain ⟨t, rfl, ht⟩ := List.map_eq_singleton_iff.mp hts
  exact ⟨t, run_next_cons (ht ▸ hk) rest, ht⟩

/-- A token that is expected is taken. -/
theorem expect_takes {p : TokenKind → Bool} (message : String) (hp : p k = true)
    (hk : k.isEndOfInput = false) : Takes (expect p message) [k] anyKind (·.kind = k) := by
  refine Takes.checkHead true (fun _ _ => hp) ?_
  exact next_takes hk

/-- So is a delimiter. -/
theorem expectDelim_takes (d : Delimiter) (message : String) :
    Takes (expectDelim d message) [.delimiter d] anyKind (·.kind = .delimiter d) :=
  expect_takes message (beq_self_eq_true d) rfl

/-- So is an operator. -/
theorem expectOp_takes (o : Operator) (message : String) :
    Takes (expectOp o message) [.operator o] anyKind (·.kind = .operator o) :=
  expect_takes message (beq_self_eq_true o) rfl

/-- So is a keyword. -/
theorem expectKeyword_takes (w : Keyword) (message : String) :
    Takes (expectKeyword w message) [.keyword w] anyKind (·.kind = .keyword w) :=
  expect_takes message (beq_self_eq_true w) rfl

/-- So is an identifier, which gives its name. -/
theorem expectIdentifier_takes (name message : String) :
    Takes (expectIdentifier message) [.identifier name] anyKind (· = name) := by
  refine Takes.peekCons fun t ht => ?_
  rw [ht]
  exact (next_takes rfl).result fun _ _ => rfl

/-- So is the name of a member. -/
theorem expectMemberName_takes (name : String) :
    Takes expectMemberName [.identifier name] anyKind (· = name) := by
  refine Takes.peekCons fun t ht => ?_
  rw [ht]
  exact (next_takes rfl).result fun _ _ => rfl

/-- The next token is of the kind that is accepted, and is taken. -/
theorem Takes.acceptHead {p : TokenKind → Bool} {g : Bool → Parser β} (hp : p k = true)
    (hk : k.isEndOfInput = false) (hg : Takes (g true) ks follow post) :
    Takes (accept p >>= g) (k :: ks) follow post := by
  refine Takes.token (q := (· = true)) ?_ fun b hb => hb ▸ hg
  refine Takes.checkHead true (fun _ _ => hp) ?_
  exact (next_takes hk).result fun _ _ => rfl

/-- Another token is not accepted. -/
theorem run_accept_not {p : TokenKind → Bool} {s : List Token} (h : p (headKind s) = false) :
    (accept p).run s = .ok (false, s) := by
  rw [accept, run_bind_ok (run_check p s), h]
  rfl

/-- One that fits is. -/
theorem run_accept_cons {p : TokenKind → Bool} {t : Token} (hp : p t.kind = true)
    (ht : t.kind.isEndOfInput = false) (s : List Token) : (accept p).run (t :: s) = .ok (true, s) := by
  rw [accept, run_bind_ok (run_check p _), headKind, hp]
  exact run_bind_ok (run_next_cons ht s)

/-- The next token is of another kind, and stays. -/
theorem Takes.acceptNot {p : TokenKind → Bool} {g : Bool → Parser β}
    (hp : ∀ k, follow k = true → p (ks.headD k) = false) (hg : Takes (g false) ks follow post) :
    Takes (accept p >>= g) ks follow post := by
  refine Takes.look (q := (· = false)) (fun ts rest hts hrest => ?_) fun b hb => hb ▸ hg
  refine ⟨false, run_accept_not ?_, rfl⟩
  rw [headKind_append, hts]
  exact hp _ hrest

/-! ## Repetitions -/

section

variable {γ : Type} {item : Parser α} {write : β → List TokenKind} {view : α → γ} {goal : β → γ}

/-- Items as long as the next token does not stop them.  `view` is what is compared of a result and
`goal` what it must be. -/
theorem repeatFuel_takes {more : Parser Bool} {stop : TokenKind → Bool}
    (hmore : ∀ s, more.run s = .ok (!stop (headKind s), s)) {bs : List β}
    (hitem : ∀ b ∈ bs, Takes item (write b) follow fun x => view x = goal b)
    (hhead : ∀ b ∈ bs, ∃ k ks, write b = k :: ks ∧ stop k = false ∧ follow k = true)
    (hstop : ∀ k, stop k = true → follow k = true) (fuel : Nat) (hfuel : bs.length < fuel) :
    Takes (repeatFuel more item fuel) (bs.flatMap write) stop
      fun xs => xs.map view = bs.map goal := by
  -- one unit of fuel for each item, and one for the look that stops the repetition
  induction bs generalizing fuel with
  | nil =>
    obtain ⟨fuel, rfl⟩ : ∃ n, fuel = n + 1 := ⟨fuel - 1, by omega⟩
    refine Takes.look (q := (· = false)) (fun ts rest hts hrest => ⟨_, hmore _, ?_⟩) ?_
    · obtain rfl : ts = [] := List.map_eq_nil_iff.mp hts
      rw [List.nil_append, hrest]
      rfl
    · rintro _ rfl
      exact Takes.done rfl
  | cons b bs ih =>
    rw [List.length_cons] at hfuel
    obtain ⟨fuel, rfl⟩ : ∃ n, fuel = n + 1 := ⟨fuel - 1, by omega⟩
    obtain ⟨k, ks, hk, hgo, -⟩ := hhead b List.mem_cons_self
    rw [List.flatMap_cons]
    refine Takes.look (q := (· = true)) (fun ts rest hts _ => ⟨_, hmore _, ?_⟩) ?_
    · rw [headKind_append, hts, hk]
      exact congrArg not hgo
    · rintro _ rfl
      refine (hitem b List.mem_cons_self).bind (fun k hk => ?_) fun x hx => ?_
      · -- behind an item stands the next one, or what stops the repetition
        cases bs with
        | nil => exact hstop k hk
        | cons b' bs =>
          obtain ⟨k', ks', hk', -, hf⟩ := hhead b' (List.mem_cons_of_mem _ List.mem_cons_self)
          rw [List.flatMap_cons, hk']
          exact hf
      · have hrest := ih (fun b' hb' => hitem b' (List.mem_cons_of_mem _ hb'))
          (fun b' hb' => hhead b' (List.mem_cons_of_mem _ hb')) fuel (by omega)
        refine hrest.result fun xs hxs => ?_
        rw [List.map_cons, List.map_cons, hx, hxs]

/-- Written items have a token each at least. -/
theorem length_le_flatMap {bs : List β} (h : ∀ b ∈ bs, 0 < (write b).length) :
    bs.length ≤ (bs.flatMap write).length := by
  induction bs with
  | nil => exact Nat.le_refl 0
  | cons b bs ih =>
    have hb := h b List.mem_cons_self
    have hbs := ih fun b' hb' => h b' (List.mem_cons_of_mem _ hb')
    rw [List.flatMap_cons, List.length_cons, List.length_append]
    omega

/-- Written items are read back one by one, up to what stops them. -/
theorem repeatWhile_takes {more : Parser Bool} {stop : TokenKind → Bool}
    (hmore : ∀ s, more.run s = .ok (!stop (headKind s), s)) {bs : List β}
    (hitem : ∀ b ∈ bs, Takes item (write b) follow fun x => view x = goal b)
    (hhead : ∀ b ∈ bs, ∃ k ks, write b = k :: ks ∧ stop k = false ∧ follow k = true)
    (hstop : ∀ k, stop k = true → follow k = true) :
    Takes (repeatWhile more item) (bs.flatMap write) stop
      fun xs => xs.map view = bs.map goal := by
  refine Takes.fuel fun s hs => ?_
  -- each item has a token of its own, so the tokens that are left are fuel enough
  have hlen : bs.length ≤ (bs.flatMap write).length := by
    refine length_le_flatMap fun b hb => ?_
    obtain ⟨k, ks, hk, -⟩ := hhead b hb
    rw [hk]
    exact Nat.succ_pos _
  exact repeatFuel_takes hmore hitem hhead hstop _ (by omega)

/-- Items with commas between them. -/
theorem separatedFuel_takes (hcomma : follow (.delimiter .comma) = true) {bs : List β}
    (hbs : bs ≠ [])
    (hitem : ∀ b ∈ bs, Takes item (write b) follow fun x => view x = goal b)
    (fuel : Nat) (hfuel : bs.length ≤ fuel) :
    Takes (separatedFuel item fuel) (TokenKind.separated (bs.map write))
      (fun k => follow k && !k.isDelimiter .comma) fun xs => xs.map view = bs.map goal := by
  induction bs generalizing fuel with
  | nil => exact absurd rfl hbs
  | cons b bs ih =>
    rw [List.length_cons] at hfuel
    obtain ⟨fuel, rfl⟩ : ∃ n, fuel = n + 1 := ⟨fuel - 1, by omega⟩
    have hb := hitem b List.mem_cons_self
    -- a comma stands behind every item but the last
    cases bs with
    | nil =>
      refine hb.finish (fun k hk => (Bool.and_eq_true_iff.mp hk).1) fun x hx => ?_
      refine Takes.acceptNot (fun k hk => ?_) (Takes.done (congrArg (fun y => [y]) hx))
      have hk := (Bool.and_eq_true_iff.mp hk).2
      rwa [Bool.not_eq_true'] at hk
    | cons b' bs =>
      refine hb.bind (fun _ _ => hcomma) fun x hx => ?_
      refine Takes.acceptHead rfl rfl ?_
      have hrest := ih (List.cons_ne_nil _ _)
        (fun b'' hb'' => hitem b'' (List.mem_cons_of_mem _ hb'')) fuel (by omega)
      refine hrest.result fun xs hxs => ?_
      rw [List.map_cons, hx, hxs, List.map_cons (a := b)]

/-- So have items with commas between them. -/
theorem length_le_separated {bs : List β} (h : ∀ b ∈ bs, 0 < (write b).length) :
    bs.length ≤ (TokenKind.separated (bs.map write)).length := by
  induction bs with
  | nil => exact Nat.zero_le _
  | cons b bs ih =>
    have hb := h b List.mem_cons_self
    have hbs := ih fun b' hb' => h b' (List.mem_cons_of_mem _ hb')
    cases bs with
    | nil => exact hb
    | cons b' bs =>
      simp only [List.map_cons, List.length_cons] at hbs
      simp only [List.map_cons, TokenKind.separated, List.length_append, List.length_cons]
      omega

/-- Items with commas between them up to a closing delimiter that no item begins with. -/
theorem listUntil_takes {close : Delimiter} (message : String) {bs : List β}
    (hitem : ∀ b ∈ bs, Takes item (write b) follow fun x => view x = goal b)
    (hhead : ∀ b ∈ bs, ∃ k ks, write b = k :: ks ∧ k.isDelimiter close = false)
    (hcomma : follow (.delimiter .comma) = true) (hclose : follow (.delimiter close) = true)
    (hne : close ≠ .comma) :
    Takes (listUntil close message item)
      (TokenKind.separated (bs.map write) ++ [.delimiter close]) anyKind
      fun xs => xs.map view = bs.map goal := by
  cases bs with
  | nil =>
    refine Takes.checkHead true (fun _ _ => beq_self_eq_true close) ?_
    simp only [↓reduceIte, pure_bind]
    exact (expectDelim_takes close message).result fun _ _ => rfl
  | cons b bs =>
    obtain ⟨k, ks, hk, hopen⟩ := hhead b List.mem_cons_self
    -- the first item does not look like the closing delimiter
    have hfirst : ∀ k', ((TokenKind.separated ((b :: bs).map write)
        ++ [TokenKind.delimiter close]).headD k').isDelimiter close = false := by
      intro k'
      obtain ⟨ks', hks'⟩ := TokenKind.separated_cons k ks (bs.map write)
      rw [List.map_cons, hk, hks']
      exact hopen
    refine Takes.checkHead false (fun k' _ => hfirst k') ?_
    refine Takes.fuel fun s hs => ?_
    have hlen : (b :: bs).length ≤ (TokenKind.separated ((b :: bs).map write)).length := by
      refine length_le_separated fun b' hb' => ?_
      obtain ⟨k', ks', hk', -⟩ := hhead b' hb'
      rw [hk']
      exact Nat.succ_pos _
    rw [List.length_append] at hs
    have hitems := separatedFuel_takes hcomma (List.cons_ne_nil b bs) hitem (s.length + 1)
      (by omega)
    refine hitems.bind (fun _ _ => ?_) fun xs hxs => ?_
    · show (follow (.delimiter close) && !(Delimiter.comma == close)) = true
      rw [hclose, Bool.true_and, Bool.not_eq_true', beq_eq_false_iff_ne]
      exact hne.symm
    · exact (expectDelim_takes close message).result fun _ _ => hxs

end

end BrailleScript.Parser
