import BrailleScript.Machine.Primitives
import BrailleScript.Proofs.Heap.Json

/-!
# Requests

A call of a primitive whose result is kept asks for something: a text, a vector or a search.  A
`Request` holds all that its executor looks at, so what such a call does to a machine is a function
of the request and the surroundings (`Surroundings.serve`): it is answered from the cache or by
the backend, and the ledger records it.

## Key results

- `infer_eq`, `embed_eq`, `semanticSearch_eq`: these primitives put their request to the
  surroundings and make a value of the answer
- `semanticSearch_none`: a search without a request fails before it reaches the ledger
-/

namespace BrailleScript

/-- What a call whose result is kept asks for. -/
inductive Request where
  | infer (prompt model : String) (maxTokens : Nat)
  | embed (source : String)
  /-- Each document is given by its text, which is embedded, and its JSON form. -/
  | search (query : String) (documents : List (String × Json)) (count : Nat)

namespace Request

/-- The primitive that a request is made for. -/
def primitive : Request → Primitive
  | infer .. => .infer
  | embed _ => .embed
  | search .. => .semanticSearch

/-- The arguments by which the ledger knows the request. -/
def args : Request → Json
  | infer prompt model maxTokens => .array [.text prompt, .text model, .ofNat maxTokens]
  | embed source => .array [.text source]
  | search query documents count =>
    .array [.text query, .array (documents.map (·.2)), .ofNat count]

/-- The model that it names. -/
def model : Request → Option String
  | infer _ model _ => some model
  | _ => none

/-- The call that puts the request, from a position in the source. -/
def call (q : Request) (pos : Pos) : Call where
  primitive := q.primitive
  args := q.args
  model := q.model
  metadata := Run.placeOf pos

/-- What the requests of a search give, one after the other, and the number of the next request. -/
def askAll {α β : Type} (f : Nat → α → Except String β) : Nat → List α → Except Cause (List β) × Nat
  | n, [] => (.ok [], n)
  | n, a :: rest =>
    match f n a with
    | .error reason => (.error (.searchFailed reason), n + 1)
    | .ok b =>
      match askAll f (n + 1) rest with
      | (.ok bs, n') => (.ok (b :: bs), n')
      | (.error c, n') => (.error c, n')

/-- A document with its place among all documents: `text` says what its vector is asked for. -/
def rankOf {α : Type} (b : Backend) (query : String) (q : List Float) (text : α → String) (n : Nat)
    (d : α) : Except String (Int × α) :=
  (b.embed n (text d)).map fun v => (b.documentRank n query (text d) q v, d)

/-- The answer that the backend leads to, and the number of its next request. -/
def perform (b : Backend) (n : Nat) : Request → Except Cause Json × Nat
  | infer prompt model maxTokens =>
    match b.infer n prompt model maxTokens with
    | .ok answer => (.ok (.text answer), n + 1)
    | .error reason => (.error (.inferFailed reason), n + 1)
  | embed source =>
    match b.embed n source with
    | .ok vector => (.ok (.array (vector.map Run.floatJson)), n + 1)
    | .error reason => (.error (.embedFailed reason), n + 1)
  | search query documents count =>
    match b.embed n query with
    | .error reason => (.error (.searchFailed reason), n + 1)
    | .ok q =>
      match askAll (rankOf b query q (·.1)) (n + 1) documents with
      | (.ok ranked, n') => (.ok (.array ((Backend.topRanked count ranked).map (·.2))), n')
      | (.error c, n') => (.error c, n')

/-! ### The requests of a search -/

section AskAll

variable {α β γ : Type} {f : Nat → α → Except String β} {n n' : Nat} {as : List α} {bs : List β}

/-- What is made of each answer alone can be made of all of them at the end. -/
theorem askAll_map (g : β → γ) (n : Nat) (as : List α) :
    askAll (fun n a => (f n a).map g) n as =
      match askAll f n as with
      | (.ok bs, n') => (.ok (bs.map g), n')
      | (.error c, n') => (.error c, n') := by
  -- the count of requests goes up by one with each item
  induction as generalizing n with
  | nil => rfl
  | cons a as ih =>
    rw [askAll, askAll]
    cases f n a with
    | error reason => rfl
    | ok b =>
      show (match askAll (fun n a => (f n a).map g) (n + 1) as with
        | (.ok bs, n') => (Except.ok (g b :: bs), n')
        | (.error c, n') => (.error c, n')) = _
      rw [ih]
      cases askAll f (n + 1) as with
      | mk result n' => cases result <;> rfl

/-- The requests for the items of a list are those for what it was made from. -/
theorem askAll_map_left (f : Nat → γ → Except String β) (g : α → γ) (n : Nat) (as : List α) :
    askAll f n (as.map g) = askAll (fun n a => f n (g a)) n as := by
  induction as generalizing n with
  | nil => rfl
  | cons a as ih =>
    rw [List.map_cons, askAll, askAll]
    cases f n (g a) with
    | error reason => rfl
    | ok b => rw [ih]

/-- Every answer is the answer for some item. -/
theorem exists_of_mem_askAll (h : askAll f n as = (.ok bs, n')) {b : β} (hb : b ∈ bs) :
    ∃ a ∈ as, ∃ k, f k a = .ok b := by
  induction as generalizing n n' bs with
  | nil =>
    cases h
    cases hb
  | cons a as ih =>
    rw [askAll] at h
    -- a refusal ends the asking without an answer
    cases hf : f n a with
    | error reason =>
      rw [hf] at h
      cases h
    | ok first =>
      rw [hf] at h
      cases hrest : askAll f (n + 1) as with
      | mk result k =>
        simp only [hrest] at h
        cases result with
        | error c => cases h
        | ok others =>
          cases h
          rcases List.mem_cons.1 hb with rfl | hb
          · exact ⟨a, List.mem_cons_self, n, hf⟩
          · obtain ⟨a', ha', hk⟩ := ih hrest hb
            exact ⟨a', List.mem_cons_of_mem _ ha', hk⟩

end AskAll

section RankOf

variable {α β : Type} {b : Backend} {query : String} {q : List Float} {text : α → String}
  {n n' : Nat} {as : List α} {ranked : List (Int × α)}

/-- What is ranked are the documents. -/
theorem mem_of_mem_askAll_rankOf (h : askAll (rankOf b query q text) n as = (.ok ranked, n'))
    {p : Int × α} (hp : p ∈ ranked) : p.2 ∈ as := by
  obtain ⟨a, ha, k, hk⟩ := exists_of_mem_askAll h hp
  unfold rankOf at hk
  cases he : b.embed k (text a) with
  | error reason =>
    rw [he] at hk
    cases hk
  | ok v =>
    rw [he] at hk
    cases hk
    exact ha

/-- Ranking what documents are made into is ranking the documents. -/
theorem askAll_rankOf_map {text : β → String} (g : α → β) (n : Nat) (as : List α) :
    askAll (rankOf b query q text) n (as.map g) =
      match askAll (rankOf b query q fun a => text (g a)) n as with
      | (.ok ranked, n') => (.ok (ranked.map fun p => (p.1, g p.2)), n')
      | (.error c, n') => (.error c, n') := by
  -- a document has the rank of what it was made from
  have hrank : (fun n a => rankOf b query q text n (g a)) =
      fun n a => (rankOf b query q (fun a => text (g a)) n a).map fun p => (p.1, g p.2) := by
    funext n a
    unfold rankOf
    cases b.embed n (text (g a)) <;> rfl
  rw [askAll_map_left, hrank, askAll_map]
  cases askAll (rankOf b query q fun a => text (g a)) n as with
  | mk result n' => cases result <;> rfl

end RankOf

end Request

/-- Puts a request to the surroundings: the answer, and the surroundings afterwards. -/
def Surroundings.serve (s : Surroundings) (q : Request) (pos : Pos) :
    Except Cause Json × Surroundings :=
  let c := q.call pos
  match s.ledger.openCall Run.mainThread (s.clock s.readings) c with
  | (.hit output _, ledger) => (.ok output, { s with ledger, readings := s.readings + 1 })
  | (.pending id, ledger) =>
    let started := s.clock (s.readings + 1)
    let now := s.clock (s.readings + 2)
    let latency := started.millisTo now
    match q.perform s.backend s.requests with
    | (.ok output, requests) =>
      (.ok output,
        { s with
          ledger := ledger.succeed Run.mainThread now latency id c output
          requests
          readings := s.readings + 3 })
    | (.error cause, requests) =>
      (.error cause,
        { s with
          ledger := ledger.fail Run.mainThread latency id (Failure.text ⟨cause, none⟩)
          requests
          readings := s.readings + 3 })

namespace Machine

variable {α : Type}

/-- How an executor ends that asked the backend and did nothing else. -/
def asked (m : Machine) (r : Except Cause α × Nat) : Ending α :=
  match r with
  | (.ok a, n) => .ok a { m with requests := n }
  | (.error c, n) => .error (.failed ⟨c, none⟩) { m with requests := n }

/-- How a call ends that puts a request: with a value for the answer. -/
def answer (m : Machine) (q : Request) (pos : Pos) : Ending Value :=
  match m.surroundings.serve q pos with
  | (.ok output, s) => Run.ofJson output (m.within s)
  | (.error c, s) => .error (.failed ⟨c, none⟩) (m.within s)

/-- The text of an argument; the empty text if it is missing. -/
def argText (m : Machine) (v : Option Value) : String :=
  (v.map m.heap.text).getD ""

/-- The documents of a search, unless the argument is of another type. -/
def documents? (m : Machine) : Option Value → Option (List Value)
  | some (.array ref) => some (m.heap.items ref).toList
  | some _ => none
  | none => some []

/-- What a primitive asks for, if its results are kept and its arguments are in order. -/
def request? (m : Machine) (p : Primitive) (args : List Value) : Option Request :=
  match p with
  | .infer =>
    some (.infer (m.argText args.head?) (Run.modelArg m.backend args[1]?)
      (Run.maxTokensArg m.backend args[2]?))
  | .embed => some (.embed (m.argText args.head?))
  | .semanticSearch =>
    match m.documents? args[1]? with
    | some docs =>
      if docs.all m.heap.hasJson then
        some (.search (m.argText args.head?)
          (docs.map fun d => (m.heap.text d, m.heap.jsonForm d)) (Run.searchCount args[2]?))
      else none
    | none => none
  | _ => none

end Machine

namespace Run

variable {α : Type}

/-! ## Observed calls -/

/-- Recording reads the clock once and changes the ledger. -/
theorem record_apply (f : Ledger → Instant → α × Ledger) (m : Machine) :
    record f m =
      .ok (f m.ledger (m.clock m.readings)).1
        { m with
          ledger := (f m.ledger (m.clock m.readings)).2
          readings := m.readings + 1 } := rfl

/-- A call is opened in the ledger first, and a hit ends it there. -/
theorem observe_apply (c : Call) (replay : Json → α) (executor : Run (α × Json)) (m : Machine) :
    observe c replay executor m =
      match m.ledger.openCall mainThread (m.clock m.readings) c with
      | (.hit output _, ledger) =>
        .ok (replay output) { m with ledger, readings := m.readings + 1 }
      | (.pending id, ledger) =>
        closing (m.clock (m.readings + 1)) id c executor
          { m with ledger, readings := m.readings + 2 } := by
  unfold observe
  rw [bind_of_ok (record_apply _ m)]
  rcases m.ledger.openCall mainThread (m.clock m.readings) c with ⟨opening, ledger⟩
  -- the ledger answers, or leaves the call open
  cases opening <;> rfl

/-- A call whose executor only asks the backend for what the request says. -/
theorem observeJson_apply (q : Request) (pos : Pos) (executor : Run Json) (m : Machine)
    (h : ∀ s, executor (m.within s) = (m.within s).asked (q.perform s.backend s.requests)) :
    observeJson (q.call pos) executor m = m.answer q pos := by
  unfold observeJson Machine.answer Surroundings.serve
  have ho := observe_apply (q.call pos) id (do let output ← executor; return (output, output)) m
  show EStateM.bind _ _ m = _
  unfold EStateM.bind
  rw [ho]
  dsimp only [Machine.surroundings]
  rcases m.ledger.openCall mainThread (m.clock m.readings) (q.call pos) with ⟨opening, ledger⟩
  cases opening with
  | hit output node => rfl
  | pending id =>
    dsimp only
    -- what the executor does in the machine whose ledger has the call open
    have he := h { m.surroundings with ledger, readings := m.readings + 2 }
    dsimp only [Machine.surroundings] at he
    cases hp : q.perform m.backend m.requests with
    | mk result requests =>
      rw [hp] at he
      cases result with
      | ok output =>
        have hx : (do let output ← executor; return (output, output) : Run (Json × Json))
            { m with ledger, readings := m.readings + 2 } =
            .ok (output, output) { m with ledger, readings := m.readings + 2, requests } :=
          bind_of_ok he
        simp only [closing, hx]
        rfl
      | error cause =>
        have hx : (do let output ← executor; return (output, output) : Run (Json × Json))
            { m with ledger, readings := m.readings + 2 } =
            .error (.failed ⟨cause, none⟩)
              { m with ledger, readings := m.readings + 2, requests } :=
          bind_of_error he
        simp only [closing, hx]
        rfl

/-! ## The three requests -/

/-- Asking for an argument's text changes nothing. -/
theorem argText_apply (v : Option Value) (m : Machine) : argText v m = .ok (m.argText v) m := by
  cases v <;> rfl

/-- Asking the backend counts one request. -/
theorem ask_apply (f : Backend → Nat → Except String α) (m : Machine) :
    ask f m = .ok (f m.backend m.requests) { m with requests := m.requests + 1 } := rfl

/-- An inference answers the request for its arguments. -/
theorem infer_eq (args : List Value) (pos : Pos) (m : Machine) :
    infer args pos m =
      m.answer (.infer (m.argText args.head?) (modelArg m.backend args[1]?)
        (maxTokensArg m.backend args[2]?)) pos := by
  unfold infer
  rw [bind_of_ok (argText_apply _ m)]
  refine observeJson_apply (.infer _ _ _) pos _ m fun s => ?_
  rw [bind_of_ok (ask_apply _ _), Request.perform]
  dsimp only [Machine.within]
  generalize s.backend.infer s.requests _ _ _ = answer
  cases answer <;> rfl

/-- So does an embedding. -/
theorem embed_eq (args : List Value) (pos : Pos) (m : Machine) :
    embed args pos m = m.answer (.embed (m.argText args.head?)) pos := by
  unfold embed
  rw [bind_of_ok (argText_apply _ m)]
  refine observeJson_apply (.embed _) pos _ m fun s => ?_
  rw [bind_of_ok (ask_apply _ _), Request.perform]
  dsimp only [Machine.within]
  generalize s.backend.embed s.requests _ = answer
  cases answer <;> rfl

/-! ## Search -/

/-- A search asks the backend as any request does, with its failures as its own. -/
theorem askSearch_apply {α : Type} (f : Backend → Nat → Except String α) (m : Machine) :
    askSearch f m =
      match f m.backend m.requests with
      | .ok a => .ok a { m with requests := m.requests + 1 }
      | .error reason =>
        .error (.failed ⟨.searchFailed reason, none⟩) { m with requests := m.requests + 1 } := by
  unfold askSearch
  rw [bind_of_ok (ask_apply _ m)]
  generalize f m.backend m.requests = answer
  cases answer <;> rfl

/-- Ranking documents asks for the vectors of their texts, one after another. -/
theorem mapM_rank_apply (query : String) (q : List Float) (docs : List Value) (m : Machine) :
    (docs.mapM fun doc => do
      let source ← text doc
      let rank ← askSearch fun b n => (b.embed n source).map (b.documentRank n query source q)
      return (rank, doc)) m =
      m.asked (Request.askAll (Request.rankOf m.backend query q m.heap.text) m.requests docs) := by
  induction docs generalizing m with
  | nil => rfl
  | cons d docs ih =>
    rw [List.mapM_cons, Request.askAll]
    -- the first document alone; the others are ranked with the next number of the backend
    have hd : (do
        let source ← text d
        let rank ← askSearch fun b n => (b.embed n source).map (b.documentRank n query source q)
        return (rank, d) : Run (Int × Value)) m =
        match Request.rankOf m.backend query q m.heap.text m.requests d with
        | .ok p => .ok p { m with requests := m.requests + 1 }
        | .error reason =>
          .error (.failed ⟨.searchFailed reason, none⟩)
            { m with requests := m.requests + 1 } := by
      show EStateM.bind (askSearch _) _ m = _
      rw [EStateM.bind, askSearch_apply, Request.rankOf]
      cases m.backend.embed m.requests (m.heap.text d) <;> rfl
    cases he : Request.rankOf m.backend query q m.heap.text m.requests d with
    | error reason =>
      rw [he] at hd
      rw [bind_of_error hd]
      rfl
    | ok p =>
      rw [he] at hd
      rw [bind_of_ok hd]
      have hr := ih { m with requests := m.requests + 1 }
      dsimp only at hr
      cases ha : Request.askAll (Request.rankOf m.backend query q m.heap.text) (m.requests + 1)
          docs with
      | mk result n =>
        rw [ha] at hr
        cases result with
        | ok ps =>
          rw [bind_of_ok hr]
          rfl
        | error c =>
          rw [bind_of_error hr]
          rfl

/-- Ranking looks at the ranks only. -/
theorem topRanked_map {α β : Type} (f : α → β) (k : Nat) (ranked : List (Int × α)) :
    Backend.topRanked k (ranked.map fun p => (p.1, f p.2)) =
      (Backend.topRanked k ranked).map f := by
  unfold Backend.topRanked
  rw [← List.map_mergeSort (r := fun a b : Int × α => b.1 ≤ a.1) (fun _ _ _ _ => rfl)]
  simp [← List.map_take]

/-- What is among the top was ranked. -/
theorem mem_of_mem_topRanked {α : Type} {k : Nat} {ranked : List (Int × α)} {a : α}
    (h : a ∈ Backend.topRanked k ranked) : ∃ rank, (rank, a) ∈ ranked := by
  obtain ⟨p, hp, rfl⟩ := List.mem_map.1 h
  exact ⟨p.1, List.mem_mergeSort.1 (List.mem_of_mem_take hp)⟩

/-- The ranked documents are among the documents, so they have JSON forms too. -/
theorem mapM_json_topRanked (k : Nat) {ranked : List (Int × Value)} {m : Machine}
    (h : ∀ p ∈ ranked, m.heap.hasJson p.2 = true) :
    (Backend.topRanked k ranked).mapM json m =
      .ok ((Backend.topRanked k ranked).map m.heap.jsonForm) m := by
  rw [mapM_json_apply, if_pos]
  rw [List.all_eq_true]
  intro d hd
  obtain ⟨rank, hp⟩ := mem_of_mem_topRanked hd
  exact h _ hp

/-- A search asks for its vectors first, that of the query and then those of the documents. -/
theorem rankDocuments_eq (query : String) (docs : List Value) (k : Nat) (m : Machine) :
    rankDocuments query docs k m =
      match m.backend.embed m.requests query with
      | .error reason =>
        .error (.failed ⟨.searchFailed reason, none⟩) { m with requests := m.requests + 1 }
      | .ok q =>
        match Request.askAll (Request.rankOf m.backend query q m.heap.text) (m.requests + 1) docs with
        | (.error c, n) => .error (.failed ⟨c, none⟩) { m with requests := n }
        | (.ok ranked, n) =>
          (do return .array (← (Backend.topRanked k ranked).mapM json) : Run Json)
            { m with requests := n } := by
  unfold rankDocuments
  have hq := askSearch_apply (fun b n => b.embed n query) m
  -- the vector of the query is the first request, and its refusal the first end
  cases he : m.backend.embed m.requests query with
  | error reason =>
    rw [he] at hq
    exact bind_of_error hq
  | ok q =>
    rw [he] at hq
    rw [bind_of_ok hq]
    have hs := mapM_rank_apply query q docs { m with requests := m.requests + 1 }
    dsimp only at hs ⊢
    cases ha : Request.askAll (Request.rankOf m.backend query q m.heap.text) (m.requests + 1)
        docs with
    | mk result n =>
      rw [ha] at hs
      cases result with
      | error c => exact bind_of_error hs
      | ok ranked => exact bind_of_ok hs

/-- Documents with JSON forms are ranked as the request for them says. -/
theorem rankDocuments_apply (query : String) (docs : List Value) (k : Nat) (m : Machine)
    (hdocs : docs.all m.heap.hasJson) :
    rankDocuments query docs k m =
      m.asked
        (Request.perform m.backend m.requests
          (.search query (docs.map fun d => (m.heap.text d, m.heap.jsonForm d)) k)) := by
  rw [rankDocuments_eq, Request.perform]
  cases m.backend.embed m.requests query with
  | error reason => rfl
  | ok q =>
    dsimp only
    rw [Request.askAll_rankOf_map]
    cases ha : Request.askAll (Request.rankOf m.backend query q m.heap.text) (m.requests + 1)
        docs with
    | mk result n =>
      cases result with
      | error c => rfl
      | ok ranked =>
        -- the ranked documents are among those that were given
        have hjson : ∀ p ∈ ranked, m.heap.hasJson p.2 = true := fun p hp =>
          List.all_eq_true.1 hdocs p.2 (Request.mem_of_mem_askAll_rankOf ha hp)
        dsimp only
        rw [bind_of_ok (mapM_json_topRanked (m := { m with requests := n }) k hjson)]
        rw [topRanked_map fun d => (m.heap.text d, m.heap.jsonForm d), List.map_map]
        rfl

/-- The documents of a search are those of the argument, or it fails. -/
theorem searchDocuments_apply (v : Option Value) (m : Machine) :
    searchDocuments v m =
      match m.documents? v with
      | some docs => .ok docs m
      | none => .error (.failed ⟨.searchDocuments (v.getD .null).type, none⟩) m := by
  cases v with
  | none => rfl
  | some v => cases v <;> rfl

/-- A search whose documents are in order puts its request to the surroundings. -/
theorem semanticSearch_eq (args : List Value) (pos : Pos) (m : Machine) (q : Request)
    (hq : m.request? .semanticSearch args = some q) :
    semanticSearch args pos m = m.answer q pos := by
  unfold Machine.request? at hq
  dsimp only at hq
  split at hq
  · rename_i docs hdocs
    split at hq
    · rename_i hjson
      obtain rfl := Option.some.inj hq
      have hd := searchDocuments_apply args[1]? m
      rw [hdocs] at hd
      have hj := mapM_json_apply docs m
      rw [if_pos hjson] at hj
      unfold semanticSearch
      rw [bind_of_ok (argText_apply _ m), bind_of_ok hd, bind_of_ok hj]
      -- the call that is put to the ledger has the forms of the documents among its arguments
      have hcall : Request.call (.search (m.argText args.head?)
          (docs.map fun d => (m.heap.text d, m.heap.jsonForm d)) (searchCount args[2]?)) pos =
          { primitive := .semanticSearch
            args := .array [.text (m.argText args.head?), .array (docs.map m.heap.jsonForm),
              .ofNat (searchCount args[2]?)]
            metadata := placeOf pos } := by
        simp [Request.call, Request.primitive, Request.args, Request.model, Function.comp_def]
      rw [← hcall]
      exact observeJson_apply _ pos _ m fun s => rankDocuments_apply _ docs _ (m.within s) hjson
    · exact nomatch hq
  · exact nomatch hq

/-- A search whose documents are not in order fails, whatever the surroundings. -/
theorem semanticSearch_none (args : List Value) (pos : Pos) (m : Machine)
    (hq : m.request? .semanticSearch args = none) :
    ∃ stop, ∀ s, semanticSearch args pos (m.within s) = .error stop (m.within s) := by
  unfold Machine.request? at hq
  dsimp only at hq
  unfold semanticSearch
  split at hq
  · rename_i docs hdocs
    split at hq
    · exact nomatch hq
    · rename_i hjson
      -- a document has no JSON form
      refine ⟨unserializable, fun s => ?_⟩
      have hd := searchDocuments_apply args[1]? (m.within s)
      have hdocs' : (m.within s).documents? args[1]? = some docs := hdocs
      rw [hdocs'] at hd
      have hj := mapM_json_apply docs (m.within s)
      rw [if_neg (show ¬docs.all (m.within s).heap.hasJson from hjson)] at hj
      rw [bind_of_ok (argText_apply _ _), bind_of_ok hd, bind_of_error hj]
  · rename_i hdocs
    -- the documents are no array
    refine ⟨.failed ⟨.searchDocuments (args[1]?.getD Value.null).type, none⟩, fun s => ?_⟩
    have hd := searchDocuments_apply args[1]? (m.within s)
    have hdocs' : (m.within s).documents? args[1]? = none := hdocs
    rw [hdocs'] at hd
    rw [bind_of_ok (argText_apply _ _), bind_of_error hd]

end Run

end BrailleScript
