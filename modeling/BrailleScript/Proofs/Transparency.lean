import BrailleScript.Proofs.Ledger.Cache
import BrailleScript.Proofs.Machine.LockstepRun
import BrailleScript.Proofs.Machine.RequestKey

/-!
# When the cache is invisible

With a backend whose answers are functions of the request, a program should not notice the cache.
It does not, as long as the requests of a run can be told apart by their digests.  Digests could
collide, but that apart only searches fail to be told apart: their keys have the JSON forms of the
documents, and their answers depend on the texts as well.  An object without fields and an empty
map have one JSON form and different texts.

## Key results

- `Distinguished.eq_of_inputHash_eq`: when requests are told apart
- `Honest.served`: a cache that holds right answers gives them and keeps to it
- `cache_invisible`: two runs with any caches and clocks have the same outcome
- `cache_visible`: a search can be answered with the documents of another one
-/

namespace BrailleScript

/-- The answers do not depend on the number of the request. -/
structure Backend.Pure (b : Backend) : Prop where
  infer : ∀ n m prompt model maxTokens, b.infer n prompt model maxTokens = b.infer m prompt model maxTokens
  embed : ∀ n m source, b.embed n source = b.embed m source
  nanBits : ∀ n m query document, b.nanBits n query document = b.nanBits m query document

namespace Transparency

/-! ## Answers of pure backends -/

/-- The answer that a pure backend leads to. -/
def answer (b : Backend) (q : Request) : Except Cause Json :=
  (q.perform b 0).1

/-- Answers that do not depend on the numbers of their requests are the same ones from any number. -/
theorem askAll_fst {α β : Type} {f : Nat → α → Except String β} (hf : ∀ n m a, f n a = f m a)
    (n m : Nat) (as : List α) : (Request.askAll f n as).1 = (Request.askAll f m as).1 := by
  -- each answer is the same, and the numbers go up together
  induction as generalizing n m with
  | nil => rfl
  | cons a rest ih =>
    have hrest := ih (n + 1) (m + 1)
    unfold Request.askAll
    rw [hf n m]
    cases f m a with
    | error reason => rfl
    | ok b =>
      cases hn : Request.askAll f (n + 1) rest with
      | mk result k =>
        cases hm : Request.askAll f (m + 1) rest with
        | mk result' k' =>
          rw [hn, hm] at hrest
          obtain rfl : result = result' := hrest
          cases result <;> rfl

/-- A pure backend ranks a document in one place. -/
theorem rankOf_eq {α : Type} {b : Backend} (hb : b.Pure) (query : String) (q : List Float)
    (text : α → String) (n m : Nat) (d : α) :
    Request.rankOf b query q text n d = Request.rankOf b query q text m d := by
  unfold Request.rankOf Backend.documentRank
  rw [hb.embed n m, hb.nanBits n m]

/-- A pure backend answers a request alike at all times. -/
theorem perform_fst {b : Backend} (hb : b.Pure) (n : Nat) (q : Request) :
    (q.perform b n).1 = answer b q := by
  unfold answer
  cases q with
  | infer prompt model maxTokens =>
    simp only [Request.perform]
    rw [hb.infer n 0]
    cases b.infer 0 prompt model maxTokens <;> rfl
  | embed source =>
    simp only [Request.perform]
    rw [hb.embed n 0]
    cases b.embed 0 source <;> rfl
  | search query documents count =>
    simp only [Request.perform]
    rw [hb.embed n 0]
    cases b.embed 0 query with
    | error reason => rfl
    | ok q =>
      -- the documents are asked for one request after the other
      have hall := askAll_fst (rankOf_eq hb query q (·.1)) (n + 1) (0 + 1) documents
      dsimp only
      cases hn : Request.askAll (Request.rankOf b query q (·.1)) (n + 1) documents with
      | mk result k =>
        cases hm : Request.askAll (Request.rankOf b query q (·.1)) (0 + 1) documents with
        | mk result' k' =>
          rw [hn, hm] at hall
          obtain rfl : result = result' := hall
          cases result <;> rfl

/-! ## Telling requests apart -/

/-- Requests that can be told apart by their digests. -/
structure Distinguished (requests : Request → Prop) : Prop where
  /-- The digests of different texts do not collide. -/
  digests : ∀ q q', requests q → requests q' →
    Digest.hexOfText q.keyText = Digest.hexOfText q'.keyText → q.keyText = q'.keyText
  /-- Documents of searches that are written alike are alike. -/
  documents : ∀ query documents documents' count,
    requests (.search query documents count) → requests (.search query documents' count) →
    Request.written documents = Request.written documents' → documents = documents'

/-- Distinguished requests with one digest are one request. -/
theorem Distinguished.eq_of_inputHash_eq {requests : Request → Prop} (h : Distinguished requests)
    {q q' : Request} (hq : requests q) (hq' : requests q') (hhash : q.inputHash = q'.inputHash) :
    q = q' := by
  -- the key of a text or of a vector determines the request; that of a search all but its documents
  rcases Request.eq_of_keyText_eq (h.digests q q' hq hq' hhash) with
    heq | ⟨query, documents, documents', count, rfl, rfl, hwritten⟩
  · exact heq
  · rw [h.documents query documents documents' count hq hq' hwritten]

/-! ## Caches with right answers -/

/-- Every entry of the cache is the answer to a request. -/
def Honest (requests : Request → Prop) (b : Backend) (s : Surroundings) : Prop :=
  ∀ p ∈ s.ledger.cache.entries, ∃ q, requests q ∧ p.1 = q.inputHash ∧ answer b q = .ok p.2.output

variable {requests : Request → Prop} {b : Backend} {s s' : Surroundings} {q : Request} {pos : Pos}
  {r : Except Cause Json × Surroundings}

/-- A quiet change leaves the cache honest. -/
theorem Honest.quiet (h : Honest requests b s) (hq : s.Quiet s') : Honest requests b s' := by
  obtain ⟨ledger, readings, hl, -, rfl⟩ := hq
  unfold Honest
  rw [hl.cache_eq]
  exact h

/-- A lookup leaves right answers. -/
theorem Honest.lookup (h : Honest requests b s) {p : String × CacheEntry}
    (hp : p ∈ (s.lookup q).2.entries) :
    ∃ q, requests q ∧ p.1 = q.inputHash ∧ answer b q = .ok p.2.output := by
  unfold Surroundings.lookup at hp
  split at hp
  · obtain ⟨e, _, _, he, hp⟩ := Cache.mem_get hp
    rw [hp]
    exact h (p.1, e) he
  · exact h p hp

/-- What a lookup finds is the right answer. -/
theorem Honest.lookup_eq (h : Honest requests b s) (hd : Distinguished requests) (hq : requests q)
    {e : CacheEntry} (he : (s.lookup q).1 = some e) : answer b q = .ok e.output := by
  unfold Surroundings.lookup at he
  split at he
  · obtain ⟨e', he', hout⟩ := Option.map_eq_some_iff.1 (Cache.output?_of_get he)
    obtain ⟨q', hq', hhash, ha⟩ := h _ (Fields.mem_of_get? he')
    -- the entry was made for a request with this digest, hence for this request
    rw [hd.eq_of_inputHash_eq hq hq' hhash, ha, hout]
  · exact nomatch he

/-- A request gets the right answer, from the cache or from the backend. -/
theorem Honest.served (h : Honest requests b s) (hd : Distinguished requests) (hb : b.Pure)
    (hs : s.backend = b) (hq : requests q) (hr : s.Served q pos r) :
    r.1 = answer b q ∧ Honest requests b r.2 := by
  -- a hit was stored as the right answer, and a miss asks for it
  cases hr with
  | hit e he => exact ⟨(h.lookup_eq hd hq he).symm, fun p hp => h.lookup hp⟩
  | done output n latencyMs he hp =>
    have ha : answer b q = .ok output := by
      rw [← perform_fst hb s.requests, ← hs, hp]
    refine ⟨ha.symm, fun p hp => ?_⟩
    replace hp : p ∈ (Ledger.cache _).entries := hp
    rw [s.cache_succeed] at hp
    unfold Surroundings.stored at hp
    split at hp
    · rcases Cache.mem_put hp with rfl | hp
      · exact ⟨q, hq, rfl, ha⟩
      · exact h.lookup hp
    · exact h.lookup hp
  | failed cause n latencyMs he hp =>
    refine ⟨?_, fun p hp => h.lookup hp⟩
    rw [← perform_fst hb s.requests, ← hs, hp]

/-! ## Lockstep -/

/-- Two runs with one pure backend, the first of which puts some requests only. -/
def lockstep (requests : Request → Prop) (b : Backend) (stop : Stop) : Lockstep where
  watch := { Watch.any with request := requests }
  stop := stop
  related s s' :=
    s.backend = b ∧ s'.backend = b ∧ Honest requests b s ∧ Honest requests b s' ∧
      s'.traced = s.traced
  lost _ := False
  broken e := e = stop

/-- The relation is steady. -/
theorem steady {stop : Stop} (hstop : ∀ f, stop ≠ .failed f) :
    (lockstep requests b stop).Steady := by
  constructor
  case broken_failed => exact fun f h => hstop f h.symm
  case quiet_left =>
    rintro s t s' ⟨hs, ht, hhs, hht, htraced⟩ hq
    have hframe := hq
    obtain ⟨ledger, readings, -, -, rfl⟩ := hframe
    exact ⟨hs, ht, hhs.quiet hq, hht, htraced⟩
  case quiet_right =>
    rintro s t t' ⟨hs, ht, hhs, hht, htraced⟩ hq
    have hframe := hq
    obtain ⟨ledger, readings, -, -, rfl⟩ := hframe
    exact ⟨hs, ht, hhs, hht.quiet hq, htraced⟩
  case quiet_lost => exact fun h _ => h

/-- Every request keeps it. -/
theorem sound (hd : Distinguished requests) (hb : b.Pure) {stop : Stop}
    (hstop : ∀ f, stop ≠ .failed f) : (lockstep requests b stop).Sound := by
  constructor
  case toSteady => exact steady hstop
  case defaults =>
    rintro s t ⟨hs, ht, -⟩
    rw [hs, ht]
    exact ⟨rfl, rfl⟩
  case admitted => exact .inl rfl
  case serve_lost => exact fun _ _ h => h
  case serve =>
    -- both caches are honest, so both runs get the backend's own answer
    rintro s t q pos ⟨hs, ht, hhs, hht, htraced⟩ hq
    have hrs := s.served q pos
    have hrt := t.served q pos
    obtain ⟨has, hhs'⟩ := hhs.served hd hb hs hq hrs
    obtain ⟨hat, hht'⟩ := hht.served hd hb ht hq hrt
    refine .inr ⟨hat.trans has.symm, ?_, ?_, hhs', hht', ?_⟩
    · rw [hrs.backend_eq, hs]
    · rw [hrt.backend_eq, ht]
    · rw [hrs.traced_eq, hrt.traced_eq, htraced]
  case calls =>
    intro r r' f args
    refine .callFunction (steady hstop) (fun _ _ => trivial) (fun _ _ => trivial) ?_
      r r' f args
    rintro s t ⟨-, -, -, -, htraced⟩
    exact htraced

/-- A run that is watched for two stops cannot end in both of them. -/
theorem not_lost (requests : Request → Prop) (b : Backend) (e : Ending Flow) :
    ∃ stop, (∀ f, stop ≠ .failed f) ∧ ¬(lockstep requests b stop).Lost e := by
  -- a run has one ending, so one of two stops is free to mark requests that are not admitted
  by_cases h : ∃ m, e = .error .conflict m
  · obtain ⟨m, rfl⟩ := h
    refine ⟨.exhausted, fun _ => Stop.noConfusion, ?_⟩
    rintro (h | ⟨stop, m', he, hb⟩)
    · exact h
    · cases he
      exact nomatch hb
  · refine ⟨.conflict, fun _ => Stop.noConfusion, ?_⟩
    rintro (h' | ⟨stop, m', he, hb⟩)
    · exact h'
    · exact h ⟨m', by rw [he, hb]⟩

/-- The cache is invisible to a program whose requests are told apart by their digests: with a pure
backend, on new ledgers with any settings and any clocks, it prints the same lines and has the same
outcome on the same heap; and requests with one digest have one answer. -/
theorem cache_invisible (bound : Nat) (program : Node) (options : RunOptions)
    (session₁ session₂ : String) (config₁ config₂ : LedgerConfig) (backend : Backend)
    (clock₁ clock₂ : Nat → Instant) (requests : Request → Prop)
    (hpure : backend.Pure) (hrequests : Distinguished requests)
    (hkeeps : Watch.Keeps { Watch.any with request := requests } bound program
      (Machine.fresh options (Ledger.start session₁ config₁) backend clock₁))
    (outcome : Outcome) (last : Machine)
    (hrun : (Machine.fresh options (Ledger.start session₁ config₁) backend clock₁).execute bound
      program = (outcome, last)) :
    ∃ last', (Machine.fresh options (Ledger.start session₂ config₂) backend clock₂).execute bound
        program = (outcome, last') ∧
      last'.output = last.output ∧ last'.heap = last.heap ∧ last'.stats = last.stats ∧
      ∀ q q', requests q → requests q' → q.inputHash = q'.inputHash →
        ∀ n n', (q.perform backend n).1 = (q'.perform backend n').1 := by
  let first := Machine.fresh options (Ledger.start session₁ config₁) backend clock₁
  let second := Machine.fresh options (Ledger.start session₂ config₂) backend clock₂
  -- the watch needs a stop that the run itself does not end in
  obtain ⟨stop, hstop, hlost⟩ := not_lost requests backend
    (Run.sequence (exec bound) .null program.statements first)
  have hrelated : (lockstep requests backend stop).related first.surroundings
      second.surroundings :=
    ⟨rfl, rfl, fun _ h => (nomatch h), fun _ h => (nomatch h), rfl⟩
  obtain ⟨t, hsecond, -⟩ := (sound hrequests hpure hstop).execute hrelated (hkeeps stop) hlost
  rw [hrun] at hsecond
  refine ⟨last.within t, hsecond, rfl, rfl, rfl, fun q q' hq hq' hhash n n' => ?_⟩
  rw [perform_fst hpure, perform_fst hpure, hrequests.eq_of_inputHash_eq hq hq' hhash]

/-! ## A program that asks twice -/

/-- A pure backend that has vectors of two texts only. -/
def sampleBackend : Backend where
  name := "sample"
  model := "small"
  maxTokens := 64
  infer _ _ _ _ := .ok "Hi!"
  embed _ source := if source = "q" ∨ source = "<C instance>" then .ok [1] else .error "no vector"

/-- The backend of the witness is pure. -/
theorem pure_sampleBackend : sampleBackend.Pure :=
  ⟨fun _ _ _ _ _ => rfl, fun _ _ _ => rfl, fun _ _ _ _ => rfl⟩

/-- The arguments of a text generation that leaves nothing to the backend. -/
def helloArgs : List Value := [.text "Hello", .text "small", .number 64]

/-- A statement that prints a generated text. -/
def printHello : Node :=
  .print [.primitive .infer [.text "Hello", .text "small", .number 64] ⟨1, 7⟩]

/-- The one request of that statement. -/
def helloRequest : Request := .infer "Hello" "small" 64

/-- Its arguments make the greeting's request. -/
theorem request?_helloArgs (m : Machine) : m.request? .infer helloArgs = some helloRequest := by
  -- the number of tokens is within its bounds
  have htokens (b : Backend) : Run.maxTokensArg b (some (.number 64)) = 64 := by
    have hpositive : (1 : Float) ≤ 64 := by decide +kernel
    have hclamp : Decimal.clampNat (UInt32.size - 1) 64 = 64 := by decide +kernel
    simp only [Run.maxTokensArg, hpositive, hclamp, if_true]
  show some (Request.infer _ _ (Run.maxTokensArg m.backend (some (.number 64)))) = _
  rw [htokens]
  rfl

/-- The watch admits the statement that prints it. -/
theorem exec_printHello (stop : Stop) :
    Watch.exec { Watch.any with request := (· = helloRequest) } stop 5 printHello =
      exec 5 printHello := by
  let w : Watch := { Watch.any with request := (· = helloRequest) }
  -- the watch admits the only request of the statement
  have hcall (r r' : Steps) : w.callPrimitive stop r .infer helloArgs ⟨1, 7⟩ =
      Run.callPrimitive r'.call (Run.sequence r'.exec .null) .infer helloArgs ⟨1, 7⟩ := by
    funext m
    rw [Watch.callPrimitive_of_admits]
    · rfl
    · intro q hq
      rw [request?_helloArgs] at hq
      exact (Option.some.inj hq).symm
  have heval : w.eval stop 4 (.primitive .infer [.text "Hello", .text "small", .number 64] ⟨1, 7⟩) =
      eval 4 (.primitive .infer [.text "Hello", .text "small", .number 64] ⟨1, 7⟩) := by
    funext m
    show Run.located ⟨1, 7⟩ (w.callPrimitive stop ⟨3, w.exec stop 3, w.eval stop 3, w.call stop 3⟩
      .infer helloArgs ⟨1, 7⟩) m = _
    rw [hcall _ ⟨3, exec 3, eval 3, call 3⟩]
    rfl
  show Run.execStep ⟨4, w.exec stop 4, w.eval stop 4, w.call stop 4⟩ printHello = _
  simp only [exec, Run.execStep, printHello, Run.printTexts, heval]

/-- A run of a program on a new ledger, with the cache on or off. -/
def sampleRun (program : Node) (cacheEnabled : Bool) : Outcome × Machine :=
  (Machine.fresh {} (Ledger.start "sample" { cacheEnabled }) sampleBackend fun n => ⟨n⟩).execute 5
    program

/-- A program that asks for one text twice. -/
def hello : Node := .program [printHello, printHello]

/-- So it admits the program. -/
theorem keeps_hello (m : Machine) :
    Watch.Keeps { Watch.any with request := (· = helloRequest) } 5 hello m := by
  intro stop
  simp only [Watch.run, hello, Node.statements, Run.sequence, exec_printHello]

/-- One request alone is distinguished. -/
theorem distinguished_helloRequest : Distinguished (· = helloRequest) := by
  constructor
  · rintro q q' rfl rfl -
    rfl
  · exact fun _ _ _ _ h => nomatch h

/-- The program prints two greetings, one of them from the cache if there is one. -/
theorem cache_invisible_hello :
    ∃ last, sampleRun hello true = ((sampleRun hello false).1, last) ∧
      last.output = #["Hi!", "Hi!"] := by
  obtain ⟨last, hlast, houtput, -⟩ := cache_invisible 5 hello {} "sample" "sample"
    { cacheEnabled := false } { cacheEnabled := true } sampleBackend (fun n => ⟨n⟩) (fun n => ⟨n⟩)
    (· = helloRequest) pure_sampleBackend distinguished_helloRequest (keeps_hello _)
    (sampleRun hello false).1 (sampleRun hello false).2 (by rw [sampleRun])
  have hprinted : (sampleRun hello false).2.output = #["Hi!", "Hi!"] := by decide +kernel
  exact ⟨last, by rw [← hlast, sampleRun], houtput.trans hprinted⟩

/-! ## Searches that are not told apart -/

/-- A search in an object without fields, and one in an empty map. -/
def searches : Node :=
  .program
    [.classDecl "C" none [] ⟨1, 1⟩,
     .declare "o" (some (.call (.identifier "C" ⟨2, 9⟩) [] ⟨2, 10⟩)) false ⟨2, 1⟩,
     .print [.primitive .semanticSearch
       [.text "q", .array [.identifier "o" ⟨3, 20⟩], .number 1] ⟨3, 7⟩],
     .print [.primitive .semanticSearch [.text "q", .array [.map []], .number 1] ⟨4, 7⟩]]

/-- The cache is not invisible to every program: the second search below has no answer of its own,
but with the cache it gets the answer of the first one. -/
theorem cache_visible :
    sampleBackend.Pure ∧ (sampleRun searches true).2.output = #["[\x7b\x7d]", "[\x7b\x7d]"] ∧
      (sampleRun searches false).2.output = #["[\x7b\x7d]"] := by
  refine ⟨pure_sampleBackend, ?_, ?_⟩ <;> decide +kernel

end Transparency

end BrailleScript
