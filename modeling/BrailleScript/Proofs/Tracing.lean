import BrailleScript.Backend.DryRun
import BrailleScript.Proofs.Ledger.Dates
import BrailleScript.Proofs.Machine.LockstepRun
import BrailleScript.Proofs.Machine.Service

/-!
# What recording calls changes

A run that records the calls of the program's functions goes in lockstep with one that does not:
the records are quiet, and all they take is readings of the clock.  But a record needs the JSON
forms of the arguments and of the result, so the run that records fails where one of these contains
itself.  That is the whole difference: the run that records goes like the other one under a watch
on arguments and results.

How long entries of the cache live is left out: the two runs read the clock at different times, so
the clocks are taken to be timeless.

## Key results

- `Alike.served`: the two runs get the same answers
- `callFunction_sim`: recording a call is like watching it
- `traced_eq_watched`: the run that records, exactly
- `tracing_invisible`: recording changes nothing if arguments and results have JSON forms
- `tracing_visible`: a call with an array that contains itself
-/

namespace BrailleScript.Tracing

/-- The arguments and results of calls have JSON forms. -/
def serializable : Watch where
  args h args := args.all h.hasJson
  result h v := h.hasJson v
  request _ := True

/-- The surroundings of a run that does not record calls and of one that does. -/
structure Alike (ttl : Option Nat) (clock₁ clock₂ : Nat → Instant) (a b : Surroundings) : Prop where
  backend : b.backend = a.backend
  requests : b.requests = a.requests
  config : b.ledger.config = a.ledger.config
  /-- The caches differ in dates only. -/
  cache : b.ledger.cache.undated = a.ledger.cache.undated
  ttl : a.ledger.cache.ttl = ttl
  clock_left : a.clock = clock₁
  clock_right : b.clock = clock₂
  made_left : Cache.MadeBefore clock₁ a.readings a.ledger.cache
  made_right : Cache.MadeBefore clock₂ b.readings b.ledger.cache
  untraced : a.traced = false
  traced : b.traced = true

/-- A run with tracing beside one without: nothing is lost and nothing breaks. -/
def lockstep (ttl : Option Nat) (clock₁ clock₂ : Nat → Instant) : Lockstep where
  watch := serializable
  stop := Run.unserializable
  related := Alike ttl clock₁ clock₂
  lost _ := False
  broken _ := False

variable {ttl : Option Nat} {clock₁ clock₂ : Nat → Instant} {expired : Bool}
  {a b a' b' : Surroundings} {q : Request} {pos : Pos}

/-- The surroundings stay alike if the ledgers do. -/
theorem Alike.step (h : Alike ttl clock₁ clock₂ a b) {la lb : Ledger} {na nb ra rb : Nat}
    (hconfig : lb.config = la.config) (hcache : lb.cache.undated = la.cache.undated)
    (httl : la.cache.ttl = ttl) (hrequests : nb = na)
    (hleft : Cache.MadeBefore clock₁ ra la.cache) (hright : Cache.MadeBefore clock₂ rb lb.cache) :
    Alike ttl clock₁ clock₂ { a with ledger := la, requests := na, readings := ra }
      { b with ledger := lb, requests := nb, readings := rb } where
  backend := h.backend
  requests := hrequests
  config := hconfig
  cache := hcache
  ttl := httl
  clock_left := h.clock_left
  clock_right := h.clock_right
  made_left := hleft
  made_right := hright
  untraced := h.untraced
  traced := h.traced

/-! ## Quiet changes -/

/-- A quiet change of the one leaves them alike. -/
theorem Alike.quiet_left (h : Alike ttl clock₁ clock₂ a b) (hq : a.Quiet a') :
    Alike ttl clock₁ clock₂ a' b := by
  obtain ⟨ledger, readings, hl, hle, rfl⟩ := hq
  refine h.step (h.config.trans hl.config_eq.symm) ?_ ?_ h.requests ?_ h.made_right
  · rw [hl.cache_eq]
    exact h.cache
  · rw [hl.cache_eq]
    exact h.ttl
  · rw [hl.cache_eq]
    exact h.made_left.mono hle

/-- So does a quiet change of the other. -/
theorem Alike.quiet_right (h : Alike ttl clock₁ clock₂ a b) (hq : b.Quiet b') :
    Alike ttl clock₁ clock₂ a b' := by
  obtain ⟨ledger, readings, hl, hle, rfl⟩ := hq
  refine h.step (hl.config_eq.trans h.config) ?_ h.ttl h.requests h.made_left ?_
  · rw [hl.cache_eq]
    exact h.cache
  · rw [hl.cache_eq]
    exact h.made_right.mono hle

/-! ## Requests -/

/-- A lookup makes no entry. -/
theorem made_lookup {clock : Nat → Instant} {s : Surroundings}
    (h : Cache.MadeBefore clock s.readings s.ledger.cache) :
    Cache.MadeBefore clock s.readings (s.lookup q).2 := by
  unfold Surroundings.lookup
  split
  · exact h.get _ _
  · exact h

/-- What is stored was made before the next reading. -/
theorem made_stored {clock : Nat → Instant} {s : Surroundings} (hclock : s.clock = clock)
    (h : Cache.MadeBefore clock s.readings s.ledger.cache) (output : Json) :
    Cache.MadeBefore clock (s.readings + 3) (s.stored q pos output) := by
  have hlookup := (made_lookup (q := q) h).mono (Nat.le_add_right _ 3)
  unfold Surroundings.stored
  -- the answer is stored at the time of the last reading
  split
  · refine hlookup.put rfl (i := s.readings + 2) (by omega) ?_
    rw [← hclock]
    rfl
  · exact hlookup

/-- Lookups find the same but for dates. -/
theorem Alike.lookup (h : Alike ttl clock₁ clock₂ a b) (h₁ : Cache.Timeless ttl clock₁ expired)
    (h₂ : Cache.Timeless ttl clock₂ expired) (q : Request) :
    (b.lookup q).1.map CacheEntry.undated = (a.lookup q).1.map CacheEntry.undated ∧
      (b.lookup q).2.undated = (a.lookup q).2.undated := by
  have httl : b.ledger.cache.ttl = ttl := by
    have hundated : b.ledger.cache.undated.ttl = a.ledger.cache.undated.ttl := by rw [h.cache]
    exact hundated.trans h.ttl
  unfold Surroundings.lookup
  rw [h.config]
  split
  · rw [h.clock_left, h.clock_right, Cache.get_eq_getIf h₁ h.ttl h.made_left,
      Cache.get_eq_getIf h₂ httl h.made_right]
    -- whether entries are expired is the same in both runs, so only dates can differ
    have hboth := Cache.undated_getIf expired b.ledger.cache q.inputHash
    rw [h.cache, Cache.undated_getIf] at hboth
    obtain ⟨hfound, hcache⟩ := Prod.mk.inj hboth
    exact ⟨hfound.symm, hcache.symm⟩
  · exact ⟨rfl, h.cache⟩

/-- An entry without its date does not hang on the clock. -/
theorem undated_entryOf (c : Call) (now : Instant) (output : Json) :
    (Ledger.entryOf c now output).undated =
      { inputHash := c.inputHash
        primitive := c.primitive.name
        output := output
        outputHash := Trace.contentHash output
        createdAt := ""
        createdMillis := 0 } := rfl

/-- What is stored is alike without its dates. -/
theorem Alike.stored (h : Alike ttl clock₁ clock₂ a b) (h₁ : Cache.Timeless ttl clock₁ expired)
    (h₂ : Cache.Timeless ttl clock₂ expired) (output : Json) :
    (b.stored q pos output).undated = (a.stored q pos output).undated := by
  have hlookup := (h.lookup h₁ h₂ q).2
  unfold Surroundings.stored
  rw [h.config]
  split
  · rw [Cache.undated_put, Cache.undated_put, hlookup, undated_entryOf, undated_entryOf]
  · exact hlookup

/-- The two runs get the same answers. -/
theorem Alike.served (h : Alike ttl clock₁ clock₂ a b) (h₁ : Cache.Timeless ttl clock₁ expired)
    (h₂ : Cache.Timeless ttl clock₂ expired) {r r' : Except Cause Json × Surroundings}
    (hr : a.Served q pos r) (hr' : b.Served q pos r') :
    r'.1 = r.1 ∧ Alike ttl clock₁ clock₂ r.2 r'.2 := by
  -- both lookups hit or both miss; a miss asks the same backend for the same request
  obtain ⟨hfound, hcache⟩ := h.lookup h₁ h₂ q
  have httl : (a.lookup q).2.ttl = ttl := by
    unfold Surroundings.lookup
    split
    · rw [Cache.get_ttl]
      exact h.ttl
    · exact h.ttl
  cases hr with
  | hit e he =>
    cases hr' with
    | hit e' he' =>
      rw [he, he'] at hfound
      have hout := congrArg CacheEntry.output (Option.some.inj hfound)
      exact ⟨congrArg Except.ok hout, h.step h.config hcache httl h.requests
        ((made_lookup h.made_left).mono (Nat.le_add_right _ 1))
        ((made_lookup h.made_right).mono (Nat.le_add_right _ 1))⟩
    | done _ _ _ he' | failed _ _ _ he' =>
      rw [he, he'] at hfound
      exact nomatch hfound
  | done output n latencyMs he hp =>
    cases hr' with
    | hit e' he' =>
      rw [he, he'] at hfound
      exact nomatch hfound
    | done output' n' latencyMs' he' hp' =>
      rw [h.backend, h.requests, hp] at hp'
      cases hp'
      refine ⟨rfl, h.step h.config ?_ ?_ rfl ?_ ?_⟩
      · rw [a.cache_succeed, b.cache_succeed]
        exact h.stored h₁ h₂ output
      · rw [a.cache_succeed]
        unfold Surroundings.stored
        split <;> exact httl
      · rw [a.cache_succeed]
        exact made_stored h.clock_left h.made_left output
      · rw [b.cache_succeed]
        exact made_stored h.clock_right h.made_right output
    | failed cause n' latencyMs' he' hp' =>
      rw [h.backend, h.requests, hp] at hp'
      exact nomatch hp'
  | failed cause n latencyMs he hp =>
    cases hr' with
    | hit e' he' =>
      rw [he, he'] at hfound
      exact nomatch hfound
    | done output n' latencyMs' he' hp' =>
      rw [h.backend, h.requests, hp] at hp'
      exact nomatch hp'
    | failed cause' n' latencyMs' he' hp' =>
      rw [h.backend, h.requests, hp] at hp'
      cases hp'
      exact ⟨rfl, h.step h.config hcache httl rfl
        ((made_lookup h.made_left).mono (Nat.le_add_right _ 3))
        ((made_lookup h.made_right).mono (Nat.le_add_right _ 3))⟩

/-! ## Calls of functions -/

/-- The relation is steady. -/
theorem steady (ttl : Option Nat) (clock₁ clock₂ : Nat → Instant) :
    (lockstep ttl clock₁ clock₂).Steady where
  broken_failed _ h := h
  quiet_left h hq := h.quiet_left hq
  quiet_right h hq := h.quiet_right hq
  quiet_lost h _ := h

/-- No ending is lost. -/
theorem not_lost {α : Type} {e : Ending α} : ¬(lockstep ttl clock₁ clock₂).Lost e := by
  rintro (h | ⟨_, _, _, h⟩) <;> exact h

/-- After the body of a function: the result is recorded, or watched. -/
theorem result_sim (ttl : Option Nat) (clock₁ clock₂ : Nat → Instant) (d : FunctionDef Node)
    (input : List Json) (v : Value) :
    (lockstep ttl clock₁ clock₂).Sim
      (do Watch.require Run.unserializable (serializable.result (← get).heap v); return v)
      (do Run.recordCall d input (← Run.json v); return v) := by
  constructor
  case lost => exact fun _ h => h.elim
  case together =>
    intro m s hms
    show _ ∨ (lockstep ttl clock₁ clock₂).Together
      ((Watch.require Run.unserializable (serializable.result m.heap v) >>= fun _ => pure v) m) _
    have hright := Run.json_apply v (m.within s)
    -- the recording run writes the result down here, the other one only watches it
    by_cases hv : m.heap.hasJson v
    · rw [Watch.require_of (show serializable.result m.heap v from hv)]
      rw [if_pos (show (m.within s).heap.hasJson v from hv)] at hright
      rw [Run.bind_of_ok hright]
      -- what remains of the record is quiet
      exact .inr ⟨_, rfl, hms.quiet_right ⟨_, s.readings + 1, .recorded _ _ _ _ _,
        Nat.le_add_right _ _, rfl⟩⟩
    · rw [Watch.require_of_not (show ¬serializable.result m.heap v from hv)]
      rw [if_neg (show ¬(m.within s).heap.hasJson v from hv)] at hright
      rw [Run.bind_of_error hright]
      exact .inr ⟨s, rfl, hms⟩

/-- Recording a call is like watching its arguments and its result. -/
theorem callFunction_sim (r r' : Steps) (f : Closure) (args : List Value)
    (h : (lockstep ttl clock₁ clock₂).Sim (Run.enterFunction r f args)
      (Run.enterFunction r' f args)) :
    (lockstep ttl clock₁ clock₂).Sim (serializable.callFunction Run.unserializable r f args)
      (Run.callFunction r' f args) := by
  refine ⟨fun _ h => h.elim, fun m s hms => .inr ?_⟩
  have huntraced : m.options.traceDeterministic = false := hms.untraced
  have htraced : (m.within s).options.traceDeterministic = true := hms.traced
  let counted : Machine := { m with stats := { m.stats with calls := m.stats.calls + 1 } }
  have hleft : serializable.callFunction Run.unserializable r f args m =
      if m.options.maxCallDepth ≤ m.frames.length then
        Run.fail (.callDepth m.options.maxCallDepth) m
      else serializable.enterFunction Run.unserializable r f args counted := by
    show (if m.options.maxCallDepth ≤ m.frames.length then _ else Run.count _ >>= fun _ =>
      if m.options.traceDeterministic then _ else _ : Run Value) m = _
    simp only [huntraced, Bool.false_eq_true, if_false]
    split <;> rfl
  have hright : Run.callFunction r' f args (m.within s) =
      if m.options.maxCallDepth ≤ m.frames.length then
        Run.fail (.callDepth m.options.maxCallDepth) (m.within s)
      else (do
        let input ← args.mapM Run.json
        let v ← Run.enterFunction r' f args
        Run.recordCall f.definition input (← Run.json v)
        return v) (counted.within s) := by
    show (if m.options.maxCallDepth ≤ m.frames.length then _ else Run.count _ >>= fun _ =>
      if (m.within s).options.traceDeterministic then _ else _ : Run Value) (m.within s) = _
    simp only [htraced, if_true]
    split <;> rfl
  -- both runs count the call and refuse it past the same depth
  rw [hleft, hright]
  split
  · exact ⟨s, rfl, hms⟩
  have hinput := Run.mapM_json_apply args (counted.within s)
  show (lockstep ttl clock₁ clock₂).Together
    ((Watch.require Run.unserializable (serializable.args counted.heap args) >>= fun _ => _)
      counted) _
  -- arguments without a JSON form stop the recording run where the watch stops the other one
  by_cases hargs : args.all m.heap.hasJson
  · rw [Watch.require_of (show serializable.args counted.heap args from hargs)]
    rw [if_pos (show args.all (counted.within s).heap.hasJson from hargs)] at hinput
    rw [Run.bind_of_ok hinput]
    have hbody := Lockstep.Sim.bind h fun v => result_sim ttl clock₁ clock₂ f.definition
      (args.map m.heap.jsonForm) v
    exact (hbody.together counted s hms).resolve_left not_lost
  · rw [Watch.require_of_not (show ¬serializable.args counted.heap args from hargs)]
    rw [if_neg (show ¬args.all (counted.within s).heap.hasJson from hargs)] at hinput
    rw [Run.bind_of_error hinput]
    exact ⟨s, rfl, hms⟩

/-! ## Whole runs -/

/-- Every request keeps it. -/
theorem sound (h₁ : Cache.Timeless ttl clock₁ expired) (h₂ : Cache.Timeless ttl clock₂ expired) :
    (lockstep ttl clock₁ clock₂).Sound where
  toSteady := steady ttl clock₁ clock₂
  defaults h := by
    rw [h.backend]
    exact ⟨rfl, rfl⟩
  admitted := .inr fun _ => trivial
  serve_lost _ _ h := h
  serve q pos h _ := .inr (h.served h₁ h₂ (Surroundings.served _ q pos) (Surroundings.served _ q pos))
  calls := callFunction_sim

/-- New machines, of which the second one records calls. -/
theorem alike_fresh (options : RunOptions) (session : String) (config : LedgerConfig)
    (backend : Backend) (clock₁ clock₂ : Nat → Instant) :
    Alike (config.cacheTtlSecs.map (1000 * ·)) clock₁ clock₂
      (Machine.fresh { options with traceDeterministic := false } (Ledger.start session config)
        backend clock₁).surroundings
      (Machine.fresh { options with traceDeterministic := true } (Ledger.start session config)
        backend clock₂).surroundings where
  backend := rfl
  requests := rfl
  config := rfl
  cache := rfl
  ttl := rfl
  clock_left := rfl
  clock_right := rfl
  made_left _ h := nomatch h
  made_right _ h := nomatch h
  untraced := rfl
  traced := rfl

/-- A run that records calls goes like the run that does not, but for stopping at arguments and
results that contain themselves. -/
theorem traced_eq_watched (bound : Nat) (program : Node) (options : RunOptions) (session : String)
    (config : LedgerConfig) (backend : Backend) (clock₁ clock₂ : Nat → Instant) (expired : Bool)
    (h₁ : Cache.Timeless (config.cacheTtlSecs.map (1000 * ·)) clock₁ expired)
    (h₂ : Cache.Timeless (config.cacheTtlSecs.map (1000 * ·)) clock₂ expired) :
    ∃ t, Run.sequence (exec bound) .null program.statements
        (Machine.fresh { options with traceDeterministic := true } (Ledger.start session config)
          backend clock₂) =
      Ending.within
        (serializable.run Run.unserializable bound program
          (Machine.fresh { options with traceDeterministic := false } (Ledger.start session config)
            backend clock₁)) t := by
  have hsim := ((sound h₁ h₂).run bound program).together _ _
    (alike_fresh options session config backend clock₁ clock₂)
  -- neither run is ever lost
  obtain ⟨t, ht, -⟩ := hsim.resolve_left not_lost
  exact ⟨t, ht⟩

/-- Recording calls changes nothing if the arguments and results of all calls have JSON forms: the
program prints the same lines and has the same outcome on the same heap. -/
theorem tracing_invisible (bound : Nat) (program : Node) (options : RunOptions) (session : String)
    (config : LedgerConfig) (backend : Backend) (clock₁ clock₂ : Nat → Instant) (expired : Bool)
    (h₁ : Cache.Timeless (config.cacheTtlSecs.map (1000 * ·)) clock₁ expired)
    (h₂ : Cache.Timeless (config.cacheTtlSecs.map (1000 * ·)) clock₂ expired)
    (hkeeps : serializable.Keeps bound program
      (Machine.fresh { options with traceDeterministic := false } (Ledger.start session config)
        backend clock₁))
    (outcome : Outcome) (last : Machine)
    (hrun : (Machine.fresh { options with traceDeterministic := false }
      (Ledger.start session config) backend clock₁).execute bound program = (outcome, last)) :
    ∃ last', (Machine.fresh { options with traceDeterministic := true }
        (Ledger.start session config) backend clock₂).execute bound program = (outcome, last') ∧
      last'.output = last.output ∧ last'.heap = last.heap ∧ last'.stats = last.stats := by
  obtain ⟨t, ht⟩ := traced_eq_watched bound program options session config backend clock₁ clock₂
    expired h₁ h₂
  -- a run that keeps the watch goes as if it were not watched
  rw [hkeeps] at ht
  refine ⟨last.within t, ?_, rfl, rfl, rfl⟩
  let first := Machine.fresh { options with traceDeterministic := false }
    (Ledger.start session config) backend clock₁
  let second := Machine.fresh { options with traceDeterministic := true }
    (Ledger.start session config) backend clock₂
  rw [Machine.execute_eq] at hrun ⊢
  rw [ht]
  have hended := first.ended_within (Run.sequence (exec bound) .null program.statements first)
    second.surroundings t
  rw [hrun] at hended
  exact hended

/-! ## A program that keeps the watch -/

/-- A function that gives a number. -/
def one : FunctionDef Node where
  name := none
  params := []
  body := .expr (.number 1)
  isAsync := false
  pos := ⟨1, 7⟩

/-- A statement that prints the result of that function. -/
def printCall : Node := .print [.call (.lambda one) [] ⟨1, 16⟩]

/-- A program that calls a function that prints. -/
def printOne : Node := .program [printCall]

/-- With the watch, its function is called as without. -/
theorem call_one (stop : Stop) (scope : ScopeId) :
    serializable.callFunction stop
        ⟨3, serializable.exec stop 3, serializable.eval stop 3, serializable.call stop 3⟩
        ⟨one, scope, none⟩ [] =
      Run.callFunction ⟨3, exec 3, eval 3, call 3⟩ ⟨one, scope, none⟩ [] := by
  apply Watch.callFunction_congr
  funext m
  show (Watch.require stop (serializable.args m.heap []) >>= fun _ => _) m = _
  -- nothing stands in the way of either check
  rw [Watch.require_of (show serializable.args m.heap [] from rfl)]
  show (Watch.require stop (serializable.result m.heap (.number 1)) >>= fun _ => _) _ = _
  rw [Watch.require_of (show serializable.result m.heap (.number 1) from rfl)]
  rfl

/-- So the watch admits what it does. -/
theorem keeps_printOne (m : Machine) : serializable.Keeps 5 printOne m := by
  intro stop
  -- the call has no arguments and gives a number, both of which have JSON forms
  have heval : serializable.eval stop 4 (.call (.lambda one) [] ⟨1, 16⟩) =
      eval 4 (.call (.lambda one) [] ⟨1, 16⟩) := by
    funext m
    show Run.located ⟨1, 16⟩ (serializable.callFunction stop _ ⟨one, m.scope, none⟩ []) _ = _
    rw [call_one]
    rfl
  have hexec : serializable.exec stop 5 printCall = exec 5 printCall := by
    show Run.execStep ⟨4, serializable.exec stop 4, serializable.eval stop 4, serializable.call stop 4⟩
      printCall = Run.execStep ⟨4, exec 4, eval 4, call 4⟩ printCall
    simp only [Run.execStep, printCall, Run.printTexts, heval]
  simp only [Watch.run, printOne, Node.statements, Run.sequence, hexec]

/-- A run that records calls, or does not, on a new ledger. -/
def sampleRun (program : Node) (traceDeterministic : Bool) : Outcome × Machine :=
  (Machine.fresh { traceDeterministic } (Ledger.start "sample" {}) (.dryRun "small" 64)
    fun n => ⟨n⟩).execute 5 program

/-- It prints the same with and without tracing. -/
theorem tracing_invisible_printOne :
    ∃ last, sampleRun printOne true = ((sampleRun printOne false).1, last) ∧
      last.output = #["1"] := by
  obtain ⟨last, hlast, houtput, -⟩ := tracing_invisible 5 printOne {} "sample" {}
    (.dryRun "small" 64) (fun n => ⟨n⟩) (fun n => ⟨n⟩) false (fun _ _ _ => rfl) (fun _ _ _ => rfl)
    (keeps_printOne _) (sampleRun printOne false).1 (sampleRun printOne false).2 (by rw [sampleRun])
  have hprinted : (sampleRun printOne false).2.output = #["1"] := by decide +kernel
  exact ⟨last, by rw [← hlast, sampleRun], houtput.trans hprinted⟩

/-! ## An array that contains itself -/

/-- A function gets an array that contains itself and does not look at it. -/
def passLoop : Node :=
  .program
    [.declare "a" (some (.array [])) false ⟨1, 1⟩,
     .call (.identifier "push" ⟨2, 1⟩) [.identifier "a" ⟨2, 6⟩, .identifier "a" ⟨2, 9⟩] ⟨2, 5⟩,
     .function
       { name := some "f", params := ["x"], body := .block [.number 1], isAsync := false
         pos := ⟨3, 1⟩ },
     .print [.call (.identifier "f" ⟨4, 7⟩) [.identifier "a" ⟨4, 9⟩] ⟨4, 8⟩]]

/-- Recording calls is not invisible to every program: with it this one stops at its call. -/
theorem tracing_visible :
    (sampleRun passLoop false).2.output = #["1"] ∧ (sampleRun passLoop true).2.output = #[] := by
  constructor <;> decide +kernel

end BrailleScript.Tracing
