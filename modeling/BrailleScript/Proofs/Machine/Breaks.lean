import BrailleScript.Proofs.Machine.Congruence

/-!
# What a `break` leaves

A statement is broken off if its run comes to a `break` through blocks, branches and handlers only.
A loop or a switch is never broken off: when its body is, the loop or the switch ends there, and the
program goes on behind it.

## Key results

- `exec_broken_iff`: the statements that are broken off
- `Left.exec_eq`: a loop or a switch that is left by a `break` of its own
-/

namespace BrailleScript

namespace Machine

/-- The machine with one more statement counted. -/
def tallied (m : Machine) : Machine :=
  { m with stats := { m.stats with statements := m.stats.statements + 1 } }

/-- The machine with one more round of a loop counted. -/
def rounded (m : Machine) : Machine :=
  { m with stats := { m.stats with loopIterations := m.stats.loopIterations + 1 } }

/-- The machine in a new scope inside its scope. -/
def entered (m : Machine) : Machine :=
  { m with scopes := m.scopes.child m.scope, scope := m.scopes.all.size }

end Machine

namespace Run

variable {α β : Type}

/-- A result is returned by a machine that stays as it is. -/
theorem pure_eq_ok {a b : α} {m m' : Machine} :
    (pure a : Run α) m = .ok b m' ↔ a = b ∧ m = m' :=
  ⟨fun h => by cases h; exact ⟨rfl, rfl⟩, by rintro ⟨rfl, rfl⟩; rfl⟩

/-- A sequence returns when its parts do, one after the other. -/
theorem bind_eq_ok {x : Run α} {f : α → Run β} {m m' : Machine} {b : β} :
    (x >>= f) m = .ok b m' ↔ ∃ a m₁, x m = .ok a m₁ ∧ f a m₁ = .ok b m' := by
  constructor
  · intro h
    -- what follows a failure is not run
    cases hx : x m with
    | ok a m₁ => exact ⟨a, m₁, rfl, by rwa [bind_of_ok hx] at h⟩
    | error stop m₁ =>
      rw [bind_of_error hx] at h
      cases h
  · rintro ⟨a, m₁, hx, hf⟩
    rwa [bind_of_ok hx]

/-- A step in another scope returns there, and the scope is set back. -/
theorem inScope_eq_ok {id : ScopeId} {x : Run α} {m m' : Machine} {a : α} :
    inScope id x m = .ok a m' ↔
      ∃ m₁, x { m with scope := id } = .ok a m₁ ∧ m' = { m₁ with scope := m.scope } := by
  unfold inScope
  -- only the scope of the machine differs, before and behind
  cases x { m with scope := id } with
  | ok b m₁ =>
    constructor
    · intro h
      cases h
      exact ⟨m₁, rfl, rfl⟩
    · rintro ⟨m₂, h, rfl⟩
      cases h
      rfl
  | error stop m₁ =>
    constructor
    · intro h
      cases h
    · rintro ⟨_, h, _⟩
      cases h

/-- A step with a handler returns when it does, or when the handler does for its failure. -/
theorem catching_eq_ok {x : Run Flow} {h : Failure → Run Flow} {m m' : Machine} {flow : Flow} :
    catching x h m = .ok flow m' ↔ x m = .ok flow m' ∨
      ∃ f m₁, x m = .error (.failed f) m₁ ∧ f.cause.kind.isCatchable = true ∧
        h f m₁ = .ok flow m' := by
  unfold catching
  -- only a failure is handled, any other ending passes
  split
  next f m₁ heq =>
    rw [heq]
    split
    next hf =>
      refine ⟨fun h => .inr ⟨f, m₁, rfl, hf, h⟩, ?_⟩
      rintro (h | ⟨f', m₂, h, -, h'⟩)
      · cases h
      · cases h
        exact h'
    next hf =>
      refine ⟨nofun, ?_⟩
      rintro (h | ⟨f', m₂, h, hf', -⟩)
      · cases h
      · cases h
        exact absurd hf' hf
  next hne =>
    refine ⟨.inl, ?_⟩
    rintro (h | ⟨f, m₁, heq, -⟩)
    · exact h
    · exact absurd heq (hne f m₁)

/-- The scope of a handler, in which what it caught may have a name. -/
def handlerScope (catchName : Option String) (f : Failure) : Run ScopeId := do
  let scope ← newScope
  if let some name := catchName then define scope name (.text f.text) false
  return scope

/-- A handler runs in a scope of its own. -/
theorem handle_eq (catchName : Option String) (handler : Run Flow) (f : Failure) :
    handle catchName handler f = handlerScope catchName f >>= fun scope => inScope scope handler := by
  cases catchName <;> simp [handle, handlerScope]

/-- The scope of one round of a loop over items, in which the item has its name. -/
def itemScope (var : String) (v : Value) : Run ScopeId := do
  let scope ← newScope
  define scope var v false
  return scope

/-- A loop over items counts, binds the first one and goes on with the others. -/
theorem forEach_cons (var : String) (body : Run Flow) (v : Value) (values : List Value) :
    forEach var body (v :: values) = countIteration >>= fun _ => itemScope var v >>= fun scope =>
      inScope scope body >>= fun flow => afterRound flow (forEach var body values) := by
  simp [forEach, itemScope]

/-- A block runs its statements in a new scope. -/
theorem block_eq (exec : Node → Run Flow) (stmts : List Node) (m : Machine) :
    block exec stmts m = inScope m.scopes.all.size (sequence exec .null stmts)
      { m with scopes := m.scopes.child m.scope } :=
  rfl

end Run

open Run

/-- From the first machine the statement runs to a `break` that stands in no loop, switch or function
inside the statement; there it ends, at the second machine. -/
inductive Breaks : (bound : Nat) → Node → Machine → Machine → Prop
  | here {bound m} : Breaks (bound + 1) .breakLoop m m.tallied
  | block {bound before s after m v m₁ m'}
    (hbefore : sequence (exec bound) .null before m.tallied.entered = .ok (.normal v) m₁)
    (hs : Breaks bound s m₁ m') :
    Breaks (bound + 1) (.block (before ++ s :: after)) m { m' with scope := m.scope }
  | thenBranch {bound condition branch e m m₁ m'}
    (hc : (do truthy (← eval bound condition)) m.tallied = .ok true m₁)
    (hb : Breaks bound branch m₁ m') : Breaks (bound + 1) (.ifElse condition branch e) m m'
  | elseBranch {bound condition t branch m m₁ m'}
    (hc : (do truthy (← eval bound condition)) m.tallied = .ok false m₁)
    (hb : Breaks bound branch m₁ m') : Breaks (bound + 1) (.ifElse condition t (some branch)) m m'
  | body {bound body catchName handler m m'} (hb : Breaks bound body m.tallied m') :
    Breaks (bound + 1) (.tryCatch body catchName handler) m m'
  | handler {bound body catchName handler m f m₁ scope m₂ m'}
    (hbody : exec bound body m.tallied = .error (.failed f) m₁)
    (hf : f.cause.kind.isCatchable = true)
    (hscope : handlerScope catchName f m₁ = .ok scope m₂)
    (hh : Breaks bound handler { m₂ with scope } m') :
    Breaks (bound + 1) (.tryCatch body catchName handler) m { m' with scope := m₂.scope }

/-! ## What is never broken off -/

namespace Run

variable {α : Type}

/-- The step is never broken off. -/
def Unbroken (x : Run Flow) : Prop :=
  ∀ m m', x m ≠ .ok .broken m'

namespace Unbroken

/-- Any other flow is unbroken. -/
theorem pure {flow : Flow} (h : flow ≠ .broken) : Unbroken (Pure.pure flow) :=
  fun _ _ heq => h (pure_eq_ok.1 heq).1

/-- A step that throws is unbroken. -/
theorem throw (stop : Stop) : Unbroken (throwThe Stop stop) := by
  intro m m' h
  cases h

/-- So is a sequence that ends unbroken. -/
theorem bind {x : Run α} {f : α → Run Flow} (h : ∀ a, Unbroken (f a)) : Unbroken (x >>= f) := by
  intro m m' hx
  obtain ⟨a, m₁, -, hf⟩ := bind_eq_ok.1 hx
  exact h a m₁ m' hf

/-- What follows a round is unbroken, since the loop takes the break. -/
theorem afterRound (flow : Flow) {again : Run Flow} (h : Unbroken again) :
    Unbroken (Run.afterRound flow again) := by
  cases flow with
  | broken | returned => exact pure nofun
  | normal | continued => exact h

/-- A loop with a condition is unbroken. -/
theorem whileLoop (condition : Run Bool) (body : Run Flow) (rounds : Nat) :
    Unbroken (Run.whileLoop condition body rounds) := by
  induction rounds with
  | zero => exact throw _
  | succ rounds ih =>
    refine bind fun holds => ?_
    cases holds with
    | true => exact bind fun _ => bind fun flow => afterRound flow ih
    | false => exact pure nofun

/-- So is one with a cap. -/
theorem cappedLoop (cap : Nat) (body : Run Flow) (rounds : Nat) :
    Unbroken (Run.cappedLoop cap body rounds) := by
  induction rounds with
  | zero => exact bind fun _ => pure nofun
  | succ rounds ih => exact bind fun _ => bind fun flow => afterRound flow ih

/-- So is one over items. -/
theorem forEach (var : String) (body : Run Flow) (items : List Value) :
    Unbroken (Run.forEach var body items) := by
  induction items with
  | nil => exact pure nofun
  | cons v rest ih =>
    exact bind fun _ => bind fun _ => bind fun _ => bind fun flow => afterRound flow ih

/-- The body of a switch takes its breaks too. -/
theorem switchBody (exec : Node → Run Flow) (stmts : List Node) :
    Unbroken (Run.switchBody exec stmts) := by
  refine bind fun flow => ?_
  cases flow <;> exact pure nofun

/-- So a switch is unbroken. -/
theorem switchCases (r : Steps) (subject : Value) (default : Option (List Node))
    (cases : List (SwitchCase Node)) : Unbroken (Run.switchCases r subject default cases) := by
  induction cases with
  | nil =>
    cases default with
    | none => exact pure nofun
    | some stmts => exact switchBody r.exec stmts
  | cons c rest ih =>
    refine bind fun _ => bind fun holds => ?_
    cases holds with
    | true => exact switchBody r.exec c.body
    | false => exact ih

end Unbroken

end Run

/-! ## What is broken off -/

/-- A sequence is broken off at one of its statements, if those before it end normally. -/
theorem sequence_broken_iff {exec : Node → Run Flow} {last : Value} {stmts : List Node}
    {m m' : Machine} : sequence exec last stmts m = .ok .broken m' ↔
      ∃ before s after v m₁, stmts = before ++ s :: after ∧
        sequence exec last before m = .ok (.normal v) m₁ ∧ exec s m₁ = .ok .broken m' := by
  -- the statements in front of the break end normally and pass their machine on
  induction stmts generalizing last m with
  | nil =>
    refine ⟨fun h => ?_, ?_⟩
    · cases h
    · rintro ⟨before, s, after, v, m₁, heq, -⟩
      simp at heq
  | cons n rest ih =>
    constructor
    · intro h
      obtain ⟨flow, m₁, hn, h⟩ := bind_eq_ok.1 h
      cases flow with
      | normal v =>
        obtain ⟨before, s, after, v', m₂, rfl, hbefore, hs⟩ := ih.1 h
        exact ⟨n :: before, s, after, v', m₂, rfl, bind_eq_ok.2 ⟨_, m₁, hn, hbefore⟩, hs⟩
      | broken =>
        obtain ⟨-, rfl⟩ := pure_eq_ok.1 h
        exact ⟨[], n, rest, last, m, rfl, rfl, hn⟩
      | returned v => cases h
      | continued => cases h
    · rintro ⟨before, s, after, v, m₁, heq, hbefore, hs⟩
      cases before with
      | nil =>
        cases heq
        obtain ⟨-, rfl⟩ := pure_eq_ok.1 hbefore
        exact bind_eq_ok.2 ⟨_, m', hs, rfl⟩
      | cons n' before =>
        cases heq
        obtain ⟨flow, m₂, hn, hbefore⟩ := bind_eq_ok.1 hbefore
        cases flow with
        | normal v' =>
          exact bind_eq_ok.2 ⟨_, m₂, hn, ih.2 ⟨before, s, after, v, m₁, rfl, hbefore, hs⟩⟩
        | returned v' => cases hbefore
        | broken => cases hbefore
        | continued => cases hbefore

/-- Of the statements, only these are ever broken off. -/
theorem unbroken_exec {bound : Nat} {n : Node} (hbreak : n ≠ .breakLoop)
    (hblock : ∀ stmts, n ≠ .block stmts) (hif : ∀ c t e, n ≠ .ifElse c t e)
    (htry : ∀ b name h, n ≠ .tryCatch b name h) : Unbroken (exec (bound + 1) n) := by
  refine Unbroken.bind fun _ => ?_
  -- loops and switches end what breaks them off, and the rest has no body
  cases n with
  | breakLoop => exact absurd rfl hbreak
  | block stmts => exact absurd rfl (hblock stmts)
  | ifElse c t e => exact absurd rfl (hif c t e)
  | tryCatch b name h => exact absurd rfl (htry b name h)
  | continueLoop => exact .pure nofun
  | halt => exact .throw _
  | whileLoop c b => exact .whileLoop _ _ _
  | loop b => exact .bind fun _ => .cappedLoop _ _ _
  | forEach var items b => exact .bind fun _ => .bind fun _ => .forEach _ _ _
  | switch s cases default => exact .bind fun _ => .switchCases _ _ _ _
  | _ => repeat first | exact .pure nofun | refine .bind fun _ => ?_

/-- The statements that are broken off. -/
theorem exec_broken_iff {bound : Nat} {n : Node} {m m' : Machine} :
    exec bound n m = .ok .broken m' ↔ Breaks bound n m m' := by
  induction bound generalizing n m m' with
  | zero => exact ⟨fun h => absurd h (Unbroken.throw _ m m'), nofun⟩
  | succ bound ih =>
    cases n with
    | breakLoop =>
      constructor
      · intro h
        obtain ⟨-, rfl⟩ := pure_eq_ok.1 (h : (pure _ : Run Flow) m.tallied = _)
        exact .here
      · rintro ⟨⟩
        rfl
    | block stmts =>
      have hexec : exec (bound + 1) (.block stmts) m = block (exec bound) stmts m.tallied := rfl
      rw [hexec, block_eq, inScope_eq_ok]
      constructor
      · rintro ⟨m₁, h, rfl⟩
        obtain ⟨before, s, after, v, m₂, rfl, hbefore, hs⟩ := sequence_broken_iff.1 h
        exact .block hbefore (ih.1 hs)
      · intro h
        cases h with
        | block hbefore hs =>
          exact ⟨_, sequence_broken_iff.2 ⟨_, _, _, _, _, rfl, hbefore, ih.2 hs⟩, rfl⟩
    | ifElse c t e =>
      have hexec : exec (bound + 1) (.ifElse c t e) m =
          ((do truthy (← eval bound c)) >>= fun holds =>
            if holds then exec bound t else e.elim (return .normal .null) (exec bound)) m.tallied := by
        rw [bind_assoc]
        cases e <;> rfl
      rw [hexec, bind_eq_ok]
      constructor
      · rintro ⟨holds, m₁, hc, h⟩
        cases holds with
        | true => exact .thenBranch hc (ih.1 h)
        | false =>
          cases e with
          | none => cases h
          | some e => exact .elseBranch hc (ih.1 h)
      · intro h
        cases h with
        | thenBranch hc hb => exact ⟨true, _, hc, ih.2 hb⟩
        | elseBranch hc hb => exact ⟨false, _, hc, ih.2 hb⟩
    | tryCatch b name h =>
      have hexec : exec (bound + 1) (.tryCatch b name h) m =
          catching (exec bound b) (handle name (exec bound h)) m.tallied := rfl
      rw [hexec, catching_eq_ok]
      simp only [handle_eq, bind_eq_ok, inScope_eq_ok]
      constructor
      · rintro (hb | ⟨f, m₁, hb, hf, scope, m₂, hscope, m₃, hh, rfl⟩)
        · exact .body (ih.1 hb)
        · exact .handler hb hf hscope (ih.1 hh)
      · intro h
        cases h with
        | body hb => exact .inl (ih.2 hb)
        | handler hb hf hscope hh => exact .inr ⟨_, _, hb, hf, _, _, hscope, _, ih.2 hh, rfl⟩
    -- no other statement lets a break out
    | _ =>
      constructor
      · intro h
        exact absurd h (unbroken_exec Node.noConfusion (fun _ => Node.noConfusion)
          (fun _ _ _ => Node.noConfusion) (fun _ _ _ => Node.noConfusion) m m')
      · intro h
        cases h

/-! ## What ends at a `break` -/

/-- What is left of a loop. -/
inductive Rest where
  | while (condition : Run Bool) (rounds : Nat)
  | capped (cap rounds : Nat)
  | items (var : String) (values : List Value)

/-- Goes on with a loop. -/
def Rest.run (body : Run Flow) : Rest → Run Flow
  | .while condition rounds => whileLoop condition body rounds
  | .capped cap rounds => cappedLoop cap body rounds
  | .items var values => forEach var body values

/-- A loop begins a round in the second machine; behind the round the other rest of the loop is left. -/
inductive Round (body : Run Flow) : Rest → Machine → Run Flow → Machine → Rest → Prop
  | while {condition rounds m m₁} (hc : condition m = .ok true m₁) :
    Round body (.while condition (rounds + 1)) m body m₁.rounded (.while condition rounds)
  | capped {cap rounds m} :
    Round body (.capped cap (rounds + 1)) m body m.rounded (.capped cap rounds)
  | item {var v values m scope m₁}
    (hscope : itemScope var v m.rounded = .ok scope m₁) :
    Round body (.items var (v :: values)) m (inScope scope body) m₁ (.items var values)

/-- A loop goes some rounds, of which the last one is broken off and no other one. -/
inductive LeftIn (body : Run Flow) : Rest → Machine → Machine → Prop
  | now {rest m round m₁ rest' m'} (hround : Round body rest m round m₁ rest')
    (hbody : round m₁ = .ok .broken m') : LeftIn body rest m m'
  | later {rest m round m₁ rest' flow m₂ m'} (hround : Round body rest m round m₁ rest')
    (hbody : round m₁ = .ok flow m₂) (hflow : flow = .continued ∨ ∃ v, flow = .normal v)
    (hlater : LeftIn body rest' m₂ m') : LeftIn body rest m m'

/-- A round of a loop is run, and then the rest of it. -/
theorem Round.run_eq {body round : Run Flow} {rest rest' : Rest} {m m₁ : Machine}
    (h : Round body rest m round m₁ rest') :
    rest.run body m = (round >>= fun flow => afterRound flow (rest'.run body)) m₁ := by
  cases h with
  | «while» hc => exact bind_of_ok hc
  | capped => rfl
  | item hscope =>
    rw [Rest.run, forEach_cons]
    exact bind_of_ok hscope

/-- A loop that is left ends normally. -/
theorem LeftIn.run_eq {body : Run Flow} {rest : Rest} {m m' : Machine}
    (h : LeftIn body rest m m') : rest.run body m = .ok (.normal .null) m' := by
  induction h with
  | now hround hbody =>
    rw [hround.run_eq, bind_of_ok hbody]
    rfl
  | later hround hbody hflow _ ih =>
    rw [hround.run_eq, bind_of_ok hbody]
    obtain rfl | ⟨v, rfl⟩ := hflow <;> exact ih

/-- The statements that a switch executes. -/
inductive Chosen (r : Steps) (subject : Value) (default : Option (List Node)) :
    List (SwitchCase Node) → Machine → List Node → Machine → Prop
  | case {c rest m m₁} (hc : (do equal (← r.eval c.value) subject) m = .ok true m₁) :
    Chosen r subject default (c :: rest) m c.body m₁
  | next {c rest m m₁ stmts m₂} (hc : (do equal (← r.eval c.value) subject) m = .ok false m₁)
    (hrest : Chosen r subject default rest m₁ stmts m₂) :
    Chosen r subject default (c :: rest) m stmts m₂
  | default {m stmts} (h : default = some stmts) : Chosen r subject default [] m stmts m

/-- A switch runs the body that it has chosen. -/
theorem Chosen.switchCases_eq {r : Steps} {subject : Value} {default : Option (List Node)}
    {cases : List (SwitchCase Node)} {m m₁ : Machine} {stmts : List Node}
    (h : Chosen r subject default cases m stmts m₁) :
    switchCases r subject default cases m = switchBody r.exec stmts m₁ := by
  -- case by case, up to the first one that is equal
  induction h with
  | case hc =>
    rw [switchCases, ← bind_assoc, bind_of_ok hc]
    rfl
  | next hc _ ih =>
    rw [switchCases, ← bind_assoc, bind_of_ok hc]
    exact ih
  | default h =>
    subst h
    rfl

/-- A loop is left where its body is broken off. -/
theorem LeftIn.breaks {bound : Nat} {body : Node} {rest : Rest} {m m' : Machine}
    (h : LeftIn (exec bound body) rest m m') : ∃ m₁ m₂, Breaks bound body m₁ m₂ := by
  induction h with
  | now hround hbody =>
    -- a round of a loop over items runs its body in a scope of its own
    cases hround with
    | «while» | capped => exact ⟨_, _, exec_broken_iff.1 hbody⟩
    | item =>
      obtain ⟨m₁, hbody, -⟩ := inScope_eq_ok.1 hbody
      exact ⟨_, m₁, exec_broken_iff.1 hbody⟩
  | later _ _ _ _ ih => exact ih

/-- The chosen body is that of a case or the default. -/
theorem Chosen.mem {r : Steps} {subject : Value} {default : Option (List Node)}
    {cases : List (SwitchCase Node)} {m m₁ : Machine} {stmts : List Node}
    (h : Chosen r subject default cases m stmts m₁) :
    (∃ c ∈ cases, c.body = stmts) ∨ default = some stmts := by
  induction h with
  | case => exact .inl ⟨_, .head _, rfl⟩
  | next _ _ ih => exact ih.imp_left fun ⟨c, hc, heq⟩ => ⟨c, .tail _ hc, heq⟩
  | default h => exact .inr h

/-- From the first machine the loop or switch runs to a `break` of its own; there it ends, at the
second machine. -/
inductive Left : (bound : Nat) → Node → Machine → Machine → Prop
  | whileLoop {bound condition body m m'}
    (h : LeftIn (exec bound body) (.while (do truthy (← eval bound condition)) bound) m.tallied m') :
    Left (bound + 1) (.whileLoop condition body) m m'
  | loop {bound body m m' cap} (hcap : cap = m.options.maxLoopIterations)
    (h : LeftIn (exec bound body) (.capped cap cap) m.tallied m') : Left (bound + 1) (.loop body) m m'
  | forEach {bound var iterable body m values m₁ m'}
    (hvalues : (do iterationItems (← eval bound iterable)) m.tallied = .ok values m₁)
    (h : LeftIn (exec bound body) (.items var values) m₁ m') :
    Left (bound + 1) (.forEach var iterable body) m m'
  | switch {bound subject cases default m v m₁ stmts m₂ m'}
    (hsubject : eval bound subject m.tallied = .ok v m₁)
    (hchosen : Chosen ⟨bound, exec bound, eval bound, call bound⟩ v default cases m₁ stmts m₂)
    (h : block (exec bound) stmts m₂ = .ok .broken m') :
    Left (bound + 1) (.switch subject cases default) m m'

/-- A loop or a switch that is left ends there, and the program goes on behind it. -/
theorem Left.exec_eq {bound : Nat} {n : Node} {m m' : Machine} (h : Left bound n m m') :
    exec bound n m = .ok (.normal .null) m' := by
  -- what comes before the rounds is run, and then the rounds themselves
  cases h with
  | whileLoop h => exact h.run_eq
  | loop hcap h =>
    subst hcap
    exact h.run_eq
  | forEach hvalues h =>
    obtain ⟨v, m₂, hv, hvalues⟩ := bind_eq_ok.1 hvalues
    exact (bind_of_ok hv).trans ((bind_of_ok hvalues).trans h.run_eq)
  | switch hsubject hchosen h =>
    refine (bind_of_ok hsubject).trans (hchosen.switchCases_eq.trans ?_)
    rw [switchBody, bind_of_ok h]
    rfl

end BrailleScript
