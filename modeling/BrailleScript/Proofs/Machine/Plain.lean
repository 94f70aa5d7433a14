import BrailleScript.Machine.Eval
import BrailleScript.Proofs.Heap.Json
import BrailleScript.Proofs.Machine.Surroundings

/-!
# Plain steps

A step is *plain* if it is composed of looking at the program's own state, changing it without
touching the open calls, and failing in some way that is neither a halt nor the refusal of a call.
Members, items, operators, declarations and built-in functions are plain: they work on scopes,
values and the heap alone.  The one built-in function that is not is `boundary`, which marks the
trace.

What a plain step is composed of is remembered (`Plain` is inductive), so a property of steps that
these compositions keep holds of all plain steps by one induction.

## Key results

- `Plain.blind`: a plain step neither looks at the surroundings nor changes them
- `plain_applyBuiltin`: built-in functions are plain, and so are the other steps of the language
-/

namespace BrailleScript

/-! ## Causes of failures -/

/-- Whether a step may fail for the cause wherever it runs: it is no `halt`, and no refusal of a call
or a reflection because too many are open. -/
def Cause.isOrdinary (c : Cause) : Bool :=
  c.kind != .halt && c.kind != .recursionLimit

/-- A cause is ordinary when it is neither a halt nor a limit. -/
theorem Cause.isOrdinary_iff {c : Cause} :
    c.isOrdinary = true ↔ c.kind ≠ .halt ∧ c.kind ≠ .recursionLimit := by
  simp [isOrdinary]

/-- An ordinary cause is not the halt. -/
theorem Cause.ne_halted {c : Cause} (h : c.isOrdinary = true) : c ≠ .halted := by
  rintro rfl
  cases h

namespace Heap

/-- A comparison of many pairs fails as that of one pair does. -/
private theorem allEqual_error {f : Value → Value → Except Cause Bool} {c : Cause}
    (hf : ∀ v w d, f v w = .error d → d = c) (l : List (Value × Value)) (d : Cause)
    (h : allEqual f l = .error d) : d = c := by
  induction l with
  | nil => exact nomatch h
  | cons p l ih =>
    rw [allEqual] at h
    split at h
    · exact ih h
    · exact hf p.1 p.2 d h

/-- Two containers are compared after they have been told apart, looked up among the pairs that are
being compared, and measured. -/
private theorem guarded_error {p q r : Prop} [Decidable p] [Decidable q] [Decidable r]
    {b : Bool} {b' : Bool} {c d : Cause} {x : Except Cause Bool} (hx : x = .error c → c = d)
    (h : (if p then .ok b else if q then .error d else if r then .ok b' else x) = .error c) :
    c = d := by
  -- one container, a pair that is being compared, different sizes, or the contents
  split at h
  · cases h
  split at h
  · exact (Except.error.inj h).symm
  split at h
  · cases h
  · exact hx h

/-- Comparing two values fails only because they contain themselves. -/
theorem equalWithin_error (h : Heap) (depth : Nat) (within : List (Container × Container))
    (v w : Value) (c : Cause) (hc : h.equalWithin depth within v w = .error c) :
    c = .selfContaining .compare := by
  -- the pairs that are being compared grow as the walk goes down, so they are generalized
  induction depth generalizing within v w c with
  | zero =>
    unfold equalWithin at hc
    split at hc
    · exact guarded_error (fun hx => (Except.error.inj hx).symm) hc
    · exact guarded_error (fun hx => (Except.error.inj hx).symm) hc
    all_goals cases hc
  | succ depth ih =>
    unfold equalWithin at hc
    split at hc
    · exact guarded_error (allEqual_error (ih _) _ c) hc
    · exact guarded_error (allEqual_error (ih _) _ c) hc
    all_goals cases hc

/-- Failing to serialize is ordinary. -/
theorem isOrdinary_of_toJson {h : Heap} {v : Value} {c : Cause} (hv : h.toJson v = .error c) :
    c.isOrdinary = true := by
  rw [jsonWithin_error h _ _ v c hv]
  rfl

/-- So is failing to compare. -/
theorem isOrdinary_of_equal {h : Heap} {v w : Value} {c : Cause} (hv : h.equal v w = .error c) :
    c.isOrdinary = true := by
  rw [equalWithin_error h _ _ v w c hv]
  rfl

end Heap

namespace Scopes

variable {s : Scopes} {id : ScopeId} {name : String} {c : Cause}

/-- So is failing to find a name. -/
theorem isOrdinary_of_get (h : s.get id name = .error c) : c.isOrdinary = true := by
  unfold get at h
  split at h <;> cases h
  rfl

/-- So is failing to define one. -/
theorem isOrdinary_of_definable (h : s.definable id name = .error c) : c.isOrdinary = true := by
  unfold definable at h
  split at h <;> cases h
  rfl

/-- So is failing to assign one. -/
theorem isOrdinary_of_assignable (h : s.assignable id name = .error c) : c.isOrdinary = true := by
  unfold assignable at h
  split at h <;> cases h <;> rfl

end Scopes

/-! ## Plain steps -/

/-- The methods that the open calls are calls of, innermost first. -/
def Machine.bindings (m : Machine) : List (Option MethodBinding) :=
  m.frames.map (·.binding)

/-- How deep a run is in calls and in reflection, and what it was told about that. -/
structure Standing where
  bindings : List (Option MethodBinding)
  reflectDepth : Nat
  deepestCall : Nat
  options : RunOptions

/-- What a plain step leaves as it is. -/
def Machine.standing (m : Machine) : Standing :=
  ⟨m.bindings, m.reflectDepth, m.stats.deepestCall, m.options⟩

namespace Run

/-- A step on the program's own state that calls nothing, does not halt and is not refused. -/
inductive Plain : {α : Type} → Run α → Prop where
  | fail {α : Type} {c : Cause} (h : c.isOrdinary = true) : Plain (fail c : Run α)
  | conflict {α : Type} : Plain (throw .conflict : Run α)
  | exhausted {α : Type} : Plain (throw .exhausted : Run α)
  | bind {α β : Type} {x : Run α} {f : α → Run β} (hx : Plain x) (hf : ∀ a, Plain (f a)) :
    Plain (x >>= f)
  /-- A step that looks at the program's own state before it goes on. -/
  | get_bind {α : Type} {f : Machine → Run α} (hf : ∀ m s, f (m.within s) = f m)
    (h : ∀ m, Plain (f m)) : Plain (get >>= f)
  /-- A step that changes the program's own state, but no call and no depth. -/
  | modifyGet {α : Type} {f : Machine → α × Machine}
    (hf : ∀ m s, f (m.within s) = ((f m).1, (f m).2.within s))
    (hb : ∀ m, (f m).2.standing = m.standing) : Plain (modifyGet f : Run α)

variable {α β : Type}

namespace Plain

/-- A plain step is blind to its surroundings. -/
theorem blind {x : Run α} (h : Plain x) : Blind x := by
  induction h with
  | fail | conflict | exhausted => exact .throw _
  | bind _ _ hx hf => exact .bind hx hf
  | get_bind hf _ h => exact .get_bind hf h
  | modifyGet hf => exact .modifyGet hf

/-- A result is plain. -/
theorem pure (a : α) : Plain (pure a : Run α) :=
  .modifyGet (f := fun m => (a, m)) (fun _ _ => rfl) fun _ => rfl

/-- So is a change that leaves the standing and the surroundings. -/
theorem modify {f : Machine → Machine} (hf : ∀ m s, f (m.within s) = (f m).within s)
    (hb : ∀ m, (f m).standing = m.standing) : Plain (modify f : Run PUnit) :=
  .modifyGet (fun m s => by rw [hf]) hb

/-- So is a result or an ordinary cause. -/
theorem ofExcept {e : Except Cause α} (h : ∀ c, e = .error c → c.isOrdinary = true) :
    Plain (ofExcept e) := by
  cases e with
  | ok a => exact .pure a
  | error c => exact .fail (h c rfl)

/-- So is making a part of the heap. -/
theorem make (f : Heap → α × Heap) : Plain (make f) :=
  .modifyGet (f := fun m => ((f m.heap).1, { m with heap := (f m.heap).2 })) (fun _ _ => rfl)
    fun _ => rfl

/-- So is changing the heap. -/
theorem update (f : Heap → Heap) : Plain (update f) := .modify (fun _ _ => rfl) fun _ => rfl

/-- So is counting anything but the depth of calls. -/
theorem count {f : RunStats → RunStats} (hf : ∀ s, (f s).deepestCall = s.deepestCall) :
    Plain (count f) := by
  refine .modify (fun _ _ => rfl) fun m => ?_
  simp only [Machine.standing, hf]
  rfl

/-- So is printing. -/
theorem printLine (line : String) : Plain (printLine line) := .modify (fun _ _ => rfl) fun _ => rfl

/-- So is a plain step for each entry of a list. -/
theorem mapM {f : α → Run β} (h : ∀ a, Plain (f a)) (l : List α) : Plain (l.mapM f) := by
  induction l with
  | nil => exact .pure []
  | cons a l ih =>
    rw [List.mapM_cons]
    exact .bind (h a) fun b => .bind ih fun bs => .pure (b :: bs)

/-- So are plain steps that each take the result of the one before. -/
theorem foldlM {f : β → α → Run β} (h : ∀ b a, Plain (f b a)) (l : List α) (b : β) :
    Plain (l.foldlM f b) := by
  induction l generalizing b with
  | nil => exact .pure b
  | cons a l ih =>
    rw [List.foldlM_cons]
    exact .bind (h b a) ih

end Plain

/-! ## Scopes and values -/

/-- A new scope under another one is plain. -/
theorem plain_childOf (id : ScopeId) : Plain (childOf id) :=
  .get_bind (fun _ _ => rfl) fun _ => .bind (.modify (fun _ _ => rfl) fun _ => rfl) fun _ => .pure _

/-- So is one under the current scope. -/
theorem plain_newScope : Plain newScope :=
  .get_bind (fun _ _ => rfl) fun _ => plain_childOf _

/-- So is the definition of a name. -/
theorem plain_define (id : ScopeId) (name : String) (v : Value) (constant : Bool) :
    Plain (define id name v constant) :=
  .get_bind (fun _ _ => rfl) fun _ => .bind (.ofExcept fun _ => Scopes.isOrdinary_of_definable) fun _ =>
    .modify (fun _ _ => rfl) fun _ => rfl

/-- So is its declaration. -/
theorem plain_declare (name : String) (v : Value) (constant : Bool) :
    Plain (declare name v constant) :=
  .get_bind (fun _ _ => rfl) fun _ => plain_define _ _ _ _

/-- So is an assignment to it. -/
theorem plain_assignName (name : String) (v : Value) : Plain (assignName name v) :=
  .get_bind (fun _ _ => rfl) fun _ => .bind (.ofExcept fun _ => Scopes.isOrdinary_of_assignable) fun _ =>
    .modify (fun _ _ => rfl) fun _ => rfl

/-- So is its lookup. -/
theorem plain_lookup (name : String) : Plain (lookup name) :=
  .get_bind (fun _ _ => rfl) fun _ => .ofExcept fun _ => Scopes.isOrdinary_of_get

/-- Asking whether a value counts as true is plain. -/
theorem plain_truthy (v : Value) : Plain (truthy v) :=
  .get_bind (fun _ _ => rfl) fun _ => .pure _

/-- So is asking for its text. -/
theorem plain_text (v : Value) : Plain (text v) :=
  .get_bind (fun _ _ => rfl) fun _ => .pure _

/-- So is serializing it. -/
theorem plain_json (v : Value) : Plain (json v) :=
  .get_bind (fun _ _ => rfl) fun _ => .ofExcept fun _ => Heap.isOrdinary_of_toJson

/-- So is comparing two of them. -/
theorem plain_equal (v w : Value) : Plain (equal v w) :=
  .get_bind (fun _ _ => rfl) fun _ => .ofExcept fun _ => Heap.isOrdinary_of_equal

/-- So is asking for the current object. -/
theorem plain_currentBinding : Plain currentBinding :=
  .get_bind (fun _ _ => rfl) fun _ => .pure _

/-- So is a yield. -/
theorem plain_yieldValue (v : Value) : Plain (yieldValue v) := by
  refine .get_bind (fun _ _ => rfl) fun m => ?_
  split
  · refine .modify (fun _ _ => rfl) fun m => ?_
    -- a value is added to the innermost call, which stays a call of the same method
    have hbindings : (m.frames.modifyHead fun f =>
        { f with yields := f.yields.map (·.push v) }).map (·.binding) = m.frames.map (·.binding) := by
      cases m.frames <;> rfl
    simp only [Machine.standing, Machine.bindings, hbindings]
  · exact .fail rfl

/-! ## Members and items -/

/-- The choice of a member is plain. -/
theorem plain_member (v : Value) (name : String) : Plain (member v name) := by
  refine .get_bind (fun _ _ => rfl) fun m => ?_
  -- a method that is looked up is a new function, so only the heap changes
  cases v with
  | object ref c =>
    dsimp only
    split
    · exact .pure _
    · split
      · exact .make _
      · exact .fail rfl
  | array ref =>
    dsimp only
    split
    · exact .pure _
    · exact .fail rfl
  | text s =>
    dsimp only
    split
    · exact .pure _
    · exact .fail rfl
  | map ref => exact .pure _
  | _ => exact .fail rfl

/-- So is that of an item. -/
theorem plain_item (v index : Value) : Plain (item v index) := by
  refine .get_bind (fun _ _ => rfl) fun m => ?_
  dsimp only
  split
  · exact .pure _
  · exact .pure _
  · exact .pure _
  · exact .pure _
  · exact .fail rfl

/-- So is setting a member. -/
theorem plain_setMember (object : Value) (name : String) (v : Value) :
    Plain (setMember object name v) := by
  cases object with
  | object ref c => exact .update (·.setField ref name v)
  | map ref => exact .update (·.setEntry ref name v)
  | _ => exact .fail rfl

/-- So is setting an item. -/
theorem plain_setItem (object index v : Value) : Plain (setItem object index v) := by
  unfold setItem
  split
  · refine .get_bind (fun _ _ => rfl) fun m => ?_
    dsimp only
    split
    · exact .update _
    · exact .fail rfl
  · refine .get_bind (fun _ _ => rfl) fun m => ?_
    dsimp only
    split
    · exact .conflict
    · exact .update _
  · exact .fail rfl

/-- So is the choice of a method of the parent class. -/
theorem plain_superMethod (name : String) : Plain (superMethod name) := by
  refine .bind plain_currentBinding fun binding => ?_
  cases binding with
  | none => exact .fail rfl
  | some b =>
    dsimp only
    split
    · exact .fail rfl
    · split
      · exact .make _
      · exact .fail rfl

/-- So is taking the items that a loop runs over. -/
theorem plain_iterationItems (v : Value) : Plain (iterationItems v) := by
  refine .get_bind (fun _ _ => rfl) fun m => ?_
  cases v with
  | map ref => exact .mapM (fun _ => .make _) _
  | _ => exact .pure _

/-! ## Operators -/

/-- Arithmetic is plain. -/
theorem plain_arithmetic (op : Operator) (f : Float → Float → Float) (l r : Value) :
    Plain (arithmetic op f l r) := by
  unfold arithmetic
  split
  · exact .pure _
  · exact .fail rfl

/-- So is a comparison. -/
theorem plain_comparison (op : Operator) (numbers : Float → Float → Bool)
    (texts : String → String → Bool) (l r : Value) : Plain (comparison op numbers texts l r) := by
  unfold comparison
  split
  · exact .pure _
  · exact .pure _
  · exact .fail rfl

/-- So is a sum. -/
theorem plain_plus (l r : Value) : Plain (plus l r) := by
  unfold plus
  split
  · exact .pure _
  · exact .bind (plain_text _) fun _ => .pure _
  · exact .bind (plain_text _) fun _ => .pure _
  · exact .fail rfl

/-- So is every binary operator. -/
theorem plain_binary (op : Operator) (l r : Value) : Plain (binary op l r) := by
  cases op with
  | plus => exact plain_plus l r
  | minus | star => exact plain_arithmetic _ _ l r
  | slash | percent =>
    unfold binary
    dsimp only
    split
    · exact .fail rfl
    · exact plain_arithmetic _ _ l r
  | equal | notEqual => exact .bind (plain_equal l r) fun _ => .pure _
  | less | lessEqual | greater | greaterEqual => exact plain_comparison _ _ _ l r
  | both | either => exact .bind (plain_truthy l) fun _ => .bind (plain_truthy r) fun _ => .pure _
  | bang | assign | arrow | pipe | dot => exact .fail rfl

/-- So is every unary one. -/
theorem plain_unary (op : UnaryOp) (v : Value) : Plain (unary op v) := by
  unfold unary
  split
  · exact .bind (plain_truthy v) fun _ => .pure _
  · exact .pure _
  · exact .fail rfl

/-! ## Built-in functions -/

/-- Checking for a number is plain. -/
theorem plain_numberArg (b : Builtin) (v : Value) : Plain (numberArg b v) := by
  cases v with
  | number x => exact .pure _
  | _ => exact .fail rfl

/-- So is checking for a text. -/
theorem plain_textArg (b : Builtin) (v : Value) : Plain (textArg b v) := by
  cases v with
  | text s => exact .pure _
  | _ => exact .fail rfl

/-- The length of a value is plain. -/
theorem plain_len (v : Value) : Plain (len v) := by
  refine .get_bind (fun _ _ => rfl) fun m => ?_
  cases v with
  | text | array | map => exact .pure _
  | _ => exact .fail rfl

/-- So is reading a number. -/
theorem plain_toNumber (v : Value) : Plain (toNumber v) := by
  unfold toNumber
  split
  · exact .pure _
  · exact .pure _
  · exact .pure _
  · split
    · exact .pure _
    · exact .fail rfl
  · exact .fail rfl

/-- So is pushing an item. -/
theorem plain_push (v item : Value) : Plain (push v item) := by
  cases v with
  | array ref =>
    exact .bind (.update _) fun _ => .get_bind (fun _ _ => rfl) fun _ => .pure _
  | _ => exact .fail rfl

/-- So are the keys of a map. -/
theorem plain_keys (v : Value) : Plain (keys v) := by
  refine .get_bind (fun _ _ => rfl) fun m => ?_
  cases v with
  | map | object => exact .make _
  | _ => exact .fail rfl

/-- So is checking the bound of a range. -/
theorem plain_rangeBound (v : Value) : Plain (rangeBound v) := by
  refine .bind (plain_numberArg _ v) fun x => ?_
  split
  · exact .pure _
  · exact .fail rfl

/-- So is a range. -/
theorem plain_rangeFrom (start stop : Int) : Plain (rangeFrom start stop) := by
  unfold rangeFrom
  dsimp only
  split
  · exact .fail rfl
  · exact .make _

/-- So is one from arguments. -/
theorem plain_range (args : List Value) : Plain (range args) := by
  unfold range
  split
  · exact .bind (plain_rangeBound _) fun _ => plain_rangeFrom _ _
  · exact .bind (plain_rangeBound _) fun _ => .bind (plain_rangeBound _) fun _ =>
      plain_rangeFrom _ _
  · exact .fail rfl

/-- So is checking the domain of a boundary. -/
theorem plain_boundaryDomain (args : List Value) : Plain (boundaryDomain args) := by
  cases args with
  | nil => exact .pure _
  | cons v rest =>
    refine .bind (plain_textArg _ v) fun name => ?_
    split
    · exact .pure _
    · exact .fail rfl

/-- So is a function of a number. -/
theorem plain_mapNumber (b : Builtin) (f : Float → Float) (v : Value) : Plain (mapNumber b f v) :=
  .bind (plain_numberArg b v) fun _ => .pure _

/-- So is a power. -/
theorem plain_power (base exponent : Value) : Plain (power base exponent) :=
  .bind (plain_numberArg _ base) fun _ => .bind (plain_numberArg _ exponent) fun _ => .pure _

/-- So is a function of several numbers. -/
theorem plain_foldNumbers (b : Builtin) (f : Float → Float → Float) (args : List Value) :
    Plain (foldNumbers b f args) := by
  cases args with
  | nil => exact .fail rfl
  | cons v rest =>
    refine .bind (plain_numberArg b v) fun first => .bind (.foldlM (fun _ w => ?_) _ _) fun _ =>
      .pure _
    exact .bind (plain_numberArg b w) fun _ => .pure _

/-- So is a function of a text. -/
theorem plain_mapText (b : Builtin) (f : String → String) (v : Value) : Plain (mapText b f v) :=
  .bind (plain_textArg b v) fun _ => .pure _

/-- So is splitting a text. -/
theorem plain_split (v separator : Value) : Plain (split v separator) :=
  .bind (plain_textArg _ v) fun _ => .bind (plain_textArg _ separator) fun _ => .make _

/-- So is joining texts. -/
theorem plain_join (v separator : Value) : Plain (join v separator) := by
  refine .bind (plain_textArg _ separator) fun _ => .get_bind (fun _ _ => rfl) fun m => ?_
  cases v with
  | array ref => exact .pure _
  | _ => exact .fail rfl

/-- So is searching a text in another one. -/
theorem plain_containsText (v part : Value) : Plain (containsText v part) :=
  .bind (plain_textArg _ v) fun _ => .bind (plain_textArg _ part) fun _ => .pure _

/-- Every built-in function but the one that marks a boundary is blind. -/
theorem plain_applyBuiltin {b : Builtin} (hb : b ≠ .boundary) (args : List Value) :
    Plain (applyBuiltin b args) := by
  unfold applyBuiltin
  split
  · exact plain_len _
  · exact .bind (plain_text _) fun _ => .pure _
  · exact plain_toNumber _
  · exact .pure _
  · exact plain_push _ _
  · exact plain_keys _
  · exact plain_range _
  · -- `boundary` is left out
    exact absurd rfl hb
  · exact plain_mapNumber _ _ _
  · exact plain_mapNumber _ _ _
  · exact plain_mapNumber _ _ _
  · exact plain_mapNumber _ _ _
  · exact plain_power _ _
  · exact plain_foldNumbers _ _ _
  · exact plain_foldNumbers _ _ _
  · exact plain_mapText _ _ _
  · exact plain_mapText _ _ _
  · exact plain_mapText _ _ _
  · exact plain_split _ _
  · exact plain_join _ _
  · exact plain_containsText _ _
  · exact .fail rfl

/-- Loading a module is plain. -/
theorem plain_loadModule (name : String) : Plain (loadModule name) := by
  unfold loadModule
  split
  · exact .make _
  · exact .fail rfl

/-! ## Declarations -/

/-- So is finding the parent of a class. -/
theorem plain_parentClass (className : String) (parent : Option String) :
    Plain (parentClass className parent) := by
  cases parent with
  | none => exact .pure _
  | some name =>
    refine .bind (plain_lookup name) fun v => ?_
    cases v with
    | classValue c => exact .pure _
    | _ => exact .fail rfl

/-- So is declaring a class. -/
theorem plain_declareClass (name : String) (parent : Option String)
    (methods : List (FunctionDef Node)) : Plain (declareClass name parent methods) :=
  .bind (plain_parentClass name parent) fun _ => .get_bind (fun _ _ => rfl) fun _ =>
    .bind (.make _) fun _ => plain_declare _ _ _

/-- So is making a closure. -/
theorem plain_closure (d : FunctionDef Node) : Plain (closure d) :=
  .get_bind (fun _ _ => rfl) fun _ => .make _

/-- So is binding parameters. -/
theorem plain_bindParams (scope : ScopeId) (params : List String) (args : List Value) :
    Plain (bindParams scope params args) := by
  induction params generalizing args with
  | nil => exact .pure ()
  | cons p params ih =>
    cases args with
    | nil => exact .bind (plain_define _ _ _ _) fun _ => ih []
    | cons v args => exact .bind (plain_define _ _ _ _) fun _ => ih args

/-! ## Arguments of primitives -/

/-- So is asking for the text of an argument. -/
theorem plain_argText (v : Option Value) : Plain (argText v) := by
  cases v with
  | none => exact .pure _
  | some v => exact plain_text v

/-- So is filling a template. -/
theorem plain_fillTemplate (template : String) (vars : Value) :
    Plain (fillTemplate template vars) := by
  refine .get_bind (fun _ _ => rfl) fun m => ?_
  cases vars with
  | map | object | null => exact .pure _
  | _ => exact .fail rfl

/-- So is asking for the documents of a search. -/
theorem plain_searchDocuments (v : Option Value) : Plain (searchDocuments v) := by
  unfold searchDocuments
  split
  · exact .get_bind (fun _ _ => rfl) fun _ => .pure _
  · exact .fail rfl
  · exact .pure _

end Run

end BrailleScript
