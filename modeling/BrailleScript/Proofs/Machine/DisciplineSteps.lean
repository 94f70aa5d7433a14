import BrailleScript.Proofs.Machine.Discipline

/-!
# Steps that keep every discipline

Members, items, operators, built-in functions and the primitives that ask the backend change no
variable and no frame, and what they give was there before, is made of methods that were there
before, or is data.  So they keep every discipline.

## Key results

- `Safe.member`, `Safe.item`, `Safe.superMethod`, `Safe.iterationItems`: values that were there
- `Safe.binary`, `Safe.callBuiltin`: values that are made
- `Safe.setItem`: the one step that can end in a conflict
-/

namespace BrailleScript.Discipline.Safe

variable {D : Discipline} {o : RunOptions} {calls : List Bool}

/-! ## Members and items -/

/-- Asking whether a value counts as true is safe. -/
theorem truthy (v : Value) : D.Safe o calls (fun _ => True) (Run.truthy v) (Run.truthy v) :=
  .read fun m => m.heap.truthy v

/-- So is asking for its text. -/
theorem text (v : Value) : D.Safe o calls (fun _ => True) (Run.text v) (Run.text v) :=
  .read fun m => m.heap.text v

/-- A bound method is admitted. -/
theorem bindMethod {c : Class} (hc : c.Only D.admits) (ref : Nat) (name : String) (missing : Cause)
    {above : Class} (ha : above.Only D.admits) :
    D.Safe o calls D.Admitted
      (match above.findMethod name with
        | some (method, owner) => Run.newFunction (Run.bindMethod ref c method owner)
        | none => Run.fail missing)
      (match above.findMethod name with
        | some (method, owner) => Run.newFunction (Run.bindMethod ref c method owner)
        | none => Run.fail missing) := by
  cases hf : above.findMethod name with
  | none => exact .fail _
  | some found =>
    obtain ⟨hd, ho⟩ := ha.findMethod hf
    exact .newFunction (.bindMethod hc hd ho)

/-- So is a member. -/
theorem member {v : Value} (hv : D.Admitted v) (name : String) :
    D.Safe o calls D.Admitted (Run.member v name) (Run.member v name) := by
  refine .get_bind fun m hm => ?_
  -- what is read from the heap was admitted when it was written
  cases v with
  | object ref c =>
    dsimp only
    split
    · rename_i field hf
      exact .pure (hm.only.heap.fields (Fields.mem_of_get? hf))
    · exact .bindMethod hv ref name _ hv
  | map ref =>
    exact .pure (.getD fun w hw => hm.only.heap.entries (Fields.mem_of_get? hw))
  | array ref =>
    dsimp only
    split
    · exact .pure trivial
    · exact .fail _
  | text s =>
    dsimp only
    split
    · exact .pure trivial
    · exact .fail _
  | _ => exact .fail _

/-- So is an item. -/
theorem item (v index : Value) : D.Safe o calls D.Admitted (Run.item v index) (Run.item v index) := by
  refine .get_bind fun m hm => ?_
  dsimp only
  split
  · refine .pure (.getD fun w hw => ?_)
    obtain ⟨i, -, hi⟩ := Option.bind_eq_some_iff.1 hw
    exact hm.only.heap.items (Array.mem_of_getElem? hi)
  · split
    · exact .pure trivial
    · exact .pure trivial
  · exact .pure (.getD fun w hw => hm.only.heap.entries (Fields.mem_of_get? hw))
  · exact .pure (.getD fun w hw => hm.only.heap.fields (Fields.mem_of_get? hw))
  · exact .fail _

/-- Setting a member to an admitted value is safe. -/
theorem setMember (object : Value) (name : String) {v : Value} (hv : D.Admitted v) :
    D.Safe o calls (fun _ => True) (Run.setMember object name v) (Run.setMember object name v) := by
  cases object with
  | object ref c => exact .update fun _ hh => hh.setField ref name hv
  | map ref => exact .update fun _ hh => hh.setEntry ref name hv
  | _ => exact .fail _

/-- So is setting an item, when a conflict is allowed. -/
theorem setItem (hc : D.stops .conflict) (object index : Value) {v : Value} (hv : D.Admitted v) :
    D.Safe o calls (fun _ => True) (Run.setItem object index v) (Run.setItem object index v) := by
  unfold Run.setItem
  split
  · refine .get_bind fun m _ => ?_
    dsimp only
    split
    · exact .update fun _ hh => hh.setItem _ _ hv
    · exact .fail _
  · refine .get_bind fun m _ => ?_
    dsimp only
    split
    · -- a container that is its own key is the conflict
      exact .throw hc
    · exact .update fun _ hh => hh.setEntry _ _ hv
  · exact .fail _

/-- A method of the parent class is admitted. -/
theorem superMethod (name : String) :
    D.Safe o calls D.Admitted (Run.superMethod name) (Run.superMethod name) := by
  refine .bind .currentBinding fun binding hb => ?_
  -- outside of a method there is no parent class
  cases binding with
  | none => exact .fail _
  | some b =>
    dsimp only
    split
    · exact .fail _
    · rename_i parent hp
      exact .bindMethod (hb b rfl).1 _ name _ ((hb b rfl).2.parent hp)

/-- So are the items that a loop runs over. -/
theorem iterationItems (v : Value) :
    D.Safe o calls (fun vs => ∀ v ∈ vs, D.Admitted v) (Run.iterationItems v)
      (Run.iterationItems v) := by
  refine .get_bind fun m hm => ?_
  cases v with
  | array ref => exact .pure fun v hv => hm.only.heap.items (Array.mem_toList_iff.1 hv)
  | map ref =>
    refine .mapM fun entry he => .newArray fun w hw => ?_
    -- an entry is given as the array of its key and its value
    rcases List.mem_cons.1 (Array.mem_toList_iff.2 hw) with rfl | hw
    · trivial
    · obtain rfl := List.mem_singleton.1 hw
      exact hm.only.heap.entries he
  | text s =>
    refine .pure fun v hv => ?_
    obtain ⟨c, -, rfl⟩ := List.mem_map.1 hv
    trivial
  | _ => exact .pure fun v hv => absurd hv List.not_mem_nil

/-! ## Operators -/

/-- Arithmetic gives admitted values. -/
theorem arithmetic (op : Operator) (f : Float → Float → Float) (l r : Value) :
    D.Safe o calls D.Admitted (Run.arithmetic op f l r) (Run.arithmetic op f l r) := by
  unfold Run.arithmetic
  split
  · exact .pure trivial
  · exact .fail _

/-- So do comparisons. -/
theorem comparison (op : Operator) (numbers : Float → Float → Bool)
    (texts : String → String → Bool) (l r : Value) :
    D.Safe o calls D.Admitted (Run.comparison op numbers texts l r)
      (Run.comparison op numbers texts l r) := by
  unfold Run.comparison
  split
  · exact .pure trivial
  · exact .pure trivial
  · exact .fail _

/-- So does a sum, of numbers or texts. -/
theorem plus (l r : Value) : D.Safe o calls D.Admitted (Run.plus l r) (Run.plus l r) := by
  unfold Run.plus
  split
  · exact .pure trivial
  · exact .bind (.text _) fun _ _ => .pure trivial
  · exact .bind (.text _) fun _ _ => .pure trivial
  · exact .fail _

/-- So does every binary operator. -/
theorem binary (op : Operator) (l r : Value) :
    D.Safe o calls D.Admitted (Run.binary op l r) (Run.binary op l r) := by
  cases op with
  | plus => exact .plus l r
  | minus | star => exact .arithmetic _ _ l r
  | slash | percent =>
    unfold Run.binary
    dsimp only
    split
    · exact .fail _
    · exact .arithmetic _ _ l r
  | equal | notEqual => exact .bind (.equal l r) fun _ _ => .pure trivial
  | less | lessEqual | greater | greaterEqual => exact .comparison _ _ _ l r
  | both | either => exact .bind (.truthy l) fun _ _ => .bind (.truthy r) fun _ _ => .pure trivial
  | bang | assign | arrow | pipe | dot => exact .fail _

/-- So does every unary one. -/
theorem unary (op : UnaryOp) (v : Value) :
    D.Safe o calls D.Admitted (Run.unary op v) (Run.unary op v) := by
  unfold Run.unary
  split
  · exact .bind (.truthy v) fun _ _ => .pure trivial
  · exact .pure trivial
  · exact .fail _

/-! ## Built-in functions -/

/-- Checking for a number is safe. -/
theorem numberArg (b : Builtin) (v : Value) :
    D.Safe o calls (fun _ => True) (Run.numberArg b v) (Run.numberArg b v) := by
  cases v with
  | number x => exact .pure trivial
  | _ => exact .fail _

/-- So is checking for a text. -/
theorem textArg (b : Builtin) (v : Value) :
    D.Safe o calls (fun _ => True) (Run.textArg b v) (Run.textArg b v) := by
  cases v with
  | text s => exact .pure trivial
  | _ => exact .fail _

/-- An array of texts is admitted. -/
theorem newArray_texts (l : List String) :
    D.Safe o calls D.Admitted (Run.newArray (l.map Value.text).toArray)
      (Run.newArray (l.map Value.text).toArray) := by
  refine .newArray fun v hv => ?_
  obtain ⟨s, -, rfl⟩ := List.mem_map.1 (List.mem_toArray.1 hv)
  trivial

/-- So is a length. -/
theorem len (v : Value) : D.Safe o calls D.Admitted (Run.len v) (Run.len v) := by
  refine .get_bind fun m _ => ?_
  cases v with
  | text | array | map => exact .pure trivial
  | _ => exact .fail _

/-- So is what is read as a number. -/
theorem toNumber (v : Value) : D.Safe o calls D.Admitted (Run.toNumber v) (Run.toNumber v) := by
  unfold Run.toNumber
  split
  · exact .pure trivial
  · exact .pure trivial
  · exact .pure trivial
  · split
    · exact .pure trivial
    · exact .fail _
  · exact .fail _

/-- So is an array that an admitted item is pushed to. -/
theorem push (v : Value) {item : Value} (hi : D.Admitted item) :
    D.Safe o calls D.Admitted (Run.push v item) (Run.push v item) := by
  cases v with
  | array ref =>
    exact .bind (.update fun _ hh => hh.pushItem ref hi) fun _ _ =>
      .get_bind fun _ _ => .pure trivial
  | _ => exact .fail _

/-- So are the keys of a map. -/
theorem keys (v : Value) : D.Safe o calls D.Admitted (Run.keys v) (Run.keys v) := by
  refine .get_bind fun m _ => ?_
  cases v with
  | map | object => exact .newArray_texts _
  | _ => exact .fail _

/-- Checking the bound of a range is safe. -/
theorem rangeBound (v : Value) :
    D.Safe o calls (fun _ => True) (Run.rangeBound v) (Run.rangeBound v) := by
  refine .bind (.numberArg _ v) fun x _ => ?_
  split
  · exact .pure trivial
  · exact .fail _

/-- A range is admitted. -/
theorem rangeFrom (start stop : Int) :
    D.Safe o calls D.Admitted (Run.rangeFrom start stop) (Run.rangeFrom start stop) := by
  unfold Run.rangeFrom
  dsimp only
  split
  · exact .fail _
  · refine .newArray fun v hv => ?_
    obtain ⟨i, rfl⟩ := Array.mem_ofFn.1 hv
    trivial

/-- So is one from arguments. -/
theorem range (args : List Value) :
    D.Safe o calls D.Admitted (Run.range args) (Run.range args) := by
  unfold Run.range
  split
  · exact .bind (.rangeBound _) fun _ _ => .rangeFrom _ _
  · exact .bind (.rangeBound _) fun _ _ => .bind (.rangeBound _) fun _ _ => .rangeFrom _ _
  · exact .fail _

/-- So is what noting a boundary gives. -/
theorem boundary (args : List Value) :
    D.Safe o calls D.Admitted (Run.boundary args) (Run.boundary args) := by
  -- the domain is optional and has to be the name of one
  have hdomain (rest : List Value) :
      D.Safe o calls (fun _ => True) (Run.boundaryDomain rest) (Run.boundaryDomain rest) := by
    cases rest with
    | nil => exact .pure trivial
    | cons v rest =>
      refine .bind (.textArg _ v) fun name _ => ?_
      split
      · exact .pure trivial
      · exact .fail _
  cases args with
  | nil => exact .fail _
  | cons v rest =>
    exact .bind (.text v) fun _ _ => .bind (hdomain rest) fun _ _ => .bind (.record _) fun _ _ =>
      .pure trivial

/-- So is what a function of a number gives. -/
theorem mapNumber (b : Builtin) (f : Float → Float) (v : Value) :
    D.Safe o calls D.Admitted (Run.mapNumber b f v) (Run.mapNumber b f v) :=
  .bind (.numberArg b v) fun _ _ => .pure trivial

/-- So is a power. -/
theorem power (base exponent : Value) :
    D.Safe o calls D.Admitted (Run.power base exponent) (Run.power base exponent) :=
  .bind (.numberArg _ base) fun _ _ => .bind (.numberArg _ exponent) fun _ _ => .pure trivial

/-- So is what a function of several numbers gives. -/
theorem foldNumbers (b : Builtin) (f : Float → Float → Float) (args : List Value) :
    D.Safe o calls D.Admitted (Run.foldNumbers b f args) (Run.foldNumbers b f args) := by
  cases args with
  | nil => exact .fail _
  | cons v rest =>
    refine .bind (.numberArg b v) fun first _ => .bind (p := fun _ => True) ?_ fun _ _ =>
      .pure trivial
    exact .foldlM trivial fun _ w _ _ => .bind (.numberArg b w) fun _ _ => .pure trivial

/-- So is what a function of a text gives. -/
theorem mapText (b : Builtin) (f : String → String) (v : Value) :
    D.Safe o calls D.Admitted (Run.mapText b f v) (Run.mapText b f v) :=
  .bind (.textArg b v) fun _ _ => .pure trivial

/-- So are the parts of a text. -/
theorem split (v separator : Value) :
    D.Safe o calls D.Admitted (Run.split v separator) (Run.split v separator) :=
  .bind (.textArg _ v) fun _ _ => .bind (.textArg _ separator) fun _ _ =>
    .newArray_texts _

/-- So is a text that is joined from parts. -/
theorem join (v separator : Value) :
    D.Safe o calls D.Admitted (Run.join v separator) (Run.join v separator) := by
  refine .bind (.textArg _ separator) fun _ _ => .get_bind fun m _ => ?_
  cases v with
  | array ref => exact .pure trivial
  | _ => exact .fail _

/-- So is the answer whether one text holds another. -/
theorem containsText (v part : Value) :
    D.Safe o calls D.Admitted (Run.containsText v part) (Run.containsText v part) :=
  .bind (.textArg _ v) fun _ _ => .bind (.textArg _ part) fun _ _ => .pure trivial

/-- So is what a builtin gives. -/
theorem applyBuiltin (b : Builtin) {args : List Value} (ha : ∀ v ∈ args, D.Admitted v) :
    D.Safe o calls D.Admitted (Run.applyBuiltin b args) (Run.applyBuiltin b args) := by
  unfold Run.applyBuiltin
  split
  · exact .len _
  · exact .bind (.text _) fun _ _ => .pure trivial
  · exact .toNumber _
  · exact .pure trivial
  · -- the one built-in function that stores a value
    exact .push _ (ha _ (.tail _ (.head _)))
  · exact .keys _
  · exact .range _
  · exact .boundary _
  · exact .mapNumber _ _ _
  · exact .mapNumber _ _ _
  · exact .mapNumber _ _ _
  · exact .mapNumber _ _ _
  · exact .power _ _
  · exact .foldNumbers _ _ _
  · exact .foldNumbers _ _ _
  · exact .mapText _ _ _
  · exact .mapText _ _ _
  · exact .mapText _ _ _
  · exact .split _ _
  · exact .join _ _
  · exact .containsText _ _
  · exact .fail _

/-- So is it with the builtin's count of arguments checked. -/
theorem callBuiltin (b : Builtin) {args : List Value} (ha : ∀ v ∈ args, D.Admitted v) :
    D.Safe o calls D.Admitted (Run.callBuiltin b args) (Run.callBuiltin b args) := by
  unfold Run.callBuiltin
  split
  · split
    · exact .applyBuiltin b ha
    · exact .fail _
  · exact .applyBuiltin b ha

/-- So is a module. -/
theorem loadModule (name : String) :
    D.Safe o calls D.Admitted (Run.loadModule name) (Run.loadModule name) := by
  unfold Run.loadModule Run.moduleMembers?
  -- the functions of a module are built in
  have hfunctions (bs : List Builtin) :
      ∀ e ∈ bs.map fun b => (b.name, Value.builtin b), D.Admitted e.2 := by
    intro e he
    obtain ⟨b, -, rfl⟩ := List.mem_map.1 he
    trivial
  split
  · rename_i members hmembers
    refine .newMap (Heap.Only.values_ofList ?_)
    dsimp only at hmembers
    split at hmembers
    · cases hmembers
      exact List.forall_mem_append.2 ⟨hfunctions _, List.forall_mem_singleton.2 trivial⟩
    · split at hmembers
      · cases hmembers
        exact hfunctions _
      · exact nomatch hmembers
  · exact .fail _

/-! ## Primitives that ask the backend -/

/-- Asking for the text of an argument is safe. -/
theorem argText (v : Option Value) :
    D.Safe o calls (fun _ => True) (Run.argText v) (Run.argText v) := by
  cases v with
  | none => exact .pure trivial
  | some v => exact .text v

/-- An observed JSON result is admitted. -/
theorem observeJson (c : Call) {x : Run Json} (h : D.Safe o calls (fun _ => True) x x) :
    D.Safe o calls D.Admitted (Run.observeJson c x) (Run.observeJson c x) :=
  .bind (p := fun _ => True) (.observe c (fun _ => trivial) (.bind h fun _ _ => .pure trivial))
    fun j _ => .ofJson j

/-- So is what an inference gives. -/
theorem infer (args : List Value) (pos : Pos) :
    D.Safe o calls D.Admitted (Run.infer args pos) (Run.infer args pos) := by
  refine .bind (.argText _) fun prompt _ => .bind (.read _) fun settings _ => ?_
  refine .observeJson _ (.bind (.ask _) fun answer _ => ?_)
  cases answer with
  | ok text => exact .pure trivial
  | error reason => exact .fail _

/-- So is what an embedding gives. -/
theorem embed (args : List Value) (pos : Pos) :
    D.Safe o calls D.Admitted (Run.embed args pos) (Run.embed args pos) := by
  refine .bind (.argText _) fun source _ => .observeJson _ (.bind (.ask _) fun answer _ => ?_)
  cases answer with
  | ok vector => exact .pure trivial
  | error reason => exact .fail _

/-- So is a filled template. -/
theorem promptTemplate (args : List Value) (pos : Pos) :
    D.Safe o calls D.Admitted (Run.promptTemplate args pos) (Run.promptTemplate args pos) := by
  refine .bind (.argText _) fun template _ => .bind (.json _) fun j _ => ?_
  refine .observeJson _ (.get_bind fun m _ => ?_)
  dsimp only
  split
  · exact .pure trivial
  · exact .pure trivial
  · exact .pure trivial
  · exact .fail _

/-- So is what a search gives. -/
theorem semanticSearch (args : List Value) (pos : Pos) :
    D.Safe o calls D.Admitted (Run.semanticSearch args pos) (Run.semanticSearch args pos) := by
  have hdocs (v : Option Value) :
      D.Safe o calls (fun _ => True) (Run.searchDocuments v) (Run.searchDocuments v) := by
    unfold Run.searchDocuments
    split
    · exact .read _
    · exact .fail _
    · exact .pure trivial
  have hask {α : Type} (f : Backend → Nat → Except String α) :
      D.Safe o calls (fun _ => True) (Run.askSearch f) (Run.askSearch f) := by
    refine .bind (.ask _) fun answer _ => ?_
    cases answer with
    | ok a => exact .pure trivial
    | error reason => exact .fail _
  have hjson (docs : List Value) :
      D.Safe o calls (fun _ => True) (docs.mapM Run.json) (docs.mapM Run.json) :=
    .mono (fun _ _ => trivial) (.mapM fun v _ => .json v)
  refine .bind (.argText _) fun query _ => .bind (hdocs _) fun docs _ => ?_
  refine .bind (hjson docs) fun keys _ => .observeJson _ ?_
  -- the query and every document are embedded, then the best documents are written
  refine .bind (hask _) fun q _ => .bind (p := fun _ => True) ?_ fun ranked _ => ?_
  · refine .mono (fun _ _ => trivial) (.mapM (r := fun _ => True) fun doc _ => ?_)
    exact .bind (.text doc) fun s _ => .bind (hask _) fun rank _ => .pure trivial
  · exact .bind (hjson _) fun _ _ => .pure trivial

end BrailleScript.Discipline.Safe
