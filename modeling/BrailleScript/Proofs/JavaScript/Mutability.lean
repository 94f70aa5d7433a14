import BrailleScript.Backend.DryRun
import BrailleScript.Machine.Execution
import BrailleScript.Proofs.JavaScript.Containment
import BrailleScript.Proofs.Node.Writer

/-!
# The constants of emitted code

In the code emitted for a program that declares no constants, every `const` declares a name of the
emitter's own, or the module of an import or the variable of a loop over items, which the machine
binds as ordinary variables.

## Key results

- `constants_named`: the names that are declared as constants
- `names_stay_mutable`: without imports and loops over items there are none of the program
-/

namespace BrailleScript.JavaScript

/-- The word that declares a constant. -/
abbrev constWord : Lexeme :=
  .word ['c', 'o', 'n', 's', 't']

/-- The name is one of the emitter's own. -/
abbrev IsInternal (name : List Char) : Prop :=
  ['_', '_'] <+: name

/-- The first of the lexemes is a name that is allowed. -/
def BeginsWithName (allowed : List Char → Prop) : List Lexeme → Prop
  | .word name :: _ => allowed name
  | _ => False

/-- Every constant that the lexemes declare has a name that is allowed. -/
def NamesConstants (allowed : List Char → Prop) : List Lexeme → Prop
  | [] => True
  | t :: rest => (t = constWord → BeginsWithName allowed rest) ∧ NamesConstants allowed rest

section Decidability

variable {allowed : List Char → Prop} [DecidablePred allowed]

instance (ts : List Lexeme) : Decidable (BeginsWithName allowed ts) :=
  match ts with
  | .word name :: _ => inferInstanceAs (Decidable (allowed name))
  | [] | .mark _ :: _ | .string _ :: _ | .comment _ :: _ => .isFalse id

/-- Whether the named constants are allowed can be decided lexeme by lexeme. -/
instance decidableNamesConstants : (ts : List Lexeme) → Decidable (NamesConstants allowed ts)
  | [] => .isTrue trivial
  | t :: rest =>
    have := decidableNamesConstants rest
    inferInstanceAs (Decidable ((t = constWord → BeginsWithName allowed rest) ∧ _))

end Decidability

namespace NamesConstants

variable {allowed allowed' : List Char → Prop} {ts us : List Lexeme}

/-- More names may be allowed. -/
theorem mono (h : ∀ name, allowed name → allowed' name) (hts : NamesConstants allowed ts) :
    NamesConstants allowed' ts := by
  induction ts with
  | nil => trivial
  | cons t rest ih =>
    refine ⟨fun ht => ?_, ih hts.2⟩
    have hbegins := hts.1 ht
    unfold BeginsWithName at hbegins ⊢
    split at hbegins
    · exact h _ hbegins
    · cases hbegins

/-- Texts in a row name the constants of both. -/
theorem append (hts : NamesConstants allowed ts) (hus : NamesConstants allowed us) :
    NamesConstants allowed (ts ++ us) := by
  induction ts with
  | nil => exact hus
  | cons t rest ih =>
    refine ⟨fun ht => ?_, ih hts.2⟩
    have hbegins := hts.1 ht
    unfold BeginsWithName at hbegins
    split at hbegins
    · exact hbegins
    · cases hbegins

/-- So do many texts. -/
theorem flatMap {α : Type} {xs : List α} {f : α → List Lexeme}
    (h : ∀ x ∈ xs, NamesConstants allowed (f x)) : NamesConstants allowed (xs.flatMap f) := by
  induction xs with
  | nil => trivial
  | cons x rest ih =>
    rw [List.forall_mem_cons] at h
    rw [List.flatMap_cons]
    exact append h.1 (ih h.2)

/-- A text without declarations of constants names none. -/
theorem of_forall_ne (h : ∀ t ∈ ts, t ≠ constWord) : NamesConstants allowed ts := by
  induction ts with
  | nil => trivial
  | cons t rest ih =>
    rw [List.forall_mem_cons] at h
    exact ⟨fun ht => absurd ht h.1, ih h.2⟩

/-- The name stands right behind the word. -/
theorem split (h : NamesConstants allowed ts) {before after : List Lexeme}
    (hts : ts = before ++ constWord :: after) :
    ∃ name rest, after = .word name :: rest ∧ allowed name := by
  -- up to the word nothing has to be known of the lexemes
  induction before generalizing ts with
  | nil =>
    subst hts
    have hbegins := h.1 rfl
    unfold BeginsWithName at hbegins
    split at hbegins
    · exact ⟨_, _, rfl, hbegins⟩
    · cases hbegins
  | cons t before ih =>
    subst hts
    exact ih h.2 rfl

end NamesConstants

/-! ## Pieces -/

/-- The fixed texts of the compiler name internal constants only. -/
theorem namesConstants_fragment : ∀ s ∈ fragments, NamesConstants IsInternal ((scan s).getD []) := by
  decide +kernel

/-- Names of a program are neither the word for constants nor the emitter's own. -/
theorem sanitize_not_reserved (s : String) :
    (sanitize s).toList ≠ ['c', 'o', 'n', 's', 't'] ∧ ¬IsInternal (sanitize s).toList := by
  have husable := isUsable_sanitize s
  refine ⟨fun heq => husable.unreserved ?_, husable.notInternal⟩
  rw [String.toList_inj.1 (heq.trans (by decide : _ = "const".toList))]
  decide

/-- A name that a program may declare as a constant of the emitted code. -/
def Names (K : String → Prop) (name : List Char) : Prop :=
  IsInternal name ∨ ∃ s, K s ∧ name = (sanitize s).toList

/-- A piece names no constant but its own. -/
theorem Piece.namesConstants {K : String → Prop} (p : Piece) (hK : ∀ s, p = .constant s → K s) :
    NamesConstants (Names K) p.lexemes := by
  have hone {cs : List Char} (h : cs ≠ ['c', 'o', 'n', 's', 't']) :
      NamesConstants (Names K) [.word cs] :=
    .of_forall_ne (List.forall_mem_singleton.2 fun heq => h (Lexeme.word.inj heq))
  -- internal names begin with `__`, and so are never the keyword
  have hinternal {cs : List Char} (h : IsInternal cs) : cs ≠ ['c', 'o', 'n', 's', 't'] := by
    rintro rfl
    exact absurd h (by decide)
  have hsubject (n : Nat) : IsInternal ("__s" ++ toString n).toList := by
    rw [String.toList_append]
    exact ⟨'s' :: (toString n).toList, rfl⟩
  cases p with
  | fixed s h => exact (namesConstants_fragment s h).mono fun _ => .inl
  | blank n | quoted s | placeholder s => exact .of_forall_ne (by simp [lexemes])
  | name s => exact hone (sanitize_not_reserved s).1
  | constant s =>
    exact ⟨fun _ => .inr ⟨s, hK s rfl, rfl⟩, hone (sanitize_not_reserved s).1⟩
  | number x =>
    obtain ⟨-, hplain⟩ := reads_plain fun _ => isPlain_of_mem_numberText (x := x)
    refine .of_forall_ne fun t ht heq => ?_
    have hconst := hplain t ht
    rw [heq] at hconst
    exact absurd hconst (by decide)
  | count n =>
    refine hone fun heq => ?_
    have hdigit : Char.isDigit 'c' = true := isDigit_of_mem_toString (n := n) (by rw [heq]; simp)
    exact absurd hdigit (by decide)
  | label n =>
    refine hone (hinternal ?_)
    rw [String.toList_append]
    exact ⟨'s' :: 'w' :: (toString n).toList, rfl⟩
  | subject n => exact hone (hinternal (hsubject n))
  | constantSubject n => exact ⟨fun _ => .inl (hsubject n), hone (hinternal (hsubject n))⟩

/-! ## Programs -/

/-- In the code of a program without reflection, every constant has a name of the emitter's own or
one that the program declares as a constant, imports, or takes for the items of a loop. -/
theorem constants_named {program : Node}
    (hreflect : ∀ args pos, ¬(Node.primitive .reflectExec args pos).OccursIn program) (cap : Nat) :
    ∃ ts, scan (compile (bare cap) program) = some ts ∧
      NamesConstants (Names fun s => ∃ m, m.OccursIn program ∧ s ∈ constantNames m) ts := by
  have hstatement {n : Node} (hn : n ∈ program.statements) : n.OccursIn program := by
    cases program with
    | program items => exact .child hn
    | block items => exact .of_executed hn
    | _ =>
      obtain rfl := List.mem_singleton.1 hn
      exact .self
  -- the emitted code is a row of pieces, and only one kind of piece declares a constant of the
  -- program
  obtain ⟨pieces, h⟩ := emitProgram_leads program
    (K := fun s => ∃ m, m.OccursIn program ∧ s ∈ constantNames m)
    (fun n hn m hm s hs => ⟨m, hm.trans (hstatement hn), hs⟩)
    (fun n hn s rest pos hocc => absurd (hocc.trans (hstatement hn)) (hreflect _ pos)) cap
  rw [compile_bare]
  exact ⟨_, h.reads.scan_eq, .flatMap fun p hp =>
    p.namesConstants fun s hs => h.constants s (hs ▸ hp)⟩

end BrailleScript.JavaScript

namespace BrailleScript

/-- The node neither declares a constant nor runs a source text. -/
def Node.isVariable : Node → Bool
  | .declare _ _ constant _ => !constant
  | .primitive .reflectExec _ _ => false
  | _ => true

/-- The node binds the name of a module or the variable of a loop over items. -/
def Node.isImportOrForEach : Node → Bool
  | .importModule .. | .forEach .. => true
  | _ => false

namespace JavaScript

/-- In the code of a program without constants and reflection, and without imports and loops over
items, every `const` is followed by a name of the emitter's own, which no name of a program is. -/
theorem names_stay_mutable {program : Node} (hvariable : program.All (·.isVariable = true))
    (hbinders : program.All (·.isImportOrForEach = false)) (cap : Nat) :
    ∃ ts, scan (compile (bare cap) program) = some ts ∧
      (∀ before after, ts = before ++ constWord :: after →
        ∃ name rest, after = .word name :: rest ∧ IsInternal name) ∧
      ∀ s, ¬IsInternal (sanitize s).toList := by
  have hreflect (args : List Node) (pos : Pos) :
      ¬(Node.primitive .reflectExec args pos).OccursIn program := fun hocc =>
    Bool.false_ne_true (hvariable _ hocc)
  obtain ⟨ts, hscan, hnames⟩ := constants_named hreflect cap
  have hinternal : ∀ name, Names (fun s => ∃ m, m.OccursIn program ∧ s ∈ constantNames m) name →
      IsInternal name := by
    -- a constant that the program names is excluded by one of the assumptions
    rintro name (hname | ⟨s, ⟨m, hocc, hs⟩, -⟩)
    · exact hname
    · have hv := hvariable m hocc
      have hb := hbinders m hocc
      cases m with
      | declare name value constant pos =>
        cases constant with
        | true => cases hv
        | false => cases hs
      | importModule | forEach => cases hb
      | _ => cases hs
  exact ⟨ts, hscan, fun _ _ => (hnames.mono hinternal).split, fun s => (sanitize_not_reserved s).2⟩

/-- A variable, declared twice, the name of a handler, and a switch, whose code declares a
constant. -/
def binder : Node :=
  .program
    [.declare "x" (some (.number 1)) false .start,
     .declare "x" none false .start,
     .tryCatch (.block []) (some "e") (.block []),
     .switch (.identifier "x" .start) [] none]

/-- A program with variables of all kinds is compiled with internal constants only. -/
theorem names_stay_mutable_binder :
    parse binder.written = .ok binder ∧ binder.All (·.isVariable = true) ∧
      binder.All (·.isImportOrForEach = false) ∧
      ∃ ts, scan (compile (bare 10) binder) = some ts ∧
        ∀ before after, ts = before ++ constWord :: after →
          ∃ name rest, after = .word name :: rest ∧ IsInternal name := by
  -- the conditions are looked up at every node
  have hvariable : binder.All (·.isVariable = true) :=
    .of_children rfl ⟨.of_children rfl (.of_children rfl trivial), .of_children rfl trivial,
      .of_children rfl ⟨.of_children rfl trivial, .of_children rfl trivial⟩,
      .of_children rfl (.of_children rfl trivial)⟩
  have hbinders : binder.All (·.isImportOrForEach = false) :=
    .of_children rfl ⟨.of_children rfl (.of_children rfl trivial), .of_children rfl trivial,
      .of_children rfl ⟨.of_children rfl trivial, .of_children rfl trivial⟩,
      .of_children rfl (.of_children rfl trivial)⟩
  obtain ⟨ts, hscan, hnames, -⟩ := names_stay_mutable hvariable hbinders 10
  exact ⟨rfl, hvariable, hbinders, ts, hscan, hnames⟩

/-- Assigns to the variable of a loop over items. -/
def countedLoop : Node :=
  let v := Node.identifier "v" .start
  .program [.forEach "v" (.array [.number 1])
    (.block [.assign v (.number 2) .start, .print [v]])]

/-- Loops over items are left out above for a reason: the machine runs an assignment to the variable
of this one, and the emitted code declares the variable as a constant. -/
theorem loop_variable_constant :
    parse countedLoop.written = .ok countedLoop ∧ countedLoop.All (·.isVariable = true) ∧
      ((Machine.fresh {} (.start "sample" {}) (.dryRun "small" 64) fun n => ⟨n⟩).execute 10
        countedLoop).2.output = #["2"] ∧
      ¬∃ ts, scan (compile (bare 10) countedLoop) = some ts ∧
        ∀ before after, ts = before ++ constWord :: after →
          ∃ name rest, after = .word name :: rest ∧ IsInternal name := by
  have hv : (Node.identifier "v" .start).All (·.isVariable = true) := .of_children rfl trivial
  have hnumber (x : Float) : (Node.number x).All (·.isVariable = true) := .of_children rfl trivial
  refine ⟨rfl, ?_, by decide +kernel, ?_⟩
  · exact .of_children rfl (.of_children rfl ⟨.of_children rfl (hnumber 1), .of_children rfl
      ⟨.of_children rfl ⟨hv, hnumber 2⟩, .of_children rfl hv⟩⟩)
  · rintro ⟨ts, hscan, hnames⟩
    -- the eleventh lexeme is the word, with the loop's variable behind it
    have hfound : ((scan (compile (bare 10) countedLoop)).getD []).drop 10 =
        constWord :: .word ['v'] :: ((scan (compile (bare 10) countedLoop)).getD []).drop 12 := by
      decide +kernel
    rw [hscan] at hfound
    obtain ⟨name, rest, heq, hname⟩ := hnames (ts.take 10) _
      ((List.take_append_drop 10 ts).symm.trans (congrArg (ts.take 10 ++ ·) hfound))
    cases heq
    exact absurd hname (by decide)

end JavaScript

end BrailleScript
