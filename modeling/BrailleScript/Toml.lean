/-!
# TOML documents

Values with the places where they stand.  A table remembers how it came to be, because that
decides what may be added to it: a header opens a table once, tables implied by longer headers may
still be opened, and tables made by dotted keys are extended by dotted keys alone.
-/

namespace BrailleScript

/-- A range of characters of a document. -/
structure Span where
  start : Nat := 0
  stop : Nat := 0
  deriving Repr, DecidableEq

/-- How a table came to be. -/
inductive TableOrigin where
  | header | implied | dotted | inlined
  deriving Repr, DecidableEq

/-- A TOML value with its place in the document. -/
inductive Toml where
  | text (s : String) (span : Span)
  | int (n : Int) (span : Span)
  | float (x : Float) (span : Span)
  | bool (b : Bool) (span : Span)
  /-- A date, a time or both, as it is written. -/
  | time (raw : String) (span : Span)
  | array (items : List Toml) (span : Span)
  | table (origin : TableOrigin) (entries : List (String × Toml)) (span : Span)
  /-- Tables under one header in double brackets. -/
  | tables (items : List Toml) (span : Span)
  deriving Repr

/-- What is wrong with a document. -/
inductive TomlFault where
  /-- A construct that breaks off, and what could have come next. -/
  | broken (construct : Option String) (wanted : List String)
  /-- A key is given twice, in the table with this path if that is known. -/
  | duplicateKey (key : String) (table : Option (List String))
  | notTable (path : List String) (found : String)
  | outOfRange
  | tooLarge
  | tooDeep
  /-- A fault inside of a construct. -/
  | within (construct : String) (inner : TomlFault)
  /-- A value that is not what it should be. -/
  | refused (message : String)
  deriving Repr, DecidableEq

/-- The words for a fault. -/
def TomlFault.message : TomlFault → String
  | broken construct wanted =>
    let first := construct.toList.map ("invalid " ++ ·)
    let second := if wanted.isEmpty then [] else ["expected " ++ ", ".intercalate wanted]
    "\n".intercalate (first ++ second)
  | duplicateKey key none => "duplicate key `" ++ key ++ "`"
  | duplicateKey key (some []) => "duplicate key `" ++ key ++ "` in document root"
  | duplicateKey key (some path) =>
    "duplicate key `" ++ key ++ "` in table `" ++ ".".intercalate path ++ "`"
  | notTable path found =>
    "dotted key `" ++ ".".intercalate path ++ "` attempted to extend non-table type (" ++ found ++ ")"
  | outOfRange => "value is out of range"
  | tooLarge => "number too large to fit in target type"
  | tooDeep => "recursion limit exceeded"
  | within construct inner => "invalid " ++ construct ++ "\n" ++ inner.message
  | refused message => message

/-- A fault with its place in the document. -/
structure TomlError where
  fault : TomlFault
  span : Span
  deriving Repr, DecidableEq

namespace Toml

/-- The place of a value. -/
def span : Toml → Span
  | text _ s | int _ s | float _ s | bool _ s | time _ s | array _ s | table _ _ s | tables _ s => s

/-- What a fault calls the kind of a value. -/
def typeName : Toml → String
  | text .. => "string"
  | int .. => "integer"
  | float .. => "float"
  | bool .. => "boolean"
  | time .. => "datetime"
  | array .. => "array"
  | table .inlined .. => "inline table"
  | table .. => "table"
  | tables .. => "array of tables"

/-- A key and its place. -/
structure Key where
  name : String
  span : Span
  deriving Repr, DecidableEq

/-- The entries of a table, in the order of the document. -/
abbrev Entries := List (String × Toml)

/-- Replaces the value of a key that is present. -/
def replace (key : String) (v : Toml) (entries : Entries) : Entries :=
  entries.map fun (k, old) => if k = key then (k, v) else (k, old)

/-- Changes the last of some tables. -/
def changeLast (f : Entries → Except TomlFault Entries) : List Toml → Except TomlFault (List Toml)
  | [] => .ok []
  | [table origin inner s] => do
    let inner ← f inner
    return [table origin inner s]
  | t :: rest => do
    let rest ← changeLast f rest
    return t :: rest

/-- Adds a key under what is left of a dotted path; `above` is the part of the path before it, and
`known` the path of the table in which all this happens, if a fault tells it.  The tables on the
path must not have been opened by a header, and the last of them must belong to dotted keys. -/
def addDotted (known : Option (List String)) (key : String) (v : Toml) (above : List String) :
    (path : List Key) → Entries → Except TomlFault Entries
  | [], entries =>
    if (entries.lookup key).isSome then .error (.duplicateKey key known)
    else .ok (entries ++ [(key, v)])
  | p :: path, entries =>
    match entries.lookup p.name with
    | none => do
      let inner ← addDotted known key v (above ++ [p.name]) path []
      return entries ++ [(p.name, table .dotted inner p.span)]
    -- inline tables are closed; the fault tells whether the key stands in another one
    | some (table .inlined _ _) =>
      if known.isSome then .error (.notTable (above ++ [p.name]) "inline table")
      else .error (.duplicateKey p.name none)
    | some (table .header _ _) => .error (.duplicateKey p.name none)
    -- a table that a header implies is passed through but takes no entry
    | some (table .implied inner s) =>
      if path.isEmpty then .error (.duplicateKey key none)
      else do
        let inner ← addDotted known key v (above ++ [p.name]) path inner
        return replace p.name (table .implied inner s) entries
    | some (table .dotted inner s) => do
      let inner ← addDotted known key v (above ++ [p.name]) path inner
      return replace p.name (table .dotted inner s) entries
    | some (tables items s) =>
      if path.isEmpty then .error (.duplicateKey key none)
      else do
        let items ← changeLast (addDotted known key v (above ++ [p.name]) path) items
        return replace p.name (tables items s) entries
    | some other => .error (.notTable (above ++ [p.name]) other.typeName)

/-- Goes down a path, implying tables that are missing, and changes the entries at its end;
`above` is the part of the path that was gone already. -/
def underPath (f : Entries → Except TomlFault Entries) (above : List String) :
    (path : List Key) → Entries → Except TomlFault Entries
  | [], entries => f entries
  | p :: path, entries =>
    match entries.lookup p.name with
    | none => do
      let inner ← underPath f (above ++ [p.name]) path []
      return entries ++ [(p.name, table .implied inner p.span)]
    -- an inline table is complete and cannot be extended
    | some (table .inlined _ _) => .error (.notTable (above ++ [p.name]) "inline table")
    | some (table origin inner s) => do
      let inner ← underPath f (above ++ [p.name]) path inner
      return replace p.name (table origin inner s) entries
    -- of an array of tables the last one is meant
    | some (tables items s) => do
      let items ← changeLast (underPath f (above ++ [p.name]) path) items
      return replace p.name (tables items s) entries
    | some other => .error (.notTable (above ++ [p.name]) other.typeName)

/-- Opens the table of a header. -/
def openTable (s : Span) (path : List String) (key : String) (entries : Entries) :
    Except TomlFault Entries :=
  match entries.lookup key with
  | none => .ok (entries ++ [(key, table .header [] s)])
  | some (table .implied inner _) =>
    -- the table moves to the place of its own header
    .ok (entries.filter (·.1 != key) ++ [(key, table .header inner s)])
  | some _ => .error (.duplicateKey key (some path))

/-- Adds a table to those of a header in double brackets. -/
def appendTable (s : Span) (path : List String) (key : String) (entries : Entries) :
    Except TomlFault Entries :=
  match entries.lookup key with
  | none => .ok (entries ++ [(key, tables [table .header [] s] s)])
  | some (tables items _) => .ok (replace key (tables (items ++ [table .header [] s]) s) entries)
  | some _ => .error (.duplicateKey key (some path))

end Toml

end BrailleScript
