/-!
# Fields in key order

Named entries kept in increasing order of their keys, each key once.  `insert` puts an entry in
its place and replaces the one with the same key; lists built from `[]` by `insert` are in order.
-/

namespace BrailleScript

/-- Entries in increasing order of their keys. -/
abbrev Fields (α : Type) := List (String × α)

namespace Fields

variable {α β : Type}

/-- The entry with the given key. -/
def get? (key : String) : Fields α → Option α
  | [] => none
  | (k, v) :: rest => if k = key then some v else get? key rest

/-- Adds an entry, or replaces the entry with that key. -/
def insert (key : String) (value : α) : Fields α → Fields α
  | [] => [(key, value)]
  | (k, v) :: rest =>
    if key < k then (key, value) :: (k, v) :: rest
    else if k = key then (key, value) :: rest
    else (k, v) :: insert key value rest

/-- The entries of a list in key order; of two with one key the later stays. -/
def ofList (entries : List (String × α)) : Fields α :=
  entries.foldl (fun fields (k, v) => fields.insert k v) []

/-- The keys, in their order. -/
def keys (fields : Fields α) : List String :=
  fields.map Prod.fst

/-- The values, in the order of their keys. -/
def values (fields : Fields α) : List α :=
  fields.map Prod.snd

end Fields

end BrailleScript
