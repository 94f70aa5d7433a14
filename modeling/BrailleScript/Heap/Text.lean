import BrailleScript.Heap

/-!
# The text of a value

What `print` shows.  A container that is reached again while it is being written shows as an
ellipsis.  `within` gives the containers being written, innermost first; they are distinct, so the
number of containers bounds how deep the walk can go.
-/

namespace BrailleScript

/-- The text of a value that is no array and no map. -/
def Value.plainText : Value → String
  | .null => "null"
  | .bool b => if b then "true" else "false"
  | .number x => Number.text x
  | .text s => s
  | .function _ closure => "<fn " ++ closure.definition.displayName ++ ">"
  | .builtin b => "<builtin:" ++ b.name ++ ">"
  | .classValue c => "<class " ++ c.name ++ ">"
  | .object _ c => "<" ++ c.name ++ " instance>"
  | .array _ => "[...]"
  | .map _ => "\x7b...\x7d"

namespace Heap

/-- Writes a value inside the containers `within`, at most `depth` containers deeper. -/
def textWithin (h : Heap) : (depth : Nat) → (within : List Container) → Value → String
  | depth + 1, within, .array ref =>
    -- inside itself a container is an ellipsis
    if .array ref ∈ within then Value.plainText (.array ref)
    else
      "[" ++ ", ".intercalate
        ((h.items ref).toList.map (textWithin h depth (.array ref :: within))) ++ "]"
  | depth + 1, within, .map ref =>
    if .map ref ∈ within then Value.plainText (.map ref)
    else
      "\x7b" ++ ", ".intercalate
        ((h.entries ref).map fun (k, v) => k ++ ": " ++ textWithin h depth (.map ref :: within) v)
        ++ "\x7d"
  | _, _, v => v.plainText

/-- The text of a value. -/
def text (h : Heap) (v : Value) : String :=
  h.textWithin (h.size + 1) [] v

/-- Whether writing a value looks into the container `target`. -/
def readsWithin (h : Heap) (target : Container) :
    (depth : Nat) → (within : List Container) → Value → Bool
  | depth + 1, within, .array ref =>
    .array ref ∉ within && (target == .array ref ||
      (h.items ref).toList.any (readsWithin h target depth (.array ref :: within)))
  | depth + 1, within, .map ref =>
    .map ref ∉ within && (target == .map ref ||
      (h.entries ref).values.any (readsWithin h target depth (.map ref :: within)))
  | _, _, _ => false

/-- Whether `text` looks into the container `target`. -/
def textReads (h : Heap) (target : Container) (v : Value) : Bool :=
  h.readsWithin target (h.size + 1) [] v

end Heap

end BrailleScript
