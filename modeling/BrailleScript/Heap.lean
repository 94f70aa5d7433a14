import BrailleScript.Value

/-!
# The heap

The arrays, maps and instance fields of a run.  A store only grows, so a reference stays valid;
an update through a reference changes that one container and no other.
-/

namespace BrailleScript

/-- The containers that a program has made, each of which is known by its place. -/
structure Heap where
  arrays : Array (Array Value) := #[]
  maps : Array (Fields Value) := #[]
  objects : Array (Fields Value) := #[]
  /-- How many functions and classes were made; it numbers the next one. -/
  made : Nat := 0

instance : Inhabited Heap := ⟨{}⟩

/-- The identity of something that holds values. -/
inductive Container where
  | array (ref : Nat)
  | map (ref : Nat)
  | object (ref : Nat)
  deriving Repr, DecidableEq

/-- The container that a value refers to. -/
def Value.container? : Value → Option Container
  | .array ref => some (.array ref)
  | .map ref => some (.map ref)
  | .object ref _ => some (.object ref)
  | _ => none

namespace Heap

/-! ## Reading -/

/-- The items of an array. -/
def items (h : Heap) (ref : Nat) : Array Value :=
  h.arrays[ref]?.getD #[]

/-- The entries of a map. -/
def entries (h : Heap) (ref : Nat) : Fields Value :=
  h.maps[ref]?.getD []

/-- The fields of an object. -/
def fields (h : Heap) (ref : Nat) : Fields Value :=
  h.objects[ref]?.getD []

/-- How many containers there are; no path of distinct containers is longer. -/
def size (h : Heap) : Nat :=
  h.arrays.size + h.maps.size + h.objects.size

/-- The values directly inside a container. -/
def contents (h : Heap) : Container → List Value
  | .array ref => (h.items ref).toList
  | .map ref => (h.entries ref).values
  | .object ref => (h.fields ref).values

/-- Whether a value counts as true. -/
def truthy (h : Heap) : Value → Bool
  | .null => false
  | .bool b => b
  | .number x => x != 0
  | .text s => !s.isEmpty
  | .array ref => !(h.items ref).isEmpty
  | .map ref => !(h.entries ref).isEmpty
  | .function .. | .builtin _ | .classValue _ | .object .. => true

/-! ## Making -/

/-- A new array behind all others. -/
def newArray (h : Heap) (items : Array Value) : Value × Heap :=
  (.array h.arrays.size, { h with arrays := h.arrays.push items })

/-- A new map behind all others. -/
def newMap (h : Heap) (entries : Fields Value) : Value × Heap :=
  (.map h.maps.size, { h with maps := h.maps.push entries })

/-- A new object without fields. -/
def newInstance (h : Heap) : Nat × Heap :=
  (h.objects.size, { h with objects := h.objects.push [] })

/-- A function with the next number. -/
def newFunction (h : Heap) (closure : Closure) : Value × Heap :=
  (.function h.made closure, { h with made := h.made + 1 })

/-! ## Changing -/

/-- Adds an item at the end of an array. -/
def pushItem (h : Heap) (ref : Nat) (v : Value) : Heap :=
  { h with arrays := h.arrays.modify ref (·.push v) }

/-- Replaces the item at an index. -/
def setItem (h : Heap) (ref index : Nat) (v : Value) : Heap :=
  { h with arrays := h.arrays.modify ref (·.setIfInBounds index v) }

/-- Sets the entry of a key. -/
def setEntry (h : Heap) (ref : Nat) (key : String) (v : Value) : Heap :=
  { h with maps := h.maps.modify ref (·.insert key v) }

/-- Sets a field of an object. -/
def setField (h : Heap) (ref : Nat) (name : String) (v : Value) : Heap :=
  { h with objects := h.objects.modify ref (·.insert name v) }

/-! ## Laws -/

/-- Changing a container makes none. -/
@[simp] theorem size_pushItem (h : Heap) (ref : Nat) (v : Value) :
    (h.pushItem ref v).size = h.size := by
  simp [size, pushItem]

/-- Nor does replacing an item. -/
@[simp] theorem size_setItem (h : Heap) (ref index : Nat) (v : Value) :
    (h.setItem ref index v).size = h.size := by
  simp [size, setItem]

/-- Nor does setting an entry. -/
@[simp] theorem size_setEntry (h : Heap) (ref : Nat) (key : String) (v : Value) :
    (h.setEntry ref key v).size = h.size := by
  simp [size, setEntry]

/-- Nor does setting a field. -/
@[simp] theorem size_setField (h : Heap) (ref : Nat) (name : String) (v : Value) :
    (h.setField ref name v).size = h.size := by
  simp [size, setField]

end Heap

end BrailleScript
