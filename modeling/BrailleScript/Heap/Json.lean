import BrailleScript.Heap.Text

/-!
# Values and JSON

`toJson` writes a value as JSON: data as it is, instances as their fields, callables as their text.
A container that contains itself has no JSON form.  `ofJson` makes new containers for the arrays
and objects of a JSON value.
-/

namespace BrailleScript.Heap

/-- The JSON form of a value inside the containers `within`. -/
def jsonWithin (h : Heap) : (depth : Nat) → (within : List Container) → Value → Except Cause Json
  | _, _, .null => .ok .null
  | _, _, .bool b => .ok (.bool b)
  | _, _, .number x => .ok (Number.toJson x)
  | _, _, .text s => .ok (.text s)
  | depth + 1, within, .array ref =>
    if .array ref ∈ within then .error (.selfContaining .serialize)
    else
      ((h.items ref).toList.mapM (jsonWithin h depth (.array ref :: within))).map .array
  | depth + 1, within, .map ref =>
    if .map ref ∈ within then .error (.selfContaining .serialize)
    else
      ((h.entries ref).mapM fun ((k, v) : String × Value) =>
        (jsonWithin h depth (.map ref :: within) v).map (k, ·)).map .object
  | depth + 1, within, .object ref _ =>
    if .object ref ∈ within then .error (.selfContaining .serialize)
    else
      ((h.fields ref).mapM fun ((k, v) : String × Value) =>
        (jsonWithin h depth (.object ref :: within) v).map (k, ·)).map .object
  -- not met from `toJson`: no walk is that deep without meeting a container again
  | 0, _, .array _ | 0, _, .map _ | 0, _, .object .. => .error (.selfContaining .serialize)
  | _, _, v => .ok (.text v.plainText)

/-- The JSON form of a value. -/
def toJson (h : Heap) (v : Value) : Except Cause Json :=
  h.jsonWithin (h.size + 1) [] v

mutual

/-- A value for a JSON value, in new containers. -/
def ofJson (h : Heap) : Json → Value × Heap
  | .null => (.null, h)
  | .bool b => (.bool b, h)
  | .int n => (.number (Number.ofInt n), h)
  | .float x => (.number x, h)
  | .text s => (.text s, h)
  | .array items =>
    let (values, h) := ofJsonItems h items
    h.newArray values.toArray
  | .object fields =>
    let (entries, h) := ofJsonFields h fields
    h.newMap (Fields.ofList entries)

/-- Values for the items of an array, one after the other. -/
def ofJsonItems (h : Heap) : List Json → List Value × Heap
  | [] => ([], h)
  | j :: rest =>
    let (v, h) := ofJson h j
    let (values, h) := ofJsonItems h rest
    (v :: values, h)

/-- Values for the fields of an object, one after the other. -/
def ofJsonFields (h : Heap) : List (String × Json) → List (String × Value) × Heap
  | [] => ([], h)
  | (k, j) :: rest =>
    let (v, h) := ofJson h j
    let (entries, h) := ofJsonFields h rest
    ((k, v) :: entries, h)

end

end BrailleScript.Heap
