import BrailleScript.Machine

/-!
# Members and items

Reading and writing the parts of values.
-/

namespace BrailleScript.Run

/-- The function of a method taken from an object. -/
def bindMethod (receiver : Nat) (receiverClass : Class) (method : FunctionDef Node) (owner : Class) :
    Closure :=
  ⟨method, owner.scope, some ⟨receiver, receiverClass, owner⟩⟩

/-- A place of an array of the given size. -/
def slot? (x : Float) (size : Nat) : Option Nat :=
  if Decimal.isIntegral x && 0 ≤ x && (Decimal.truncate x).toNat < size then
    some (Decimal.truncate x).toNat
  else none

/-- The member of a value with a name. -/
def member (v : Value) (name : String) : Run Value := do
  let heap := (← get).heap
  match v with
  | .object ref c =>
    match (heap.fields ref).get? name with
    | some field => return field
    | none =>
      match c.findMethod name with
      | some (method, owner) => newFunction (bindMethod ref c method owner)
      | none => fail (.noMember c.name name)
  -- maps have every member; one without an entry is `null`
  | .map ref => return ((heap.entries ref).get? name).getD .null
  | .array ref =>
    if name = "length" then return .number (Float.ofNat (heap.items ref).size)
    else fail (.lacksMember v.type name)
  | .text s =>
    if name = "length" then return .number (Float.ofNat s.length)
    else fail (.lacksMember v.type name)
  | _ => fail (.lacksMember v.type name)

/-- The item of a value at an index. -/
def item (v index : Value) : Run Value := do
  let heap := (← get).heap
  match v, index with
  | .array ref, .number x =>
    let items := heap.items ref
    return ((slot? x items.size).bind (items[·]?)).getD .null
  | .text s, .number x =>
    -- texts are counted in characters, not in bytes
    let cs := s.toList
    return match (slot? x cs.length).bind (cs[·]?) with
      | some c => .text (String.singleton c)
      | none => .null
  | .map ref, key => return ((heap.entries ref).get? (heap.text key)).getD .null
  | .object ref _, .text name => return ((heap.fields ref).get? name).getD .null
  | _, _ => fail (.cannotIndex v.type index.type)

/-- Writes a member of an object or map. -/
def setMember (object : Value) (name : String) (v : Value) : Run Unit :=
  match object with
  | .object ref _ => update (·.setField ref name v)
  | .map ref => update (·.setEntry ref name v)
  | _ => fail (.cannotSetMember name object.type)

/-- Writes an item of an array or map.  The map is held while the text of the key is made, so a key
whose text shows the map is in conflict with it. -/
def setItem (object index v : Value) : Run Unit := do
  match object, index with
  | .array ref, .number x =>
    let size := ((← get).heap.items ref).size
    match slot? x size with
    | some i => update (·.setItem ref i v)
    | none => fail (.outOfRange (Number.text x) size)
  | .map ref, key =>
    let heap := (← get).heap
    -- the map is borrowed here, so its text cannot be made
    if heap.textReads (.map ref) key then throw Stop.conflict
    else
      let name := heap.text key
      update (·.setEntry ref name v)
  | _, _ => fail (.cannotIndexAssign object.type index.type)

/-- The method that a class above the current method's class gives to a name. -/
def superMethod (name : String) : Run Value := do
  match ← currentBinding with
  | none => fail .superOutside
  | some b =>
    match b.owner.parent with
    | none => fail (.noParent b.owner.name)
    | some parent =>
      match parent.findMethod name with
      -- the receiver stays the same, and `super` inside that method goes on from the class that has
      -- it
      | some (method, owner) => newFunction (bindMethod b.receiver b.receiverClass method owner)
      | none => fail (.noMethodAbove name b.owner.name)

/-- What a loop over a value goes through. -/
def iterationItems (v : Value) : Run (List Value) := do
  let heap := (← get).heap
  match v with
  | .array ref => return (heap.items ref).toList
  | .map ref => (heap.entries ref).mapM fun (k, v) => newArray #[.text k, v]
  | .text s => return s.toList.map fun c => .text (String.singleton c)
  -- other values have nothing to go through
  | _ => return []

end BrailleScript.Run
