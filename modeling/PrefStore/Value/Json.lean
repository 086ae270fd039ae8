import PrefStore.Value.Basic

/-!
# Values in JSON

A value is written as the tree of its kind: a float as the 64-bit number of the same value, a
set as the array of its members. Reading takes the kind from elsewhere and is strict: the tree
must have the shape of the kind, an integer must fit, and a float must still be finite after it
was rounded to 32 bits.
-/

namespace PrefStore.Value

/-- The tree of a number, or null where the number is not finite. -/
def floatJson (x : Double) : Json :=
  if finite : x.isFinite = true then .num (.real x finite) else .null

/-- The tree of a value. -/
def toJson : Value → Json
  | boolean b => .bool b
  | float x => floatJson x.widen
  | int i => .num (.ofInt32 i)
  | long i => .num (.ofInt64 i)
  | string s => .str s
  | stringSet s => .ofStrings s.items

/-- Reads a tree as a value of the given kind. -/
def ofJson (kind : Kind) (json : Json) : Except ValueError Value :=
  let mismatch := Except.error (.mismatch kind json.shape)
  match kind, json with
  | .boolean, .bool b => .ok (boolean b)
  | .float, .num n =>
    let x := n.toDouble.narrow
    if x.isFinite then .ok (float x) else .error (.outOfRange kind json.text)
  | .int, .num n =>
    match n.toInt64? with
    | none => mismatch
    | some i =>
      match int32? i.toInt with
      | none => .error (.outOfRange kind (toString i.toInt))
      | some i => .ok (int i)
  | .long, .num n =>
    match n.toInt64? with
    | none => mismatch
    | some i => .ok (long i)
  | .string, .str s => .ok (string s)
  | .stringSet, .arr _ =>
    match json.strings? with
    | none => mismatch
    | some items => .ok (stringSet (StringSet.ofList items))
  | _, _ => mismatch

end PrefStore.Value
