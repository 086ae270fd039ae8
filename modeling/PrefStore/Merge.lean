import PrefStore.Json.Basic

/-!
# Layering configuration trees

A tree of overrides is laid onto a base tree. A plain key replaces what the base holds, except
that an object laid onto an object is layered in turn. A key with a plus sign at one end edits
a list instead: in front it prepends items, behind it appends them. A key with a plus sign at
both ends does nothing, and neither does a null.
-/

namespace PrefStore

/-- What a key of an override asks for. -/
inductive KeyOperator where
  | set
  | prepend (base : String)
  | append (base : String)
  | inert
  deriving DecidableEq, Repr

/-- The operator that a key spells. -/
def KeyOperator.ofKey (key : String) : KeyOperator :=
  match decide (key.toList.head? = some '+'), decide (key.toList.getLast? = some '+') with
  | false, false => .set
  | true, false => .prepend (String.ofList (key.toList.drop 1))
  | false, true => .append (String.ofList key.toList.dropLast)
  | true, true => .inert

namespace Merge

/-- The fields of an object, in ascending key order. -/
abbrev Fields := List (String × Json)

/-- The items that an override contributes to a list: those of an array, or itself. -/
def operand : Json → List Json
  | .arr items => items
  | other => [other]

/-- The list that the base holds: nothing and null are empty, an array has its items, and
anything else is one item. -/
def asList : Option Json → List Json
  | none | some .null => []
  | some (.arr items) => items
  | some other => [other]

/-- Edits the list at a key, unless there are no items to add. -/
def editList (key : String) (items : List Json) (join : List Json → List Json → List Json)
    (into : Fields) : Fields :=
  if items.isEmpty then into
  else Assoc.insert key (.arr (join items (asList (Assoc.get? key into)))) into

/-- The fields of the object at a key, or none. -/
def objectAt (key : String) (into : Fields) : Fields :=
  match Assoc.get? key into with
  | some (.obj fields) => fields
  | _ => []

/-- Applies one override other than an object at its key. -/
def applyLeaf (key : String) (value : Json) (into : Fields) : Fields :=
  match KeyOperator.ofKey key with
  | .set => Assoc.insert key value into
  | .prepend base => editList base (operand value) (fun items list => items ++ list) into
  | .append base => editList base (operand value) (fun items list => list ++ items) into
  | .inert => into

mutual

/-- Applies one override. -/
def apply (key : String) : Json → Fields → Fields
  | .null, into => into
  | .obj fields, into =>
    match KeyOperator.ofKey key with
    | .set => Assoc.insert key (.obj (layer fields (objectAt key into))) into
    | _ => applyLeaf key (.obj fields) into
  | value, into => applyLeaf key value into

/-- Lays overrides onto a base, one after another. -/
def layer : Fields → Fields → Fields
  | [], into => into
  | (key, value) :: rest, into => layer rest (apply key value into)

end

/-- The bases after each of several layers. -/
def layers (into : Fields) : List Fields → List Fields
  | [] => []
  | overrides :: rest => layer overrides into :: layers (layer overrides into) rest

end Merge

end PrefStore
