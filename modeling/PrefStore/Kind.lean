import PrefStore.Json.Text

/-!
# Kinds of values

A preference has one of six kinds. A kind has a code and a name, both of which stand for it in
stored data, and a label that reports use. A tag in a document may be the code, any number
that truncates to it, or the name.
-/

namespace PrefStore

/-- The kinds, in the order of their codes. -/
inductive Kind where
  | boolean
  | float
  | int
  | long
  | string
  | stringSet
  deriving DecidableEq, Repr

namespace Kind

/-- Every kind, in code order. -/
def all : List Kind := [boolean, float, int, long, string, stringSet]

/-- The number that stands for the kind in stored data. -/
def code : Kind → Nat
  | boolean => 0
  | float => 1
  | int => 2
  | long => 3
  | string => 4
  | stringSet => 5

/-- The word that stands for the kind in documents. -/
def name : Kind → String
  | boolean => "BOOLEAN"
  | float => "FLOAT"
  | int => "INT"
  | long => "LONG"
  | string => "STRING"
  | stringSet => "STRING_SET"

/-- The word for the kind in reports about values. -/
def label : Kind → String
  | boolean => "Boolean"
  | float => "Float"
  | int => "Int"
  | long => "Long"
  | string => "String"
  | stringSet => "StringSet"

/-- The kind with a code. -/
def ofCode? (code : Int) : Option Kind := all.find? fun kind => kind.code = code

/-- The kind with a name. -/
def ofName? (name : String) : Option Kind := all.find? fun kind => kind.name = name

/-- The kind that a document's tag resolves to. -/
def ofTag? : Json → Option Kind
  | .num n => ofCode? n.truncate.toInt
  | .str name => ofName? name
  | _ => none

/-- A kind is found again under its code. -/
@[simp] theorem ofCode?_code (kind : Kind) : ofCode? kind.code = some kind := by
  cases kind <;> rfl

/-- A kind is found again under its name. -/
@[simp] theorem ofName?_name (kind : Kind) : ofName? kind.name = some kind := by
  cases kind <;> rfl

end Kind

end PrefStore
