import PrefStore.Dict
import PrefStore.Number.Word

/-!
# JSON trees

A number is an integer of 64 bits, signed or not, or a finite floating-point number; `2` and
`2.0` are different numbers. The fields of an object are a list of pairs. A tree read from a
text has its fields in ascending key order at every depth, which `Json.Tidy` states.
-/

namespace PrefStore

/-- A number of a JSON tree. -/
inductive JsonNumber where
  | int (i : Int) (fits : int64Least ≤ i ∧ i ≤ uint64Most)
  | real (x : Double) (finite : x.isFinite = true)
  deriving DecidableEq

namespace JsonNumber

/-- The number of a 64-bit word. -/
def ofInt64 (w : Int64) : JsonNumber :=
  .int w.toInt (by
    have low := w.le_toInt
    have high := w.toInt_lt
    unfold int64Least uint64Most
    omega)

/-- The number of a 32-bit word. -/
def ofInt32 (w : Int32) : JsonNumber :=
  .int w.toInt (by
    have low := w.le_toInt
    have high := w.toInt_lt
    unfold int64Least uint64Most
    omega)

/-- The 64-bit word of an integer that fits; a number with a point is none. -/
def toInt64? : JsonNumber → Option Int64
  | int i _ => int64? i
  | real .. => none

/-- The number in 64-bit floating point. -/
def toDouble : JsonNumber → Double
  | int i _ => Binary.ofInt .double i
  | real x _ => x

/-- The integer part, toward zero and stopped at the ends of the 64-bit range. -/
def truncate : JsonNumber → Int64
  | int i _ => int64Nearest i
  | real x _ => x.toInt64

end JsonNumber

/-- A JSON tree. -/
inductive Json where
  | null
  | bool (b : Bool)
  | num (n : JsonNumber)
  | str (s : String)
  | arr (items : List Json)
  | obj (fields : List (String × Json))

namespace Json

instance : Inhabited Json := ⟨null⟩

/-- The tree of an integer of at most 63 bits. -/
def ofInt64 (w : Int64) : Json := .num (.ofInt64 w)

/-- The tree of a list of strings. -/
def ofStrings (items : List String) : Json := .arr (items.map .str)

/-- What a tree is called in a report about its shape. -/
def shape : Json → String
  | null => "null"
  | bool _ => "boolean"
  | num (.real ..) => "float"
  | num (.int ..) => "integer"
  | str _ => "string"
  | arr _ => "array"
  | obj _ => "object"

/-- The strings of an array that holds nothing else. -/
def strings? : Json → Option (List String)
  | arr items => items.mapM fun
    | str s => some s
    | _ => none
  | _ => none

mutual

/-- Fields ascend in every object of the tree. -/
def Tidy : Json → Prop
  | arr items => TidyItems items
  | obj fields => Assoc.Ascending fields ∧ TidyFields fields
  | _ => True

/-- Every item of an array is tidy. -/
def TidyItems : List Json → Prop
  | [] => True
  | item :: rest => Tidy item ∧ TidyItems rest

/-- Every value of an object is tidy. -/
def TidyFields : List (String × Json) → Prop
  | [] => True
  | (_, value) :: rest => Tidy value ∧ TidyFields rest

end

end Json

end PrefStore
