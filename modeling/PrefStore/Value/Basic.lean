import PrefStore.Kind

/-!
# Preference values

A value carries its kind. Values agree (`Value.same`) when they have one kind and equal
contents, floats being compared by value; a NaN therefore agrees with nothing, and the two
zeros agree though they are different values. Only finite floats can be stored.
-/

namespace PrefStore

/-- A stored preference. -/
inductive Value where
  | boolean (b : Bool)
  | float (x : Single)
  | int (i : Int32)
  | long (i : Int64)
  | string (s : String)
  | stringSet (s : StringSet)
  deriving DecidableEq

/-- Why a value is refused. -/
inductive ValueError where
  /-- A tag, given by its text, names no kind. -/
  | unknownKind (tag : String)
  /-- A value of one kind was wanted and something of another shape was found. -/
  | mismatch (expected : Kind) (found : String)
  /-- A number, given by its text, does not fit its kind. -/
  | outOfRange (kind : Kind) (text : String)
  /-- The float is not a number or is infinite. -/
  | nonFinite (x : Single)
  deriving DecidableEq

/-- The report of a refused value. -/
def ValueError.message : ValueError → String
  | unknownKind tag => "unknown value type tag: " ++ tag
  | mismatch expected found => "expected " ++ expected.label ++ " value, got " ++ found
  | outOfRange kind text => kind.label ++ " value is out of range: " ++ text
  | nonFinite x => "non-finite float: " ++ Numerals.plain.text x

namespace Value

/-- The kind of a value. -/
def kind : Value → Kind
  | boolean _ => .boolean
  | float _ => .float
  | int _ => .int
  | long _ => .long
  | string _ => .string
  | stringSet _ => .stringSet

/-- Comparison of values; floats are compared by value. -/
def same : Value → Value → Bool
  | float x, float y => x.same y
  | a, b => a = b

/-- Every value can be stored except a float that is not finite. -/
def storable : Value → Bool
  | float x => x.isFinite
  | _ => true

/-- Refuses what cannot be stored. -/
def validate : Value → Except ValueError Unit
  | float x => if x.isFinite then .ok () else .error (.nonFinite x)
  | _ => .ok ()

/-- Validation succeeds on the storable values and on no other. -/
theorem validate_eq_ok_iff {v : Value} : v.validate = .ok () ↔ v.storable = true := by
  cases v <;> simp [validate, storable]

/-- A storable value agrees with itself. -/
theorem same_self_of_storable {v : Value} (h : v.storable = true) : v.same v = true := by
  cases v <;> simp_all [same, storable, Binary.same_self_of_isFinite]

/-- A value read as a kind. The two kinds of integers read as each other where the value
fits; between any other two kinds nothing can be read. -/
def readAs : Kind → Value → Option Value
  | .int, long i => (int32? i.toInt).map int
  | .long, int i => some (long i.toInt64)
  | kind, v => if v.kind = kind then some v else none

/-- A value reads as its own kind. -/
@[simp] theorem readAs_kind (v : Value) : v.readAs v.kind = some v := by
  cases v <;> rfl

/-- What is read as a kind has it. -/
theorem kind_of_readAs {kind : Kind} {v w : Value} (h : v.readAs kind = some w) :
    w.kind = kind := by
  cases v <;> cases kind <;> simp [readAs, Value.kind] at h <;>
    first
      | (subst h; rfl)
      | (obtain ⟨_, _, rfl⟩ := h; rfl)

/-- The value as a reader sees it. -/
def display : Value → String
  | boolean b => if b then "true" else "false"
  | float x => Numerals.plain.text x
  | int i => toString i.toInt
  | long i => toString i.toInt
  | string s => s
  | stringSet s => "[" ++ String.intercalate ", " s.items ++ "]"

end Value

end PrefStore
