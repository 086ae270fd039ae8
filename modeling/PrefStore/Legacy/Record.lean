import PrefStore.Error
import PrefStore.Number.Numeral

/-!
# Legacy records

A legacy record declares a type by code and has one optional column for each type of value.
Integers of both widths live in one column and are read as longs. A record decodes to the
value in the column of its declared type, whatever the other columns hold.
-/

namespace PrefStore

/-- A record of the legacy table. -/
structure LegacyRecord where
  key : String
  typeCode : Int64
  boolean : Option Bool := none
  float : Option Single := none
  long : Option Int64 := none
  string : Option String := none
  stringSet : Option StringSet := none
  deriving DecidableEq

namespace LegacyRecord

/-- The record that holds a value in the column of its kind. -/
def ofValue (key : String) (value : Value) : LegacyRecord :=
  let record : LegacyRecord := { key, typeCode := Int64.ofNat value.kind.code }
  match value with
  | .boolean b => { record with boolean := some b }
  | .float x => { record with float := some x }
  | .int i => { record with long := some i.toInt64 }
  | .long i => { record with long := some i }
  | .string s => { record with string := some s }
  | .stringSet s => { record with stringSet := some s }

/-- The declared kind, both kinds of integers being longs. -/
def kind (r : LegacyRecord) : Except ImportError Kind :=
  match Kind.ofCode? r.typeCode.toInt with
  | some .int => .ok .long
  | some kind => .ok kind
  | none => .error (.unknownLegacyType r.key r.typeCode)

/-- The value in the column of a kind. -/
def column (r : LegacyRecord) : Kind → Option Value
  | .boolean => r.boolean.map .boolean
  | .float => r.float.map .float
  | .int | .long => r.long.map .long
  | .string => r.string.map .string
  | .stringSet => r.stringSet.map .stringSet

/-- The value of the declared type. -/
def decode (r : LegacyRecord) : Except ImportError Value := do
  let kind ← r.kind
  match r.column kind with
  | some value => .ok value
  | none => .error (.missingLegacyValue r.key kind)

/-- The value of the declared type, where the strings of certain keys are read as longs. -/
def valueWith (r : LegacyRecord) (stringToLong : StringSet) : Except ImportError Value := do
  match ← r.decode with
  | .string s =>
    if stringToLong.contains r.key then
      match readInt64? s with
      | some i => .ok (.long i)
      | none => .error (.notALong r.key s)
    else .ok (.string s)
  | value => .ok value

end LegacyRecord

end PrefStore
