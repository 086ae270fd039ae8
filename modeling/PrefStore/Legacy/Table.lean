import PrefStore.Database.Cell
import PrefStore.Json.Read
import PrefStore.Json.Text
import PrefStore.Legacy.Record

/-!
# The legacy table

A row of the legacy table has a cell for the key, one for the type code and one for each type
of value; a set of strings is stored as JSON text. A table made for records holds one row for
each key, a replaced row moving to the end; a table made by others may hold anything. Reading
answers for each row on its own.
-/

namespace PrefStore

/-- A row of the legacy table. -/
structure LegacyRow where
  key : Cell
  typeCode : Cell
  boolean : Cell
  float : Cell
  long : Cell
  string : Cell
  stringSet : Cell
  deriving DecidableEq

namespace LegacyRow

/-- The row of a record. -/
def ofRecord (r : LegacyRecord) : LegacyRow where
  key := .text r.key
  typeCode := .int r.typeCode
  boolean := (r.boolean.map fun b => Cell.int (if b then 1 else 0)).getD .null
  float := (r.float.map fun x => (Cell.real x.widen).stored).getD .null
  long := (r.long.map Cell.int).getD .null
  string := (r.string.map Cell.text).getD .null
  stringSet := (r.stringSet.map fun s => Cell.text (Json.ofStrings s.items).text).getD .null

/-- What a table made for records stores of a row. -/
def inColumns (row : LegacyRow) : LegacyRow := { row with float := row.float.inRealColumn }

/-- An integer, or nothing. -/
def readLong : Cell → Except ImportError (Option Int64)
  | .null => .ok none
  | .int i => .ok (some i)
  | _ => .error .legacy

/-- A number, rounded to 64 bits and then to 32, or nothing. -/
def readFloat : Cell → Except ImportError (Option Single)
  | .null => .ok none
  | .int i => .ok (some (Binary.ofInt .double i.toInt).narrow)
  | .real x => .ok (some x.narrow)
  | _ => .error .legacy

/-- A text, or nothing. -/
def readText : Cell → Except ImportError (Option String)
  | .null => .ok none
  | .text s => .ok (some s)
  | _ => .error .legacy

/-- The set that a JSON text spells. -/
def readStringSet (text : String) : Except ImportError StringSet :=
  match (Json.read? text).bind Json.strings? with
  | some items => .ok (StringSet.ofList items)
  | none => .error .json

/-- Reads a row. A cell of the wrong class is found before a text that spells no set. -/
def record (row : LegacyRow) : Except ImportError LegacyRecord := do
  let some key ← readText row.key | throw .legacy
  let some typeCode ← readLong row.typeCode | throw .legacy
  let boolean ← readLong row.boolean
  let float ← readFloat row.float
  let long ← readLong row.long
  let string ← readText row.string
  let stringSet ← match ← readText row.stringSet with
    | none => pure none
    | some text => some <$> readStringSet text
  return {
    key, typeCode, float, long, string, stringSet
    boolean := boolean.map fun i => i ≠ 0 }

end LegacyRow

/-- The legacy table. -/
structure LegacyTable where
  /-- Whether the table was made for records, with a row for each key. -/
  keyed : Bool
  rows : List LegacyRow
  deriving DecidableEq

namespace LegacyTable

/-- A table made for records. -/
def empty : LegacyTable := ⟨true, []⟩

/-- Inserts a record, in place of an earlier one with its key where the table is keyed. -/
def insert (t : LegacyTable) (r : LegacyRecord) : LegacyTable :=
  let row := LegacyRow.ofRecord r
  if t.keyed then ⟨true, t.rows.filter (·.key ≠ row.key) ++ [row.inColumns]⟩
  else ⟨false, t.rows ++ [row]⟩

/-- Every row, read on its own. -/
def records (t : LegacyTable) : List (Except ImportError LegacyRecord) :=
  t.rows.map LegacyRow.record

end LegacyTable

end PrefStore
