import PrefStore.Database.Cell
import PrefStore.Json.Read
import PrefStore.Snapshot
import PrefStore.Value.Json

/-!
# Rows of preferences

A preference is stored as a row of its key, the code of its kind and a cell for its value. A
snapshot is read from rows only if every row decodes. Rows are changed by statements: a commit
deletes the rows of the keys that are gone and writes a row for each key whose value does not
agree with the one before. A table takes no row with a null cell, which is what a NaN is stored as.
-/

namespace PrefStore

/-- A row of the table of preferences. -/
structure PreferenceRow where
  key : Cell
  kind : Cell
  value : Cell
  deriving DecidableEq

/-- The cell of a value. -/
def Value.toCell : Value → Cell
  | boolean b => .int (if b then 1 else 0)
  | float x => (Cell.real x.widen).stored
  | int i => .int i.toInt64
  | long i => .int i
  | string s => .text s
  | stringSet s => .text (Json.ofStrings s.items).text

/-- The value of a kind that a cell holds when it is stored. -/
def Value.ofCell? (kind : Kind) (cell : Cell) : Option Value :=
  match kind, cell.stored with
  | .boolean, .int i => some (boolean (i ≠ 0))
  | .float, .real x => some (float x.narrow)
  | .float, .int i => some (float (Binary.ofInt .single i.toInt))
  | .int, .int i => (int32? i.toInt).map int
  | .long, .int i => some (long i)
  | .string, .text s => some (string s)
  | .stringSet, .text s =>
    ((Json.read? s).bind Json.strings?).map fun items => stringSet (StringSet.ofList items)
  | _, _ => none

namespace PreferenceRow

/-- The row of a preference. -/
def ofEntry (key : String) (value : Value) : PreferenceRow :=
  ⟨.text key, .int (Int64.ofNat value.kind.code), value.toCell⟩

/-- The preference of a row. -/
def preference? (row : PreferenceRow) : Option (String × Value) :=
  match row.key, row.kind with
  | .text key, .int code =>
    (Kind.ofCode? code.toInt).bind fun kind => (Value.ofCell? kind row.value).map (key, ·)
  | _, _ => none

/-- A row that a table takes: none of its cells is null. -/
structure Filled (row : PreferenceRow) : Prop where
  key : row.key ≠ .null
  kind : row.kind ≠ .null
  value : row.value ≠ .null

instance (row : PreferenceRow) : Decidable row.Filled :=
  decidable_of_decidable_of_iff (p := row.key ≠ .null ∧ row.kind ≠ .null ∧ row.value ≠ .null)
    ⟨fun ⟨hkey, hkind, hvalue⟩ => ⟨hkey, hkind, hvalue⟩, fun h => ⟨h.key, h.kind, h.value⟩⟩

end PreferenceRow

namespace Rows

/-- The snapshot that rows hold, if every row decodes. -/
def snapshot? (rows : List PreferenceRow) : Option Snapshot :=
  (rows.mapM PreferenceRow.preference?).map Dict.ofList

/-- Deletes the row of a key. -/
def delete (key : Cell) (rows : List PreferenceRow) : List PreferenceRow :=
  rows.filter (·.key ≠ key)

/-- Writes a row in place of an earlier one with its key. -/
def upsert (row : PreferenceRow) (rows : List PreferenceRow) : List PreferenceRow :=
  delete row.key rows ++ [row]

end Rows

/-- A statement that changes the rows of a table. -/
inductive Statement where
  /-- Deletes all rows. -/
  | clear
  /-- Deletes the row of a key. -/
  | delete (key : Cell)
  /-- Writes a row in place of an earlier one with its key. -/
  | put (row : PreferenceRow)
  deriving DecidableEq

/-- The rows after a statement, unless the table does not take what it writes. -/
def Statement.run? (statement : Statement) (rows : List PreferenceRow) :
    Option (List PreferenceRow) :=
  match statement with
  | clear => some []
  | delete key => some (Rows.delete key rows)
  | put row => if row.Filled then some (Rows.upsert row rows) else none

namespace Rows

/-- Whether a snapshot has an agreeing value at a key. -/
def keeps (before : Snapshot) (key : String) (value : Value) : Bool :=
  match before.get? key with
  | some old => old.same value
  | none => false

/-- The statements that turn rows of one snapshot into rows of another. -/
def difference (before after : Snapshot) : List Statement :=
  let gone := before.keys.filter fun key => !after.contains key
  let new := after.entries.filter fun entry => !keeps before entry.1 entry.2
  gone.map (fun key => .delete (.text key)) ++
    new.map fun entry => .put (PreferenceRow.ofEntry entry.1 entry.2)

/-- The rows by ascending key. -/
def sorted (rows : List PreferenceRow) : List PreferenceRow :=
  rows.mergeSort fun a b => a.key = b.key || a.key.keyBefore b.key

end Rows

end PrefStore
