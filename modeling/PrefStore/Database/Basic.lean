import PrefStore.Database.Rows
import PrefStore.Error
import PrefStore.Legacy.Table

/-!
# Databases and their schema

A database has up to three tables: the versions of its schema that were applied, the
preferences, and the legacy records. Migration applies the versions after the latest recorded
one up to the current one, in ascending order, and records each; it does so completely or not
at all. Versions are counted in 32 bits without sign.
-/

namespace PrefStore

/-- The committed contents of a database, and the number of commits made to it. -/
structure Database where
  versions : Option (List Int64) := none
  preferences : Option (List PreferenceRow) := none
  legacy : Option LegacyTable := none
  commits : Nat := 0
  deriving DecidableEq

namespace Database

/-- The version of the schema that stores work with. -/
def currentVersion : UInt32 := 1

/-- The greatest integer of 32 bits without sign. -/
def uint32Most : Int := 4294967295

/-- The latest recorded version, zero if there is none; a version outside 32 bits cannot be
read. -/
def latestVersion? (d : Database) : Option UInt32 :=
  match (d.versions.getD []).map Int64.toInt with
  | [] => some 0
  | v :: rest =>
    let latest := rest.foldl max v
    if 0 ≤ latest ∧ latest ≤ uint32Most then some (UInt32.ofNat latest.toNat) else none

/-- The versions from the one after the latest up to the current one. -/
def pendingVersions (latest : UInt32) : List UInt32 :=
  ((List.range (currentVersion.toNat + 1)).map UInt32.ofNat).filter (latest + 1 ≤ ·)

/-- Applies one version and records it. Version one makes the table of preferences. -/
def applyVersion (d : Database) (version : UInt32) : Except StoreError Database :=
  if version = 1 then
    match d.preferences with
    | some _ => .error .database
    | none =>
      .ok { d with
        preferences := some []
        versions := some (d.versions.getD [] ++ [Int64.ofNat version.toNat]) }
  else .error (.corrupt ("unknown schema version: " ++ toString version.toNat))

/-- Brings the schema to the current version. -/
def migrate (d : Database) : Except StoreError Database :=
  match d.latestVersion? with
  | none => .error .database
  | some latest =>
    match pendingVersions latest with
    | [] => .ok d
    | pending => do
      let next ← pending.foldlM applyVersion d
      return { next with commits := d.commits + 1 }

/-- Changes a database in one commit. -/
def commit (d : Database) (change : Database → Database) : Database :=
  { change d with commits := d.commits + 1 }

/-- The rows of preferences by ascending key. -/
def sortedRows? (d : Database) : Option (List PreferenceRow × Database) :=
  d.preferences.map fun rows => (Rows.sorted rows, d)

/-- Inserts or replaces a row of preferences from outside any store; refused where there is
no such table or a cell would be null. -/
def putRow? (d : Database) (row : PreferenceRow) : Option (Unit × Database) :=
  let row : PreferenceRow :=
    ⟨row.key.stored.inTextColumn, row.kind.stored.inIntegerColumn, row.value.stored⟩
  (d.preferences.bind (Statement.put row).run?).map fun rows =>
    ((), d.commit fun d => { d with preferences := some rows })

/-- Deletes the row of a key from outside any store, and tells how many rows went. -/
def deleteRow? (d : Database) (key : String) : Option (Nat × Database) :=
  match d.preferences with
  | none => none
  | some rows =>
    let rest := Rows.delete (.text key) rows
    some (rows.length - rest.length,
      if rest.length = rows.length then d
      else d.commit fun d => { d with preferences := some rest })

/-- Drops the table of preferences from outside any store. -/
def dropRows? (d : Database) : Option (Unit × Database) :=
  match d.preferences with
  | none => none
  | some _ => some ((), d.commit fun d => { d with preferences := none })

/-- Records one version only, with or without the table of preferences; refused where there is
a table already. -/
def makeSchema? (d : Database) (version : Int64) (table : Bool) : Option (Unit × Database) :=
  if d.versions.isSome ∨ (table ∧ d.preferences.isSome) then none
  else
    some ((), d.commit fun d =>
      { d with
        versions := some [version]
        preferences := if table then some [] else d.preferences })

/-- Inserts legacy records, into a new table if there is none. -/
def insertLegacy (d : Database) (records : List LegacyRecord) : Database :=
  match d.legacy, records with
  | some _, [] => d
  | _, _ =>
    d.commit fun d =>
      { d with legacy := some (records.foldl LegacyTable.insert (d.legacy.getD .empty)) }

/-- Makes a legacy table of given rows; refused where there is one already. -/
def makeLegacy? (d : Database) (rows : List LegacyRow) : Option (Unit × Database) :=
  match d.legacy with
  | some _ => none
  | none => some ((), d.commit fun d => { d with legacy := some ⟨false, rows⟩ })

end Database

end PrefStore
