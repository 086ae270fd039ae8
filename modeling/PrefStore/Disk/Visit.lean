import PrefStore.Disk.Attachment
import PrefStore.Legacy.Migration

/-!
# Work on databases from outside any store

A visit attaches a file, works on its database and detaches it again. It commits only what it
changes. Legacy databases are read and written by visits alone.
-/

namespace PrefStore

namespace Disk

/-- Works on the database at a path. The answer is absent where there is no database, the work
is refused, or what it changes cannot be committed. -/
def visit {α : Type} (disk : Disk) (path : String) (access : Access)
    (work : Database → Option (α × Database)) : Option α × Disk :=
  match disk.attach path access with
  | (.error _, disk) => (none, disk)
  | (.ok a, disk) =>
    let file := disk.fileOf a
    match work file.contents with
    | none => (none, disk.detach a)
    | some (answer, contents) =>
      if contents = file.contents then (some answer, disk.detach a)
      else
        match disk.commit a { file with contents } with
        | none => (none, disk.detach a)
        | some disk => (some answer, disk.detach a)

/-- Makes a database at a path with one recorded version, with or without its table. -/
def makeSchema (disk : Disk) (path : String) (version : Int64) (table : Bool) :
    Option Unit × Disk :=
  disk.visit path .writing (·.makeSchema? version table)

/-- Inserts legacy records at a path. -/
def createLegacy (disk : Disk) (path : String) (records : List LegacyRecord) :
    Except ImportError Unit × Disk :=
  match disk.visit path .writing fun d => some ((), d.insertLegacy records) with
  | (some (), disk) => (.ok (), disk)
  | (none, disk) => (.error .legacy, disk)

/-- Inserts legacy records at a path where that cannot be done in vain. -/
def buildLegacy (disk : Disk) (path : String) (records : List LegacyRecord) :
    Except (Halt ImportError) Unit × Disk :=
  let (outcome, disk) := disk.createLegacy path records
  (outcome.mapError fun _ => .panic, disk)

/-- Makes a legacy table of given rows at a path. -/
def createRawLegacy (disk : Disk) (path : String) (rows : List LegacyRow) :
    Option Unit × Disk :=
  disk.visit path .writing (·.makeLegacy? rows)

/-- Every row of the legacy table at a path, if it can be read. -/
def legacyRecords? (disk : Disk) (path : String) :
    Option (List (Except ImportError LegacyRecord)) × Disk :=
  disk.visit path .reading fun d => d.legacy.map fun table => (table.records, d)

/-- What a migration finds at a path. -/
def legacySource (disk : Disk) (path : String) : LegacySource × Disk :=
  if disk.contains path then
    let (records, disk) := disk.legacyRecords? path
    (.rows (records.getD []), disk)
  else (.missing, disk)

end Disk

end PrefStore
