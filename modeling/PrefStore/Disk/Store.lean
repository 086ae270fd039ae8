import PrefStore.Database.Connection
import PrefStore.Disk.Attachment

/-!
# Databases of stores

A store makes the directories above its database, replaces a file that is no database, has its
changes go through a log, and stays attached until it is closed. Its file may be removed or
replaced in the meantime; the store then works on, and leaves alone what lies there instead.
-/

namespace PrefStore

/-- The longest time in milliseconds that a writer can be told to wait for another one. -/
def busyTimeoutLimit : UInt64 := 2147483647

/-- A connection of a store: the place of its database, or none for one in memory, the number
of the database, and the connection itself. -/
structure OpenDatabase where
  place : Option Place
  id : Nat
  connection : Connection

namespace Disk

/-- Opens the database of an attachment for a store. -/
def openAttached (disk : Disk) (a : Attachment) : Except StoreError OpenDatabase × Disk :=
  match disk.startLog a with
  | none => (.error .database, disk.detach a)
  | some (a, disk) =>
    match disk.databaseAt? a.place with
    | none => (.error .database, disk.detach a)
    | some id =>
      if !disk.accepts a then (.error .database, disk.detach a)
      else
        match Connection.open? (disk.fileOf a).contents with
        | .error e => (.error e, disk.detach a)
        | .ok connection =>
          (.ok ⟨some a.place, id, connection⟩,
            (disk.setDatabase id connection.database).changeFile id fun file =>
              { file with users := file.users + 1 })

/-- Opens the database at a path once more, after what was there has been removed. -/
def openReplaced (disk : Disk) (path : String) : Except StoreError OpenDatabase × Disk :=
  match disk.attach path .writing with
  | (.ok a, disk) => disk.openAttached a
  | (.error _, disk) => (.error .database, disk)

/-- Opens the database at a place for a store, in place of a file that is no database. -/
def openAt (disk : Disk) (path : String) (place : Place) :
    Except StoreError OpenDatabase × Disk :=
  match disk.attachAt place .writing with
  | (.ok a, disk) => disk.openAttached a
  | (.error .unavailable, disk) => (.error .database, disk)
  | (.error .notDatabase, disk) =>
    match removeFiles (databasePaths path) disk with
    | (.error e, disk) => (.error (.io e), disk)
    | (.ok (), disk) => disk.openReplaced path

/-- Opens the database of a store, making it and the directories above it where needed. A
waiting time beyond the limit stops the caller as soon as there is a file. -/
def openStore (disk : Disk) (path : String) (busyTimeoutMs : UInt64) :
    Except (Halt StoreError) OpenDatabase × Disk :=
  match disk.makeDirectories (parentPath path) with
  | (.error e, disk) => (.error (.error (.io e)), disk)
  | (.ok (), disk) =>
    match disk.openFile path .writing with
    | (none, disk) => (.error (.error .database), disk)
    | (some place, disk) =>
      if busyTimeoutLimit < busyTimeoutMs then (.error .panic, disk)
      else
        let (outcome, disk) := disk.openAt path place
        (outcome.mapError .error, disk)

/-- Opens a database that lives in memory only. -/
def openMemory (disk : Disk) : Except StoreError OpenDatabase × Disk :=
  match Connection.open? {} with
  | .error e => (.error e, disk)
  | .ok connection =>
    let (id, disk) := disk.addFile { contents := connection.database }
    (.ok ⟨none, id, connection⟩, disk)

/-- Ends the work of a store on a database. What lies beside the database goes only if the
database still lies at its place. -/
def closeStore (disk : Disk) (place : Place) (id : Nat) : Disk :=
  let disk := disk.changeFile id fun file => { file with users := file.users - 1 }
  if disk.databaseAt? place = some id then disk.detach ⟨place, .writing, true⟩ else disk

end Disk

end PrefStore
