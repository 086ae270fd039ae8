import PrefStore.Database.Basic
import PrefStore.Disk.Path

/-!
# Disks

A disk has directories, plain files and databases at its places. A database keeps its identity
when its place is cleared, so stores that are open on it live on. A path is followed name by
name through directories that are there.
-/

namespace PrefStore

/-- What lies at a place; a database is given by its number. -/
inductive DiskNode where
  | directory
  | plain (text : String)
  | database (id : Nat)
  deriving DecidableEq, Repr

/-- A file that holds a database. -/
structure DatabaseFile where
  contents : Database := {}
  /-- Whether changes are to be collected in a log. -/
  logged : Bool := false
  /-- The number of stores that are open on the file. -/
  users : Nat := 0
  deriving DecidableEq

/-- The places of a disk, and its databases by number. -/
structure Disk where
  nodes : Dict DiskNode
  files : List DatabaseFile

/-- Where a path leads. -/
inductive Route where
  /-- To a place in a directory that is there, whether or not there is something at it. -/
  | found (place : Place)
  /-- Through a directory that is missing. -/
  | missing
  /-- Through something that is no directory, or to a name or along a path that is refused. -/
  | barred
  deriving DecidableEq, Repr

namespace Disk

/-! ## Places -/

/-- A disk with the root and some other directories. -/
def ofDirectories (places : List Place) : Disk :=
  ⟨Dict.ofList (([] :: places).map fun (place : Place) => (place.text, .directory)), []⟩

/-- What lies at a place. -/
def node? (disk : Disk) (place : Place) : Option DiskNode := disk.nodes.get? place.text

/-- Whether there is a directory at a place. -/
def isDirectory (disk : Disk) (place : Place) : Bool := disk.node? place = some .directory

/-- Lays something at a place. -/
def put (disk : Disk) (place : Place) (node : DiskNode) : Disk :=
  { disk with nodes := disk.nodes.insert place.text node }

/-- Clears a place. -/
def clear (disk : Disk) (place : Place) : Disk :=
  { disk with nodes := disk.nodes.erase place.text }

/-- Lays an empty file at a place where there is nothing. -/
def touch (disk : Disk) (place : Place) : Disk :=
  if (disk.node? place).isSome then disk else disk.put place (.plain "")

/-! ## Databases -/

/-- The contents of a database by its number. -/
def database? (disk : Disk) (id : Nat) : Option Database := (disk.files[id]?).map (·.contents)

/-- Changes the file of a database. -/
def changeFile (disk : Disk) (id : Nat) (change : DatabaseFile → DatabaseFile) : Disk :=
  { disk with files := disk.files.modify id change }

/-- Replaces the contents of a database. -/
def setDatabase (disk : Disk) (id : Nat) (contents : Database) : Disk :=
  disk.changeFile id ({ · with contents })

/-- Adds a database that has no place. -/
def addFile (disk : Disk) (file : DatabaseFile) : Nat × Disk :=
  (disk.files.length, { disk with files := disk.files ++ [file] })

/-- The number of the database at a place. -/
def databaseAt? (disk : Disk) (place : Place) : Option Nat :=
  match disk.node? place with
  | some (.database id) => some id
  | _ => none

/-- The database at a place. -/
def fileAt? (disk : Disk) (place : Place) : Option DatabaseFile := do
  disk.files[← disk.databaseAt? place]?

/-- Lays a database at a place, in place of the contents of one that is there. -/
def putFile (disk : Disk) (place : Place) (file : DatabaseFile) : Disk :=
  match disk.databaseAt? place with
  | some id => disk.changeFile id fun _ => file
  | none =>
    let (id, disk) := disk.addFile file
    disk.put place (.database id)

/-! ## Following paths -/

/-- Follows names from a place. Every name but the last leads through a directory. -/
def followNames (disk : Disk) (place : Place) : List String → Route
  | [] => .found place
  | name :: rest =>
    match disk.node? place with
    | none => .missing
    | some .directory =>
      if nameLimit < name.utf8ByteSize then .barred else disk.followNames (place.step name) rest
    | some _ => .barred

/-- Follows a path from the root. -/
def follow (disk : Disk) (path : String) : Route :=
  if isUsablePath path then disk.followNames [] (pathNames path) else .barred

/-- Whether a path leads to something. -/
def contains (disk : Disk) (path : String) : Bool :=
  match disk.follow path with
  | .found place => (disk.node? place).isSome
  | _ => false

/-- Makes the directories that names lead through from a place, as far as they are missing. -/
def makeNamed : List String → Place → Disk → Except IoCause Unit × Disk
  | [], _, disk => (.ok (), disk)
  | name :: rest, place, disk =>
    match disk.node? (place.step name) with
    | some .directory => makeNamed rest (place.step name) disk
    | some _ => (.error .blocked, disk)
    | none =>
      if nameLimit < name.utf8ByteSize then (.error .blocked, disk)
      else makeNamed rest (place.step name) (disk.put (place.step name) .directory)

/-- Makes the directories along a path. A single dot at its end is not made into one: the
directory before it has to be there already. -/
def makeDirectories (disk : Disk) (path : String) : Except IoCause Unit × Disk :=
  let names := (pathNames path).filter (!isIdle ·)
  if !isUsablePath path then (.error .blocked, disk)
  else if endsIdly path then
    match makeNamed names.dropLast [] disk with
    | (.error e, disk) => (.error e, disk)
    | (.ok (), disk) =>
      match disk.follow path with
      | .found _ => (.ok (), disk)
      | _ => (.error .blocked, disk)
  else makeNamed names [] disk

/-- Writes a plain file. -/
def writeFile (disk : Disk) (path text : String) : Except IoCause Disk :=
  match disk.follow path with
  | .found place =>
    if disk.isDirectory place then .error .blocked else .ok (disk.put place (.plain text))
  | _ => .error .blocked

/-- Removes a file; a directory cannot be removed, and what is missing need not. -/
def removeFile (disk : Disk) (path : String) : Except IoCause Disk :=
  match disk.follow path with
  | .found place => if disk.isDirectory place then .error .blocked else .ok (disk.clear place)
  | .missing => .ok disk
  | .barred => .error .blocked

/-- Removes files one after another up to the first that cannot be removed. -/
def removeFiles : List String → Disk → Except IoCause Unit × Disk
  | [], disk => (.ok (), disk)
  | path :: rest, disk =>
    match disk.removeFile path with
    | .ok disk => removeFiles rest disk
    | .error e => (.error e, disk)

/-- The paths of a database and of what may lie beside it. -/
def databasePaths (path : String) : List String := ["", "-wal", "-shm", "-journal"].map (path ++ ·)

/-- Removes a database and what lies beside it as far as they can be removed. -/
def discard (disk : Disk) (path : String) : Disk :=
  (databasePaths path).foldl
    (fun disk path => match disk.removeFile path with
      | .ok next => next
      | .error _ => disk)
    disk

end Disk

end PrefStore
