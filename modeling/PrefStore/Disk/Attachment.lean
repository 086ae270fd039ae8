import PrefStore.Disk.Basic

/-!
# Attachments

An attachment is a connection of the database engine to a file. The engine finds the file by
taking the names of its path at their word, and creates it if it is attached for writing. What
lies beside the file comes first: a journal means that a change in place broke off and is undone,
and a log means that later changes are to be looked for there. A file of at most one byte holds
an empty database; any other text is no database.

A change goes either through the log or into the file itself, under the protection of a journal.
The log and its index lie beside the file from the first attachment that uses them until the
last one that can write is gone.
-/

namespace PrefStore

/-- What a connection may do with its file. -/
inductive Access where
  | reading
  | writing
  deriving DecidableEq, Repr

/-- Why there is no connection to a file. -/
inductive Refusal where
  /-- The file, or something beside it, cannot be used. -/
  | unavailable
  /-- The file holds something else. -/
  | notDatabase
  deriving DecidableEq, Repr

/-- A connection of the database engine to the file at a place. -/
structure Attachment where
  place : Place
  access : Access
  /-- Whether changes go through the log. -/
  logged : Bool
  deriving DecidableEq, Repr

namespace DiskNode

/-- Whether a file holds an empty database without being one yet. -/
def isBlank : DiskNode → Bool
  | plain text => text.utf8ByteSize ≤ 1
  | _ => false

/-- Whether something counts when it lies beside a database: all but an empty file. -/
def counts : DiskNode → Bool
  | plain text => text ≠ ""
  | _ => true

/-- Whether a journal starts like one that was laid aside. -/
def isLaidAside : DiskNode → Bool
  | plain text => text.toList.head? = some '\x00'
  | _ => false

end DiskNode

namespace Disk

/-! ## Finding a file -/

/-- The most bytes of a path to a database, and of a path on the way to it. -/
def databasePathLimit : Nat := 504

@[inherit_doc databasePathLimit]
def passingPathLimit : Nat := 511

/-- Whether a place is out of reach for another reason than a missing directory. -/
def isBarred (disk : Disk) : Place → Bool
  | [] => false
  | name :: above =>
    match disk.node? above with
    | some .directory => nameLimit < name.utf8ByteSize
    | some _ => true
    | none => disk.isBarred above

/-- Takes the names of a path at their word: two dots drop the name before them, whether or not
it is there. -/
def locateNames (disk : Disk) (place : Place) : List String → Option Place
  | [] => if databasePathLimit < place.text.utf8ByteSize then none else some place
  | name :: rest =>
    let next := place.step name
    if passingPathLimit < next.text.utf8ByteSize || disk.isBarred next then none
    else disk.locateNames next rest

/-- The place where the engine looks for a file. -/
def locate? (disk : Disk) (path : String) : Option Place :=
  if path.toList.all (· ≠ '\x00') then disk.locateNames [] (pathNames path) else none

/-- Finds a file, and creates it for writing where there is nothing. -/
def openFile (disk : Disk) (path : String) (access : Access) : Option Place × Disk :=
  match disk.locate? path with
  | none => (none, disk)
  | some place =>
    match disk.node? place with
    | some .directory => (none, disk)
    | some _ => (some place, disk)
    | none =>
      if access = .writing ∧ disk.isDirectory place.tail then (some place, disk.touch place)
      else (none, disk)

/-! ## Attaching and detaching -/

/-- Whether there is an empty database at a place that is not one yet. -/
def isBlank (disk : Disk) (place : Place) : Bool := (disk.node? place).any (·.isBlank)

/-- Whether stores are open on the database at a place. -/
def isUsed (disk : Disk) (place : Place) : Bool := (disk.fileAt? place).any (0 < ·.users)

/-- Whether there is something at a place that counts beside a database. -/
def counts (disk : Disk) (place : Place) : Bool := (disk.node? place).any (·.counts)

/-- Undoes what a journal is about. Beside a file without contents it is only removed; a
directory in its place cannot be read, and what is undone must not be in use. -/
def recover (disk : Disk) (place : Place) (access : Access) : Option Disk :=
  match disk.node? place.journal with
  | none => some disk
  | some node =>
    if !node.counts then some disk
    else if disk.isBlank place then
      some (if access = .writing ∧ node ≠ .directory then disk.clear place.journal else disk)
    else if node = .directory then none
    else if node.isLaidAside then some disk
    else if access = .reading ∨ disk.isUsed place then none
    else some (disk.clear place.journal)

/-- Finds out whether changes go through a log, and lays it and its index down. Beside a file
without contents a log is removed; a directory in its place cannot be used. -/
def enterLog (disk : Disk) (place : Place) : Option (Bool × Disk) :=
  if disk.counts place.log then
    if disk.isDirectory place.log then none
    else if disk.isBlank place then some (false, disk.clear place.log)
    else some (true, disk.touch place.logIndex)
  else if (disk.fileAt? place).any (·.logged) then
    some (true, (disk.touch place.log).touch place.logIndex)
  else some (false, disk)

/-- Lets an attachment go. The log and its index go with the last one that can write, unless
the index could not be made. -/
def detach (disk : Disk) (a : Attachment) : Disk :=
  if a.logged ∧ a.access = .writing ∧ ¬ disk.isUsed a.place ∧ ¬ disk.isDirectory a.place.logIndex
  then (disk.clear a.place.log).clear a.place.logIndex
  else disk

/-- Attaches the file at a place. -/
def attachAt (disk : Disk) (place : Place) (access : Access) :
    Except Refusal Attachment × Disk :=
  match disk.recover place access with
  | none => (.error .unavailable, disk)
  | some disk =>
    match disk.enterLog place with
    | none => (.error .unavailable, disk)
    | some (logged, disk) =>
      let a : Attachment := ⟨place, access, logged⟩
      if disk.isBlank place ∨ (disk.databaseAt? place).isSome then (.ok a, disk)
      else (.error .notDatabase, disk.detach a)

/-- Attaches the file that a path leads to. -/
def attach (disk : Disk) (path : String) (access : Access) : Except Refusal Attachment × Disk :=
  match disk.openFile path access with
  | (none, disk) => (.error .unavailable, disk)
  | (some place, disk) => disk.attachAt place access

/-! ## Working with an attachment -/

/-- The file of an attachment. -/
def fileOf (disk : Disk) (a : Attachment) : DatabaseFile := (disk.fileAt? a.place).getD {}

/-- Whether there can be a journal beside a place. -/
def allowsJournal (disk : Disk) (place : Place) : Bool :=
  !disk.isDirectory place.journal && place.journal.head?.all (·.utf8ByteSize ≤ nameLimit)

/-- Whether a change can be committed through an attachment. -/
def accepts (disk : Disk) (a : Attachment) : Bool :=
  a.access = .writing &&
    (if a.logged then !disk.isDirectory a.place.logIndex else disk.allowsJournal a.place)

/-- Commits a change of the file. A change in place leaves no journal behind. -/
def commit (disk : Disk) (a : Attachment) (file : DatabaseFile) : Option Disk :=
  if disk.accepts a then
    let disk := disk.putFile a.place file
    some (if a.logged then disk else disk.clear a.place.journal)
  else none

/-- Makes changes go through a log from now on. -/
def startLog (disk : Disk) (a : Attachment) : Option (Attachment × Disk) :=
  if a.logged then some (a, disk)
  else do
    let disk ← disk.commit a { disk.fileOf a with logged := true }
    let (logged, disk) ← disk.enterLog a.place
    return ({ a with logged }, disk)

end Disk

end PrefStore
