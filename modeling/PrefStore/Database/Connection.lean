import PrefStore.Backend.Basic
import PrefStore.Database.Basic

/-!
# Connections to a database

A connection tells commits of others from its own by counting its own. It remembers how many
foreign commits there were when it last loaded or committed. Rows that do not decode make the
whole snapshot empty: they are deleted when a connection is opened, and by the next commit.
-/

namespace PrefStore

/-- A connection, together with the committed contents of its database. -/
structure Connection where
  database : Database
  /-- The commits made through this connection. -/
  own : Nat
  /-- The foreign commits that had been made at the last load or commit. -/
  seen : Nat
  deriving DecidableEq

namespace Connection

/-- The commits made through other connections. -/
def foreign (c : Connection) : Nat := c.database.commits - c.own

/-- The snapshot that rows hold, empty if some row does not decode. -/
def contents (rows : List PreferenceRow) : Snapshot := (Rows.snapshot? rows).getD Dict.empty

/-- Commits rows through this connection. Rows that stay as they are make no commit. -/
def commitRows (c : Connection) (rows : List PreferenceRow) : Connection where
  database :=
    if c.database.preferences = some rows then c.database
    else c.database.commit fun d => { d with preferences := some rows }
  own := if c.database.preferences = some rows then c.own else c.own + 1
  seen := c.foreign

/-- Loads the snapshot; a table that was dropped meanwhile holds nothing. -/
def load (c : Connection) : Except StoreError Snapshot × Connection :=
  (.ok (contents (c.database.preferences.getD [])), { c with seen := c.foreign })

end Connection

/-- A transaction on a connection. Statements change a working copy of the rows, which a commit
makes durable and a rollback drops. -/
structure Transaction where
  connection : Connection
  /-- The rows as the statements have left them, if there is a table. -/
  rows : Option (List PreferenceRow)
  deriving DecidableEq

namespace Transaction

/-- Executes a statement on the working copy; one that fails changes nothing. -/
def execute (tx : Transaction) (statement : Statement) : Except StoreError Unit × Transaction :=
  match tx.rows.bind statement.run? with
  | none => (.error .database, tx)
  | some rows => (.ok (), { tx with rows := some rows })

/-- Executes statements up to the first that fails. -/
def executeAll (tx : Transaction) : List Statement → Except StoreError Unit × Transaction
  | [] => (.ok (), tx)
  | statement :: rest =>
    match tx.execute statement with
    | (.error cause, tx) => (.error cause, tx)
    | (.ok (), tx) => tx.executeAll rest

/-- Reads the snapshot that the rows hold. If some row does not decode they are all deleted. -/
def readOrClear (tx : Transaction) : Except StoreError Snapshot × Transaction :=
  match tx.rows with
  | none => (.error .database, tx)
  | some rows =>
    match Rows.snapshot? rows with
    | some before => (.ok before, tx)
    | none =>
      match tx.execute .clear with
      | (.error cause, tx) => (.error cause, tx)
      | (.ok (), tx) => (.ok Dict.empty, tx)

/-- Writes the difference of two snapshots. -/
def writeDiff (tx : Transaction) (before after : Snapshot) :
    Except StoreError Unit × Transaction :=
  tx.executeAll (Rows.difference before after)

/-- Makes the working copy durable. -/
def commit (tx : Transaction) : Connection :=
  match tx.rows with
  | none => tx.connection
  | some rows => tx.connection.commitRows rows

/-- Drops the working copy. -/
def rollback (tx : Transaction) : Connection := tx.connection

end Transaction

namespace Connection

/-- Begins a transaction. -/
def transaction (c : Connection) : Transaction := ⟨c, c.database.preferences⟩

/-- Runs a transform on the latest rows and writes what differs. Whatever fails, be it to read the
rows, the transform or to write, the transaction is rolled back. -/
def transact {ν ε : Type} (c : Connection) (transform : Transform ν ε) (notes : ν) :
    Except (Stop ε) Snapshot × ν × Connection :=
  match c.transaction.readOrClear with
  | (.error cause, tx) => (.error (.failed cause), notes, tx.rollback)
  | (.ok before, tx) =>
    match transform before notes with
    | (.error cause, notes) => (.error (.halted cause), notes, tx.rollback)
    | (.ok after, notes) =>
      match tx.writeDiff before after with
      | (.error cause, tx) => (.error (.failed cause), notes, tx.rollback)
      | (.ok (), tx) => (.ok after, notes, tx.commit)

instance : Backend Connection where
  load := Connection.load
  transact := Connection.transact
  changed c := (.ok (c.foreign ≠ c.seen), c)

/-- Opens a database: brings its schema up to date, requires the table of preferences, and
deletes the rows if some row does not decode. -/
def open? (d : Database) : Except StoreError Connection :=
  match d.migrate with
  | .error e => .error e
  | .ok d =>
    match d.preferences with
    | none => .error .database
    | some rows =>
      let c : Connection := ⟨d, 0, d.commits⟩
      .ok (if (Rows.snapshot? rows).isSome then c else c.commitRows [])

end Connection

end PrefStore
