import PrefStore.Backend.Engine
import PrefStore.Backup.Transfer
import PrefStore.Config
import PrefStore.Disk.Store
import PrefStore.Disk.Visit
import PrefStore.Store.Rulebook
import PrefStore.Store.Subscription

/-!
# Workspaces

A workspace holds stores, the named handles and subscriptions on them, and the disk that their
databases lie on. Several handles may share a store, and several stores a database. A store
lives while a handle on it does, and lets its database go then; its subscriptions can be polled
afterwards. For the time of an operation a store over a database is given the current contents
of that database.

A workspace has a directory of its own for its files. A fixture, if there is one, has another
directory, with a store and a legacy database under fixed names, and keeps a handle on that
store.
-/

namespace PrefStore

/-- A store with its listeners, and the database it works on. -/
structure StoreEntry where
  observed : Observed Engine Rulebook
  database : Option Nat := none
  /-- The place where the database was opened. -/
  place : Option Place := none

/-- A call of a listener: its name, the key, and the value at the key when the call began. -/
structure Event where
  listener : String
  key : String
  value : Option Value
  deriving DecidableEq

/-- Stores, handles, subscriptions and the disk. -/
structure Workspace where
  disk : Disk
  stores : List StoreEntry
  /-- The store of each handle. -/
  handles : Dict Nat
  /-- The store of each subscription, and the subscription. -/
  subscriptions : Dict (Nat × Subscription)
  /-- The latest registration under each listener's name. -/
  listeners : Dict Nat
  /-- The store that the fixture keeps a handle on, and its configuration. -/
  fixture : Option (Nat × Config)

namespace Workspace

/-- The directory that the directories of workspaces and fixtures are made in. -/
def root : String := "/tmp"

/-- The directory of a workspace's files. Its length counts toward the limits of their paths. -/
def directory : String := "/tmp/.workspace"

/-- The directory of the fixture. -/
def fixtureDirectory : String := "/tmp/.fixture"

/-- The path of a file of the workspace. A name that starts at the root is a path already. -/
def pathOf (file : String) : String :=
  if file.startsWith "/" then file else directory ++ "/" ++ file

/-- The path of a file of the fixture. -/
def fixturePathOf (file : String) : String := fixtureDirectory ++ "/" ++ file

/-- A workspace without stores. -/
def empty : Workspace where
  disk := Disk.ofDirectories
    ([root, directory, fixtureDirectory].map fun path => (pathNames path).foldl Place.step [])
  stores := []
  handles := Dict.empty
  subscriptions := Dict.empty
  listeners := Dict.empty
  fixture := none

/-! ## Stores and handles -/

/-- The store of a handle. -/
def handle? (w : Workspace) (name : String) : Option Nat := w.handles.get? name

/-- Whether a store has a handle left. -/
def isAlive (w : Workspace) (store : Nat) : Bool :=
  w.handles.entries.any (·.2 = store) || w.fixture.any (·.1 = store)

/-- A store as it stands now, with no calls recorded. -/
def observed? (w : Workspace) (store : Nat) : Option (Observed Engine Rulebook) := do
  let entry ← w.stores[store]?
  let o := entry.observed
  let engine := match o.store.backend, entry.database.bind w.disk.database? with
    | .table c, some database => .table { c with database }
    | engine, _ => engine
  return {
    store := { o.store with backend := engine }
    conduct := { o.conduct with names := w.listeners }
    calls := [] }

/-- Keeps a store after an operation on it. -/
def keep (w : Workspace) (store : Nat) (o : Observed Engine Rulebook) : Workspace :=
  match w.stores[store]? with
  | none => w
  | some entry =>
    let disk := match entry.database, o.store.backend with
      | some id, .table c => w.disk.setDatabase id c.database
      | _, _ => w.disk
    { w with
      disk
      stores := w.stores.set store { entry with observed := o }
      listeners := o.conduct.names }

/-- The calls that were recorded, by the names of the listeners. -/
def eventsOf (o : Observed Engine Rulebook) : List Event :=
  o.calls.map fun call =>
    ⟨o.conduct.nameOf call.listener, call.key, call.published.visibleAt call.key⟩

/-- Runs an operation on the store of a handle. -/
def onHandle {α : Type} (w : Workspace) (name : String)
    (operation : Observed Engine Rulebook → α × Observed Engine Rulebook) :
    Option (α × List Event × Workspace) := do
  let store ← w.handle? name
  let (answer, o) := operation (← w.observed? store)
  return (answer, eventsOf o, w.keep store o)

/-- Lets the database of a store go if the store has no handle left. -/
def release (w : Workspace) (store : Nat) : Workspace :=
  if w.isAlive store then w
  else
    match w.stores[store]? with
    | some ⟨_, some id, some place⟩ => { w with disk := w.disk.closeStore place id }
    | _ => w

/-- Lets the database of a store go, if there is a store that lost a handle. -/
def releaseLost (w : Workspace) (lost : Option Nat) : Workspace :=
  match lost with
  | some store => w.release store
  | none => w

/-- Makes a handle of that name stand for a store. -/
def point (w : Workspace) (name : String) (store : Nat) : Workspace :=
  { w with handles := w.handles.insert name store }.releaseLost (w.handle? name)

/-- Adds a store and makes a handle of that name stand for it. -/
def addStore (w : Workspace) (name : String) (entry : StoreEntry) : Workspace :=
  { w with stores := w.stores ++ [entry] }.point name w.stores.length

/-- Makes the store of an engine and a handle on it. -/
def openEngine (w : Workspace) (name : String) (engine : Engine)
    (database : Option Nat) (place : Option Place) : Except StoreError Workspace := do
  let store ← Store.ofBackend? engine
  return w.addStore name ⟨⟨store, .empty, []⟩, database, place⟩

/-- A store over contents in memory. -/
def openMemory (w : Workspace) (name : String) (contents : Snapshot) : Workspace :=
  w.addStore name ⟨⟨⟨.memory ⟨contents⟩, contents, .empty⟩, .empty, []⟩, none, none⟩

/-- A store over a faulty backend. -/
def openFaulty (w : Workspace) (name : String) (backend : Faulty Memory) :
    Except StoreError Workspace :=
  w.openEngine name (.faulty backend) none none

/-- Changes the faulty backends from outside, whether or not a handle leads to them. -/
def disturb (w : Workspace) (change : Snapshot → Snapshot) : Workspace :=
  { w with
    stores := w.stores.map fun entry =>
      match entry.observed.store.backend with
      | .faulty backend =>
        let disturbed := backend.disturb fun inner => ⟨change inner.contents⟩
        { entry with
          observed := { entry.observed with
            store := { entry.observed.store with backend := .faulty disturbed } } }
      | _ => entry }

/-- A store over a database on the disk, or one that lives in memory only. -/
def openDatabase (w : Workspace) (name : String) (path : Option String)
    (busyTimeoutMs : UInt64) : Except (Halt StoreError) Unit × Workspace :=
  let (opened, disk) := match path with
    | some path => w.disk.openStore path busyTimeoutMs
    | none =>
      let (opened, disk) := w.disk.openMemory
      (opened.mapError .error, disk)
  let w := { w with disk }
  match opened with
  | .error cause => (.error cause, w)
  | .ok ⟨place, id, connection⟩ =>
    match w.openEngine name (.table connection) (some id) place with
    | .error e => (.error (.error e), w)
    | .ok w => (.ok (), w)

/-- Drops a handle, and tells whether there was one. -/
def close (w : Workspace) (name : String) : Bool × Workspace :=
  ((w.handle? name).isSome,
    { w with handles := w.handles.erase name }.releaseLost (w.handle? name))

/-- Makes another handle on a store. -/
def clone (w : Workspace) (name copy : String) : Option Workspace := do
  return w.point copy (← w.handle? name)

/-! ## Listeners and subscriptions -/

/-- Registers a listener under a name, with rules. -/
def register (w : Workspace) (name listener : String) (rules : List (String × RuleAction)) :
    Option Workspace := do
  let ((), _, w) ← w.onHandle name fun o =>
    let number := o.store.listeners.next
    let book := o.conduct.label number listener
    ((), { o with
      store := { o.store with listeners := o.store.listeners.register }
      conduct := { book with
        rules := book.rules ++ rules.map fun (key, action) => ⟨number, key, action, false⟩ } })
  return w

/-- Drops the latest registration under a name, and tells whether there was one. -/
def unregister (w : Workspace) (name listener : String) : Option (Bool × Workspace) := do
  let (found, _, w) ← w.onHandle name fun o =>
    match o.conduct.names.get? listener with
    | none => (false, o)
    | some number =>
      (o.store.listeners.contains number, { o with
        store := { o.store with listeners := o.store.listeners.unregister number } })
  return (found, w)

/-- Subscribes to a key. -/
def subscribe (w : Workspace) (name id key : String) (default : Value) : Option Workspace := do
  let store ← w.handle? name
  return { w with
    subscriptions := w.subscriptions.insert id (store, Subscription.start key default) }

/-- Polls a subscription once. -/
def poll (w : Workspace) (id : String) : Option (Poll × Workspace) := do
  let (store, subscription) ← w.subscriptions.get? id
  let o ← w.observed? store
  let (answer, subscription) := subscription.poll o.store.published (w.isAlive store)
  return (answer, { w with
    subscriptions := w.subscriptions.insert id (store, subscription) })

/-- Lets the store of a subscription look for others' commits, and polls the subscription. -/
def await (w : Workspace) (id : String) : Option (Poll × Workspace) := do
  let (store, _) ← w.subscriptions.get? id
  let o ← w.observed? store
  (w.keep store (Observed.refresh o).2).poll id

/-- The key of a subscription and the value there. -/
def current? (w : Workspace) (id : String) : Option (String × Value) := do
  let (store, subscription) ← w.subscriptions.get? id
  let o ← w.observed? store
  return (subscription.key, subscription.current o.store.published)

/-! ## Legacy databases -/

/-- Migrates the legacy database at a path into the store of a handle. The legacy database is
not looked at once the published flag is set. -/
def migrate (w : Workspace) (name path : String) (stringToLong : StringSet) :
    Option (MigrationOutcome × List Event × Workspace) := do
  let o ← w.observed? (← w.handle? name)
  let (source, disk) :=
    if o.store.isMigrated then (.missing, w.disk) else w.disk.legacySource path
  let (verdict, events, w) ← { w with disk }.onHandle name (Migration.run source stringToLong)
  let disk := if verdict.discard then w.disk.discard path else w.disk
  return (verdict.outcome, events, { w with disk })

/-- Opens a store and migrates its legacy database, if it has one. -/
def openStore (w : Workspace) (name : String) (config : Config) :
    Except (Halt ImportError) Unit × Workspace :=
  match w.openDatabase name (some config.store.path) config.store.busyTimeoutMs with
  | (.error .panic, w) => (.error .panic, w)
  | (.error (.error e), w) => (.error (.error (.store e)), w)
  | (.ok (), w) =>
    match config.legacy with
    | none => (.ok (), w)
    | some legacy =>
      match w.migrate name legacy.path legacy.stringToLongKeys with
      | some (_, _, w) => (.ok (), w)
      | none => (.ok (), w)

/-! ## The fixture -/

/-- The configuration of the fixture. -/
def fixtureConfig : Config where
  store := { path := fixturePathOf "configuration.db", pollIntervalMs := none }
  legacy := some { path := fixturePathOf "legacy.db" }

/-- Makes the fixture keep a handle on the store of a handle. -/
def keepFixture (w : Workspace) (name : String) : Workspace :=
  { w with fixture := (w.handle? name).map (·, fixtureConfig) }.releaseLost
    (w.fixture.map Prod.fst)

/-- Opens the fixture's store over a legacy database with the given records, or none. -/
def openFixture (w : Workspace) (name : String) (records : Option (List LegacyRecord)) :
    Except (Halt ImportError) Unit × Workspace :=
  let (built, disk) : Except (Halt ImportError) Unit × Disk := match records with
    | none => (.ok (), w.disk)
    | some records => w.disk.buildLegacy (fixturePathOf "legacy.db") records
  let w := { w with disk }
  match built with
  | .error cause => (.error cause, w)
  | .ok () =>
    let (outcome, w) := w.openStore name fixtureConfig
    (outcome, w.keepFixture name)

/-- Opens the fixture's store again in place of the one it keeps. -/
def reopenFixture (w : Workspace) (name : String) :
    Except (Halt ImportError) Unit × Workspace :=
  let (outcome, w) := (w.close name).2.openStore name fixtureConfig
  (outcome, w.keepFixture name)

end Workspace

end PrefStore
