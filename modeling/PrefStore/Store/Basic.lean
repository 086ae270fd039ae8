import PrefStore.Backend.Basic

/-!
# Stores

A store publishes a snapshot, from which it answers every read, and keeps its contents in a
backend. A committed edit publishes the snapshot that the backend committed; an edit that
fails changes neither. A refresh publishes what others committed.
-/

namespace PrefStore

/-- The failures of an operation that include those of the store underneath. -/
class IncludesStore (ε : Type) where
  ofStore : StoreError → ε

instance : IncludesStore StoreError := ⟨id⟩

instance : IncludesStore ImportError := ⟨.store⟩

/-- Why the edit that ran in a stopped transaction fails. -/
def Stop.toHalt {ε : Type} [IncludesStore ε] : Stop ε → Halt ε
  | halted cause => cause
  | failed cause => .error (IncludesStore.ofStore cause)

/-- The listeners of a store, by number in the order of their registration, and the number of
the next one. -/
structure Registry where
  next : Nat
  active : List Nat
  deriving DecidableEq, Repr

namespace Registry

/-- A registry without listeners. -/
def empty : Registry := ⟨0, []⟩

/-- Registers a listener under the next number. -/
def register (r : Registry) : Registry := ⟨r.next + 1, r.active ++ [r.next]⟩

/-- Drops a listener. -/
def unregister (r : Registry) (listener : Nat) : Registry :=
  ⟨r.next, r.active.filter (· ≠ listener)⟩

/-- Whether a listener is registered. -/
def contains (r : Registry) (listener : Nat) : Bool := r.active.contains listener

end Registry

/-- A store over a backend. -/
structure Store (β : Type) where
  backend : β
  published : Snapshot
  listeners : Registry

namespace Store

variable {β : Type}

/-- The store that publishes what a backend holds. -/
def ofBackend? [Backend β] (backend : β) : Except StoreError (Store β) :=
  match Backend.load backend with
  | (.ok published, backend) => .ok ⟨backend, published, .empty⟩
  | (.error e, _) => .error e

/-- The value at a key read as a kind; nothing where the key is absent or holds another. -/
def get? (s : Store β) (kind : Kind) (key : String) : Option Value := s.published.readAs kind key

/-- The value at a key read as the kind of a default, or else the default. -/
def getOr (s : Store β) (key : String) (default : Value) : Value := s.published.readOr key default

/-- The value at a key. -/
def getValue? (s : Store β) (key : String) : Option Value := s.published.visibleAt key

/-- Whether a key has a value. -/
def contains (s : Store β) (key : String) : Bool := (s.getValue? key).isSome

/-- The entries that clients see, by ascending key. -/
def entries (s : Store β) : List (String × Value) := s.published.visible

/-- The number of entries that clients see. -/
def size (s : Store β) : Nat := s.entries.length

/-- Whether the migration flag is set. -/
def isMigrated (s : Store β) : Bool := s.published.isMigrated

/-- A summary for diagnostics. -/
def summary (s : Store β) : String :=
  "TypedStore \x7b entries: " ++ toString s.size ++ ", listeners: " ++
    toString s.listeners.active.length ++ " \x7d"

/-- The transform of an edit's body, whose notes also hold the keys that its last completed
run wrote. -/
def transform {ν ε : Type} (body : EditBody ν ε) : Transform (ν × StringSet) ε :=
  fun contents (notes, touched) =>
    match body (Draft.ofSnapshot contents) notes with
    | (.ok draft, notes) => (.ok draft.entries, notes, draft.touched)
    | (.error cause, notes) => (.error cause, notes, touched)

/-- Runs an edit in one transaction and publishes what it commits. The answer is the set of
keys that were written. -/
def commit {ν ε : Type} [Backend β] [IncludesStore ε] (s : Store β) (body : EditBody ν ε)
    (notes : ν) : Except (Halt ε) StringSet × ν × Store β :=
  match Backend.transact s.backend (transform body) (notes, Dict.empty) with
  | (.ok committed, (notes, touched), backend) =>
    (.ok touched, notes, ⟨backend, committed, s.listeners⟩)
  | (.error stop, (notes, _), backend) =>
    (.error stop.toHalt, notes, ⟨backend, s.published, s.listeners⟩)

/-- Publishes what others committed. The answer is whether the published snapshot changed;
listeners are not called. -/
def refresh [Backend β] (s : Store β) : Except StoreError Bool × Store β :=
  match Backend.changed s.backend with
  | (.error e, backend) => (.error e, ⟨backend, s.published, s.listeners⟩)
  | (.ok false, backend) => (.ok false, ⟨backend, s.published, s.listeners⟩)
  | (.ok true, backend) =>
    match Backend.load backend with
    | (.error e, backend) => (.error e, ⟨backend, s.published, s.listeners⟩)
    | (.ok latest, backend) =>
      if s.published.same latest then (.ok false, ⟨backend, s.published, s.listeners⟩)
      else (.ok true, ⟨backend, latest, s.listeners⟩)

end Store

end PrefStore
