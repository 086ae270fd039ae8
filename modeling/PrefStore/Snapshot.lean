import PrefStore.Key
import PrefStore.Value.Basic

/-!
# Snapshots

A snapshot is the whole contents of a store at one moment, reserved keys included. Clients see
it without the reserved keys. Snapshots agree (`Snapshot.same`) when they have the same keys
and agreeing values.
-/

namespace PrefStore

/-- The contents of a store. -/
abbrev Snapshot := Dict Value

namespace Snapshot

/-- Whether two lists of entries have the same keys in a row and agreeing values. -/
def sameEntries : List (String × Value) → List (String × Value) → Bool
  | [], [] => true
  | (k, v) :: rest, (k', v') :: rest' => k = k' && v.same v' && sameEntries rest rest'
  | _, _ => false

/-- Comparison of snapshots, values being compared by `Value.same`. -/
def same (a b : Snapshot) : Bool := sameEntries a.entries b.entries

/-- The entries that clients see, by ascending key. -/
def visible (s : Snapshot) : List (String × Value) :=
  s.entries.filter fun entry => !isReserved entry.1

/-- The value that a client sees at a key. -/
def visibleAt (s : Snapshot) (key : String) : Option Value :=
  if isReserved key then none else s.get? key

/-- Whether the migration flag is set. -/
def isMigrated (s : Snapshot) : Bool := s.get? migrationKey = some (.boolean true)

/-- The value at a key read as a kind. -/
def readAs (s : Snapshot) (kind : Kind) (key : String) : Option Value :=
  (s.visibleAt key).bind (·.readAs kind)

/-- The value at a key read as the kind of a default, or else the default. -/
def readOr (s : Snapshot) (key : String) (default : Value) : Value :=
  (s.readAs default.kind key).getD default

end Snapshot

end PrefStore
