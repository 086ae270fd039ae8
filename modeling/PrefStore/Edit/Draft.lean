import PrefStore.Error
import PrefStore.Snapshot

/-!
# Drafts

An edit works on a draft: the latest committed contents with the changes made so far, and the
set of keys that were written, whether or not their value changed. A client's writes are
refused at the empty key and at reserved keys, and so are values that cannot be stored; a
refused write leaves the draft as it was.
-/

namespace PrefStore

/-- The contents under edit and the keys written so far. -/
structure Draft where
  entries : Snapshot
  touched : StringSet
  deriving DecidableEq

/-- Refuses the empty key and the reserved ones. -/
def checkKey (key : String) : Except StoreError Unit :=
  if key = "" then .error (.invalidKey key)
  else if isReserved key then .error (.reservedKey key)
  else .ok ()

namespace Draft

/-- A draft in which nothing has been written yet. -/
def ofSnapshot (s : Snapshot) : Draft := ⟨s, Dict.empty⟩

/-- The value that a client sees at a key. -/
def get? (d : Draft) (key : String) : Option Value := d.entries.visibleAt key

/-- Whether a client sees a key. -/
def contains (d : Draft) (key : String) : Bool := (d.get? key).isSome

/-- The keys that a client sees, ascending. -/
def keys (d : Draft) : List String := d.entries.visible.map Prod.fst

/-- Writes a value. -/
def put (d : Draft) (key : String) (value : Value) : Except StoreError Draft := do
  checkKey key
  match value.validate with
  | .error source => .error (.invalidValue key source)
  | .ok () => .ok ⟨d.entries.insert key value, d.touched.add key⟩

/-- Removes a key, which counts as written even if it was absent. -/
def remove (d : Draft) (key : String) : Except StoreError Draft := do
  checkKey key
  .ok ⟨d.entries.erase key, d.touched.add key⟩

/-- Removes every key that a client sees. -/
def clear (d : Draft) : Draft :=
  ⟨d.entries.filterKeys isReserved, d.keys.foldl StringSet.add d.touched⟩

/-- Whether the migration flag is set. -/
def isMigrated (d : Draft) : Bool := d.entries.isMigrated

/-- Sets the migration flag, which does not count as a written key. -/
def markMigrated (d : Draft) : Draft :=
  ⟨d.entries.insert migrationKey (.boolean true), d.touched⟩

end Draft

/-- Why an edit stops before it has a result: its own failure, or a panic. -/
inductive Halt (ε : Type) where
  | error (e : ε)
  | panic
  deriving DecidableEq

/-- The body of an edit turns a draft into the next one or stops. A body keeps notes on the
side, which are there afterwards whether or not the edit is committed; a body that is run
again finds the notes of its last run. -/
abbrev EditBody (ν ε : Type) := Draft → ν → Except (Halt ε) Draft × ν

/-- A body from a step without notes. -/
def EditBody.ofStep {ε : Type} (step : Draft → Except ε Draft) : EditBody Unit ε :=
  fun draft notes => ((step draft).mapError .error, notes)

end PrefStore
