import PrefStore.Edit.Draft

/-!
# Backends

A backend keeps the committed contents of a store. It loads them, runs a transform on the
latest of them and commits the result, and tells whether anybody else has committed since it
last looked. A transform that stops commits nothing. The plainest backend is a snapshot kept
in memory, which nobody else can change.
-/

namespace PrefStore

/-- Turns the latest contents into the next ones or stops, keeping notes on the side. -/
abbrev Transform (ν ε : Type) := Snapshot → ν → Except (Halt ε) Snapshot × ν

/-- Why a transaction commits nothing. -/
inductive Stop (ε : Type) where
  /-- The transform stopped. -/
  | halted (cause : Halt ε)
  /-- The backend failed before the transform ran or when it should commit. -/
  | failed (cause : StoreError)
  deriving DecidableEq

/-- A place that keeps a store's committed contents. -/
class Backend (β : Type) where
  /-- The committed contents. -/
  load : β → Except StoreError Snapshot × β
  /-- Runs a transform on the latest contents and commits what it makes of them. -/
  transact : {ν ε : Type} → β → Transform ν ε → ν → Except (Stop ε) Snapshot × ν × β
  /-- Whether somebody else committed since the last load or commit. -/
  changed : β → Except StoreError Bool × β

/-- A backend that keeps a snapshot in memory. -/
structure Memory where
  contents : Snapshot
  deriving DecidableEq

namespace Memory

/-- Runs a transform on the snapshot and keeps its result. -/
def transact {ν ε : Type} (m : Memory) (transform : Transform ν ε) (notes : ν) :
    Except (Stop ε) Snapshot × ν × Memory :=
  match transform m.contents notes with
  | (.ok next, notes) => (.ok next, notes, ⟨next⟩)
  | (.error cause, notes) => (.error (.halted cause), notes, m)

instance : Backend Memory where
  load m := (.ok m.contents, m)
  transact := Memory.transact
  changed m := (.ok false, m)

end Memory

end PrefStore
