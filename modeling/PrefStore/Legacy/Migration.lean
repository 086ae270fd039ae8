import PrefStore.Legacy.Record
import PrefStore.Store.Observed

/-!
# One-shot migration

Legacy records are brought into a store once. The migration never fails: records that cannot
be used are counted, and the flag is set all the same, so that it is not attempted again. The
legacy database may be deleted once the flag is committed. If the records cannot be committed
the flag is set on its own; if that fails too the legacy database is kept for another attempt.

A run has three transactions at most, each a function of its own, so that what others do
between them can be described.
-/

namespace PrefStore

/-- How many records there were, how many came into the store and how many did not. -/
structure MigrationReport where
  total : Nat
  migrated : Nat
  failed : Nat
  deriving DecidableEq, Repr

/-- What a migration did. -/
inductive MigrationOutcome where
  /-- The flag was set before. -/
  | alreadyMigrated
  /-- There was no legacy database; at most the flag was set. -/
  | noLegacyStore
  | migrated (report : MigrationReport)
  deriving DecidableEq, Repr

/-- What is found where the legacy database should be: nothing, or rows that were each read on
their own, none if the database cannot be read. -/
inductive LegacySource where
  | missing
  | rows (rows : List (Except ImportError LegacyRecord))

/-- What the edit that brings records in notes down. -/
structure MigrationNotes where
  migrated : Nat
  failed : Nat
  already : Bool
  deriving DecidableEq, Repr

/-- Puts one row into a draft. -/
def Draft.putRow (draft : Draft) (stringToLong : StringSet)
    (row : Except ImportError LegacyRecord) : Except ImportError Draft := do
  let record ← row
  let value ← record.valueWith stringToLong
  (draft.put record.key value).mapError .store

/-- Puts every usable row into a draft and counts the rows of both sorts. -/
def Draft.putRows (draft : Draft) (stringToLong : StringSet)
    (rows : List (Except ImportError LegacyRecord)) : Draft × Nat × Nat :=
  rows.foldl
    (fun (draft, migrated, failed) row =>
      match draft.putRow stringToLong row with
      | .ok next => (next, migrated + 1, failed)
      | .error _ => (draft, migrated, failed + 1))
    (draft, 0, 0)

namespace Migration

/-- The body that brings rows in and sets the flag, unless the flag is set already. -/
def rowsBody (rows : List (Except ImportError LegacyRecord)) (stringToLong : StringSet) :
    EditBody MigrationNotes StoreError :=
  fun draft _ =>
    if draft.isMigrated then (.ok draft, ⟨0, 0, true⟩)
    else
      let (next, migrated, failed) := draft.putRows stringToLong rows
      (.ok next.markMigrated, ⟨migrated, failed, false⟩)

/-- The body that sets the flag and notes whether it was set. -/
def flagBody : EditBody Bool StoreError :=
  fun draft _ => (.ok draft.markMigrated, draft.isMigrated)

variable {β ρ : Type}

/-- Brings rows in. The answer is what the edit noted, if it was committed. -/
def writeRows [Backend β] [Conduct ρ] (rows : List (Except ImportError LegacyRecord))
    (stringToLong : StringSet) (o : Observed β ρ) : Option MigrationNotes × Observed β ρ :=
  match o.edit (rowsBody rows stringToLong) ⟨0, 0, false⟩ with
  | (.ok (), notes, o) => (some notes, o)
  | (.error _, _, o) => (none, o)

/-- Sets the flag on its own. The answer is whether it was set, if the edit was committed. -/
def writeFlag [Backend β] [Conduct ρ] (o : Observed β ρ) : Option Bool × Observed β ρ :=
  match o.edit flagBody false with
  | (.ok (), already, o) => (some already, o)
  | (.error _, _, o) => (none, o)

/-- The outcome of a run, and whether the legacy database is to be deleted. -/
structure Verdict where
  outcome : MigrationOutcome
  discard : Bool
  deriving DecidableEq, Repr

/-- Nothing to do: the flag was set before. -/
def Verdict.already : Verdict := ⟨.alreadyMigrated, false⟩

/-- Ends a run that could not commit its rows, given what became of the flag. -/
def afterFailure (total : Nat) : Option Bool → Verdict
  | some true => .already
  | some false => ⟨.migrated ⟨total, 0, total⟩, true⟩
  | none => ⟨.migrated ⟨total, 0, total⟩, false⟩

/-- Ends a run that found no legacy database, given what became of the flag. -/
def afterMissing : Option Bool → Verdict
  | some true => .already
  | some false | none => ⟨.noLegacyStore, false⟩

/-- The part of a run that writes, given what was found. -/
def finish [Backend β] [Conduct ρ] (source : LegacySource) (stringToLong : StringSet)
    (o : Observed β ρ) : Verdict × Observed β ρ :=
  match source with
  | .missing =>
    let (flag, o) := writeFlag o
    (afterMissing flag, o)
  | .rows rows =>
    match writeRows rows stringToLong o with
    | (some notes, o) =>
      if notes.already then (.already, o)
      else (⟨.migrated ⟨rows.length, notes.migrated, notes.failed⟩, true⟩, o)
    | (none, o) =>
      let (flag, o) := writeFlag o
      (afterFailure rows.length flag, o)

/-- A whole run. The legacy database is not looked at once the published flag is set. -/
def run [Backend β] [Conduct ρ] (source : LegacySource) (stringToLong : StringSet)
    (o : Observed β ρ) : Verdict × Observed β ρ :=
  if o.store.isMigrated then (.already, o) else finish source stringToLong o

end Migration

end PrefStore
