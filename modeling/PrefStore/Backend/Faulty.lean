import PrefStore.Backend.Basic

/-!
# Backends with faults

A faulty backend passes everything on to another one, except that it fails on call: loads and
transactions are numbered from one, and those on its lists fail, a transaction either before
its transform runs or after it succeeded. It may put every transaction to a trial first, whose
commit is thrown away and whose failure ends the call. A commit of somebody else can be feigned
by changing the backend underneath.
-/

namespace PrefStore

/-- A backend, a plan of faults, and the calls made so far. -/
structure Faulty (β : Type) where
  inner : β
  /-- Loads that fail. -/
  failLoad : List Nat := []
  /-- Transactions that fail before their transform runs. -/
  failBegin : List Nat := []
  /-- Transactions that fail when they should commit. -/
  failCommit : List Nat := []
  /-- Whether asking for changes fails. -/
  failChanged : Bool := false
  /-- Whether a transaction is put to a trial first. -/
  twice : Bool := false
  /-- Whether the backend was changed from outside since the last load or commit. -/
  disturbed : Bool := false
  loads : Nat := 0
  transactions : Nat := 0

namespace Faulty

variable {β ν ε : Type}

/-- Changes the backend from outside. -/
def disturb (f : Faulty β) (change : β → β) : Faulty β :=
  { f with inner := change f.inner, disturbed := true }

/-- Loads the contents, unless this load is to fail. -/
def load [Backend β] (f : Faulty β) : Except StoreError Snapshot × Faulty β :=
  let f := { f with loads := f.loads + 1 }
  if f.failLoad.contains f.loads then (.error (.io .injected), f)
  else
    match Backend.load f.inner with
    | (.error e, inner) => (.error e, { f with inner })
    | (.ok contents, inner) => (.ok contents, { f with inner, disturbed := false })

/-- Runs the transaction, unless it is to fail when it should commit. -/
def commit [Backend β] (f : Faulty β) (transform : Transform ν ε) (notes : ν) :
    Except (Stop ε) Snapshot × ν × Faulty β :=
  match Backend.transact f.inner transform notes with
  | (.error cause, notes, inner) => (.error cause, notes, { f with inner })
  | (.ok next, notes, inner) =>
    if f.failCommit.contains f.transactions then (.error (.failed (.io .injected)), notes, f)
    else (.ok next, notes, { f with inner, disturbed := false })

/-- A transaction, perhaps after a trial. -/
def transact [Backend β] (f : Faulty β) (transform : Transform ν ε) (notes : ν) :
    Except (Stop ε) Snapshot × ν × Faulty β :=
  let f := { f with transactions := f.transactions + 1 }
  if f.failBegin.contains f.transactions then (.error (.failed (.io .injected)), notes, f)
  else if f.twice then
    match Backend.transact f.inner transform notes with
    | (.error cause, notes, _) => (.error cause, notes, f)
    | (.ok _, notes, _) => f.commit transform notes
  else f.commit transform notes

/-- Whether somebody else committed, unless asking is to fail. -/
def changed [Backend β] (f : Faulty β) : Except StoreError Bool × Faulty β :=
  if f.failChanged then (.error (.io .injected), f)
  else
    match Backend.changed f.inner with
    | (.error e, inner) => (.error e, { f with inner })
    | (.ok changed, inner) => (.ok (f.disturbed || changed), { f with inner })

instance [Backend β] : Backend (Faulty β) where
  load := load
  transact := transact
  changed := changed

end Faulty

end PrefStore
