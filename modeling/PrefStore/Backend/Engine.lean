import PrefStore.Backend.Faulty
import PrefStore.Database.Connection

/-!
# Backends side by side

Stores over different backends can live in one collection when their backends are of one type.
Each operation of an engine is the operation of the backend that it holds.
-/

namespace PrefStore

/-- A backend of any sort. -/
inductive Engine where
  | memory (backend : Memory)
  | faulty (backend : Faulty Memory)
  | table (backend : Connection)

namespace Engine

/-- The committed contents. -/
def load : Engine → Except StoreError Snapshot × Engine
  | memory b => let (answer, b) := Backend.load b; (answer, memory b)
  | faulty b => let (answer, b) := Backend.load b; (answer, faulty b)
  | table b => let (answer, b) := Backend.load b; (answer, table b)

/-- A transaction. -/
def transact {ν ε : Type} (engine : Engine) (transform : Transform ν ε) (notes : ν) :
    Except (Stop ε) Snapshot × ν × Engine :=
  match engine with
  | memory b =>
    let (answer, notes, b) := Backend.transact b transform notes
    (answer, notes, memory b)
  | faulty b =>
    let (answer, notes, b) := Backend.transact b transform notes
    (answer, notes, faulty b)
  | table b =>
    let (answer, notes, b) := Backend.transact b transform notes
    (answer, notes, table b)

/-- Whether somebody else committed. -/
def changed : Engine → Except StoreError Bool × Engine
  | memory b => let (answer, b) := Backend.changed b; (answer, memory b)
  | faulty b => let (answer, b) := Backend.changed b; (answer, faulty b)
  | table b => let (answer, b) := Backend.changed b; (answer, table b)

instance : Backend Engine where
  load := load
  transact := transact
  changed := changed

end Engine

end PrefStore
