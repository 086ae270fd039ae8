import PrefStore.Proofs.Store.Acts
import PrefStore.Proofs.Store.Commit

/-!
# Handles on one database

A fleet is a database with any number of handles on it, each a store with a connection of its
own. Whoever acts finds the database as the others have left it. Handles are opened and act in
any order, and between the acts of an operation on one handle the others may act as well.
-/

namespace PrefStore

/-- A backend that works on a database through a connection. -/
class Connected (β : Type) [Backend β] [Transactional β] where
  connection : β → Connection
  /-- The backend as it finds the database when it is used again. -/
  rejoin : β → Database → β
  connection_rejoin (b : β) (d : Database) :
    connection (rejoin b d) = { connection b with database := d }
  rejoin_self (b : β) : rejoin b (connection b).database = b
  contents_eq (b : β) : Transactional.contents b = (connection b).database.contents

instance : Connected Connection where
  connection := id
  rejoin c database := { c with database }
  connection_rejoin _ _ := rfl
  rejoin_self _ := rfl
  contents_eq _ := rfl

instance : Connected (Faulty Connection) where
  connection f := f.inner
  rejoin f database := { f with inner := { f.inner with database } }
  connection_rejoin _ _ := rfl
  rejoin_self _ := rfl
  contents_eq _ := rfl

/-- A database and the stores over it. -/
structure Fleet (β ρ : Type) where
  database : Database
  handles : List (Observed β ρ)

variable {β ρ : Type} [Backend β] [Transactional β] [Connected β]

namespace Observed

/-- The database of a store. -/
def database (o : Observed β ρ) : Database := (Connected.connection o.store.backend).database

/-- A store that finds its database changed. -/
def rejoin (o : Observed β ρ) (d : Database) : Observed β ρ :=
  { o with store := { o.store with backend := Connected.rejoin o.store.backend d } }

@[simp] theorem database_rejoin (o : Observed β ρ) (d : Database) : (o.rejoin d).database = d := by
  rw [database, rejoin, Connected.connection_rejoin]

@[simp] theorem rejoin_database (o : Observed β ρ) : o.rejoin o.database = o := by
  rw [rejoin, database, Connected.rejoin_self]

/-- The contents of a store are those of its database. -/
theorem contents_eq (o : Observed β ρ) : o.store.contents = o.database.contents :=
  Connected.contents_eq _

end Observed

namespace Fleet

/-- A database without handles. -/
def start (d : Database) : Fleet β ρ := ⟨d, []⟩

/-- The committed contents. -/
def contents (f : Fleet β ρ) : Snapshot := f.database.contents

/-- A handle as it is used now. -/
def handle? (f : Fleet β ρ) (i : Nat) : Option (Observed β ρ) :=
  f.handles[i]?.map (·.rejoin f.database)

/-- Keeps a handle after an act. -/
def keep (f : Fleet β ρ) (i : Nat) (o : Observed β ρ) : Fleet β ρ :=
  ⟨o.database, f.handles.set i o⟩

/-- Adds the handle on an opened database, if its contents can be loaded. -/
def add (f : Fleet β ρ) (b : β) (conduct : ρ) : Fleet β ρ :=
  match Store.ofBackend? b with
  | .ok store =>
    ⟨(Connected.connection store.backend).database, f.handles ++ [⟨store, conduct, []⟩]⟩
  | .error _ => ⟨(Connected.connection b).database, f.handles⟩

/-- What can happen to a fleet without anything happening in between. -/
inductive Step (f : Fleet β ρ) : Fleet β ρ → Prop where
  | opens {b : β} (hopen : Connection.open? f.database = .ok (Connected.connection b))
      (conduct : ρ) : Step f (f.add b conduct)
  | acts {i : Nat} {o o' : Observed β ρ} (hhandle : f.handle? i = some o) (hact : o.Act o') :
      Step f (f.keep i o')

/-- One fleet comes from another by steps. -/
def Reaches : Fleet β ρ → Fleet β ρ → Prop := Relation.ReflTransGen Step

/-- A handle acts on the database of the fleet. -/
theorem database_of_handle? {f : Fleet β ρ} {i : Nat} {o : Observed β ρ}
    (h : f.handle? i = some o) : o.database = f.database := by
  obtain ⟨stored, -, rfl⟩ := Option.map_eq_some_iff.1 h
  exact Observed.database_rejoin stored f.database

/-- A handle works on the contents of the fleet. -/
theorem contents_of_handle? {f : Fleet β ρ} {i : Nat} {o : Observed β ρ}
    (h : f.handle? i = some o) : o.store.contents = f.contents := by
  rw [o.contents_eq, database_of_handle? h, contents]

/-- The contents are those that the last act left. -/
theorem contents_keep (f : Fleet β ρ) (i : Nat) (o : Observed β ρ) :
    (f.keep i o).contents = o.store.contents :=
  o.contents_eq.symm

/-- Opening a handle leaves the contents as they are. -/
theorem contents_add {f : Fleet β ρ} {b : β}
    (hopen : Connection.open? f.database = .ok (Connected.connection b)) (conduct : ρ) :
    (f.add b conduct).contents = f.contents := by
  have hconnection := Connection.contents_open? hopen
  have hload := Transactional.contents_load b
  rw [Connected.contents_eq, Connected.contents_eq] at hload
  unfold add Store.ofBackend?
  generalize Backend.load b = loaded at hload ⊢
  obtain ⟨answer, b'⟩ := loaded
  cases answer with
  | error cause => exact hconnection
  | ok published => exact hload.trans hconnection

/-- A handle that was kept is found as it was left. -/
theorem handle?_keep_self {f : Fleet β ρ} {i : Nat} {o : Observed β ρ}
    (h : f.handle? i = some o) (o' : Observed β ρ) : (f.keep i o').handle? i = some o' := by
  obtain ⟨stored, hstored, -⟩ := Option.map_eq_some_iff.1 h
  obtain ⟨hlt, -⟩ := List.getElem?_eq_some_iff.1 hstored
  simp only [handle?, keep, List.getElem?_set_self hlt, Option.map_some, Observed.rejoin_database]

/-- Every other handle finds the database as it was left. -/
theorem handle?_keep_ne {f : Fleet β ρ} {i j : Nat} (hne : i ≠ j) (o' : Observed β ρ) :
    (f.keep i o').handle? j = f.handles[j]?.map (·.rejoin o'.database) := by
  simp only [handle?, keep, List.getElem?_set_ne hne]

/-- A whole sequence of acts on one handle is a sequence of steps. -/
theorem reaches_of_acts {f : Fleet β ρ} {i : Nat} {o o' : Observed β ρ}
    (h : f.handle? i = some o) (hacts : o.Acts o') : f.Reaches (f.keep i o') := by
  induction hacts with
  | refl => exact .single (.acts h (.listen rfl rfl))
  | @tail p q _ hact ih =>
    have hstep := Step.acts (handle?_keep_self h p) hact
    have htwice : (f.keep i p).keep i q = f.keep i q := by simp [keep]
    exact ih.tail (htwice ▸ hstep)

end Fleet

end PrefStore
