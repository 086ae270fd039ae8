import PrefStore.Database.Connection
import PrefStore.Proofs.Database.Rows
import PrefStore.Proofs.Database.Schema

/-!
# What a connection commits

Rows are read as the snapshot that they hold, or as nothing if some row does not decode. A commit
of rows counts as a foreign commit on every other connection to the database unless the rows stay
as they are, and it never counts as one on its own connection.
-/

namespace PrefStore

/-- What the table of preferences is read as; a table that is not there holds nothing. -/
def Database.contents (d : Database) : Snapshot := Connection.contents (d.preferences.getD [])

namespace Connection

/-- Rows that hold a snapshot are read as it. -/
theorem contents_of_hold {rows : List PreferenceRow} {s : Snapshot} (h : Rows.Hold rows s) :
    contents rows = s := by
  rw [Rows.Hold] at h
  rw [contents, h, Option.getD_some]

/-- The rows that stay when something is written over them: all, or none if some row does not
decode. -/
def salvage (rows : List PreferenceRow) : List PreferenceRow :=
  if (Rows.snapshot? rows).isSome then rows else []

/-- The rows that stay hold what the rows are read as. -/
theorem hold_salvage (rows : List PreferenceRow) : Rows.Hold (salvage rows) (contents rows) := by
  cases h : Rows.snapshot? rows with
  | none => simpa [salvage, contents, h] using Rows.hold_nil
  | some s =>
    have hstay : salvage rows = rows := by simp [salvage, h]
    rw [hstay, contents_of_hold h]
    exact h

/-- Rows are read as a regular snapshot. -/
theorem contents_regular (rows : List PreferenceRow) : (contents rows).Regular :=
  (hold_salvage rows).regular

/-- The contents of the table that a connection works on. -/
def table (c : Connection) : Snapshot := c.database.contents

/-- What a connection with a table works on is what the rows are read as. -/
theorem table_of_rows {c : Connection} {rows : List PreferenceRow}
    (h : c.database.preferences = some rows) : c.table = contents rows := by
  rw [table, Database.contents, h, Option.getD_some]

@[simp] theorem commitRows_preferences (c : Connection) (rows : List PreferenceRow) :
    (c.commitRows rows).database.preferences = some rows := by
  unfold commitRows
  dsimp only
  split
  · assumption
  · rfl

/-- A commit is at most one commit to the database, and then one of the connection's own. -/
theorem commitRows_cases (c : Connection) (rows : List PreferenceRow) :
    (c.database.preferences = some rows ∧ c.commitRows rows = { c with seen := c.foreign }) ∨
      ((c.commitRows rows).database.commits = c.database.commits + 1 ∧
        (c.commitRows rows).own = c.own + 1 ∧ (c.commitRows rows).seen = c.foreign) := by
  by_cases h : c.database.preferences = some rows
  · exact .inl ⟨h, by simp [commitRows, h]⟩
  · exact .inr ⟨by simp [commitRows, h, Database.commit], by simp [commitRows, h], rfl⟩

end Connection

/-! ## Opening -/

/-- A commit of rows leaves the schema as it is. -/
theorem Database.Current.commitRows {c : Connection} (h : c.database.Current)
    (rows : List PreferenceRow) : (c.commitRows rows).database.Current := by
  obtain ⟨latest, hlatest, hpending⟩ := h
  refine ⟨latest, ?_, hpending⟩
  rw [← hlatest]
  apply latestVersion?_congr
  unfold Connection.commitRows
  dsimp only
  split
  · rfl
  · rfl

/-- A migration leaves the contents as they are. -/
theorem Database.contents_migrate {d d' : Database} (h : d.migrate = .ok d') :
    d'.contents = d.contents := by
  rcases migrate_cases h with rfl | ⟨hnone, hempty, -⟩
  · rfl
  · simp [contents, hnone, hempty]

/-- An opened connection comes from a migrated database with its table, whose rows it deletes if
some row does not decode. -/
theorem Connection.open?_eq_ok {d : Database} {c : Connection} (h : open? d = .ok c) :
    ∃ d' rows, d.migrate = .ok d' ∧ d'.preferences = some rows ∧
      (c = ⟨d', 0, d'.commits⟩ ∨
        Rows.snapshot? rows = none ∧ c = commitRows ⟨d', 0, d'.commits⟩ []) := by
  unfold open? at h
  split at h
  · cases h
  · next d' hmigrate =>
    split at h
    · cases h
    · next rows hrows =>
      refine ⟨d', rows, hmigrate, hrows, ?_⟩
      rw [Except.ok.injEq] at h
      split at h
      · exact .inl h.symm
      · next hcorrupt => exact .inr ⟨by simpa using hcorrupt, h.symm⟩

/-- A current database with its table is opened again. -/
theorem Connection.open?_of_current {d : Database} (h : d.Current)
    (htable : d.preferences.isSome = true) : ∃ c, open? d = .ok c := by
  obtain ⟨rows, hrows⟩ := Option.isSome_iff_exists.1 htable
  unfold open?
  rw [h.migrate]
  simp only [hrows]
  exact ⟨_, rfl⟩

/-- An opened connection works on a current database. -/
theorem Connection.current_open? {d : Database} {c : Connection} (h : open? d = .ok c) :
    c.database.Current := by
  obtain ⟨d', rows, hmigrate, -, rfl | ⟨-, rfl⟩⟩ := open?_eq_ok h
  · exact .of_migrate hmigrate
  · exact (Database.Current.of_migrate hmigrate).commitRows (c := ⟨d', 0, d'.commits⟩) []

/-- Opening a connection leaves the contents as they are. -/
theorem Connection.contents_open? {d : Database} {c : Connection} (h : open? d = .ok c) :
    c.database.contents = d.contents := by
  obtain ⟨d', rows, hmigrate, hrows, rfl | ⟨hcorrupt, rfl⟩⟩ := open?_eq_ok h
  · exact Database.contents_migrate hmigrate
  · have hempty : contents rows = Dict.empty := by rw [contents, hcorrupt, Option.getD_none]
    rw [← Database.contents_migrate hmigrate, Database.contents, commitRows_preferences,
      Database.contents, hrows, Option.getD_some, Option.getD_some, hempty]
    rfl

end PrefStore
