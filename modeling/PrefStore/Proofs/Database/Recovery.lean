import PrefStore.Proofs.Backend.Trial
import PrefStore.Proofs.Database.Reading

/-!
# Rows that do not decode

Rows are read as one snapshot by a load, by a transaction and by the next opening: as what they say,
or as nothing if one of them says nothing. A commit leaves rows that say what was committed, also
over rows that said nothing before, and a transaction that fails leaves them all. A table takes no
null, which is what a NaN is stored as: a transaction whose result holds a NaN fails.
-/

namespace PrefStore

namespace Connection

variable {c : Connection} {rows : List PreferenceRow}

/-- A database with its table is opened exactly if its schema is current, and keeps its rows, or
none of them if some row does not decode. -/
theorem open?_eq_ok_iff {d : Database} (htable : d.preferences = some rows) :
    open? d = .ok c ↔ d.Current ∧
      c = if (Rows.snapshot? rows).isSome then ⟨d, 0, d.commits⟩
        else commitRows ⟨d, 0, d.commits⟩ [] := by
  have hcurrent (h : d.Current) : open? d = .ok (if (Rows.snapshot? rows).isSome then
      ⟨d, 0, d.commits⟩ else commitRows ⟨d, 0, d.commits⟩ []) := by
    simp only [open?, h.migrate, htable]
  constructor
  · intro h
    obtain ⟨_, -, hmigrate, -⟩ := open?_eq_ok h
    have hd : d.Current := by
      rcases Database.of_migrate_eq_ok hmigrate with ⟨hd, -⟩ | ⟨-, hnone, -⟩
      · exact hd
      · rw [hnone] at htable
        cases htable
    rw [hcurrent hd, Except.ok.injEq] at h
    exact ⟨hd, h.symm⟩
  · rintro ⟨hd, rfl⟩
    exact hcurrent hd

/-- The rows of a database that is opened are those that stay when something is written over
them. -/
theorem preferences_open? {d : Database} (htable : d.preferences = some rows)
    (h : open? d = .ok c) : c.database.preferences = some (salvage rows) := by
  obtain ⟨-, rfl⟩ := (open?_eq_ok_iff htable).1 h
  unfold salvage
  split
  · exact htable
  · exact commitRows_preferences _ []

/-- What a connection makes of rows that are read as a snapshot. -/
structure Recovery (c : Connection) (rows : List PreferenceRow) (s : Snapshot) : Prop where
  read : Rows.ReadAs rows s
  load : c.load = (.ok s, { c with seen := c.foreign })
  /-- A transaction runs its transform on what a load gives, and changes nothing if it stops. -/
  halted {ν ε : Type} {t : Transform ν ε} {notes notes' : ν} {cause : Halt ε}
    (hrun : t s notes = (.error cause, notes')) :
    c.transact t notes = (.error (.halted cause), notes', c)
  /-- A transaction commits exactly if its transform completes with a result that holds no NaN. -/
  commits {ν ε : Type} {t : Transform ν ε} {notes notes' : ν} {after : Snapshot} :
    (∃ c', c.transact t notes = (.ok after, notes', c')) ↔
      t s notes = (.ok after, notes') ∧ after.Regular
  /-- Every row says something after a commit, and together they say the result. -/
  committed {ν ε : Type} {t : Transform ν ε} {notes notes' : ν} {after : Snapshot}
    {c' : Connection} (hcommit : c.transact t notes = (.ok after, notes', c')) :
    ∃ rows' s', c'.database.preferences = some rows' ∧ Rows.Say rows' s' ∧ s'.same after = true
  /-- A result that holds a NaN cannot be written: the transaction fails and changes nothing. -/
  refused {ν ε : Type} {t : Transform ν ε} {notes notes' : ν} {after : Snapshot}
    (hrun : t s notes = (.ok after, notes')) (hnan : ¬ after.Regular) :
    c.transact t notes = (.error (.failed .database), notes', c)
  /-- A transaction that fails, be it in its commit, leaves the connection as it was. -/
  lost {ν ε : Type} {f f' : Faulty Connection} (hunder : f.inner = c) {t : Transform ν ε}
    {notes notes' : ν} {stop : Stop ε}
    (hfail : Backend.transact f t notes = (.error stop, notes', f')) : f'.inner = c
  /-- The database can be opened if its schema is current. -/
  openable : (∃ c', open? c.database = .ok c') ↔ c.database.Current
  /-- Opening the database leaves rows that say what a load gave. -/
  opened {c' : Connection} (hopen : open? c.database = .ok c') :
    ∃ rows', c'.database.preferences = some rows' ∧ Rows.Say rows' s ∧ c'.load.1 = .ok s

/-- Whatever the rows of a connection are, they are read as one snapshot by a load, by transactions
and by an opening; a commit leaves rows that say its result, and a failure leaves them all. -/
theorem exists_recovery (hrows : c.database.preferences = some rows) :
    ∃ s, c.Recovery rows s := by
  refine ⟨contents rows, readAs_iff.2 rfl, ?load, ?halted, ?commits, ?committed, ?refused, ?lost,
    ?openable, ?opened⟩
  case load => rw [load, hrows, Option.getD_some]
  case halted =>
    intro ν ε t notes notes' cause hrun
    exact transact_of_halt hrows hrun
  case commits =>
    intro ν ε t notes notes' after
    constructor
    · rintro ⟨c', hcommit⟩
      exact of_transact_ok hrows hcommit
    · rintro ⟨hrun, hafter⟩
      obtain ⟨rows', _, htransact, -⟩ := transact_of_regular hrows hrun hafter
      exact ⟨c.commitRows rows', htransact⟩
  case committed =>
    intro ν ε t notes notes' after c' hcommit
    obtain ⟨hrun, hafter⟩ := of_transact_ok hrows hcommit
    obtain ⟨rows', s, htransact, hhold, -, hsame⟩ := transact_of_regular hrows hrun hafter
    rw [htransact] at hcommit
    cases hcommit
    exact ⟨rows', s, commitRows_preferences c rows', Rows.hold_iff_say.1 hhold, hsame⟩
  case refused =>
    intro ν ε t notes notes' after hrun hnan
    exact transact_of_nan hrows hrun hnan
  case lost =>
    rintro ν ε f f' rfl t notes notes' stop hfail
    exact Faulty.inner_of_transact_error hfail
  case openable =>
    simp only [open?_eq_ok_iff hrows, exists_and_left, exists_eq, and_true]
  case opened =>
    intro c' hopen
    have hkept := preferences_open? hrows hopen
    have hhold := hold_salvage rows
    refine ⟨_, hkept, Rows.hold_iff_say.1 hhold, ?_⟩
    rw [load, hkept, Option.getD_some, contents_of_hold hhold]

/-- A row that says nothing takes the others with it: both rows are read as nothing, and a
transaction that writes a new key and loses its commit leaves both. So does one that would write a
NaN. -/
theorem recovery_of_damaged_rows :
    let rows := [⟨.text "n", .int 2, .int 7⟩, ⟨.text "b", .int 2, .text "x"⟩]
    let c : Connection := ⟨{ versions := some [1], preferences := some rows }, 0, 0⟩
    let f : Faulty Connection := { inner := c, failCommit := [1] }
    let t : Transform Unit Empty := fun s notes => (.ok (s.insert "k" (.int 1)), notes)
    let nan : Transform Unit Empty := fun s notes => (.ok (s.insert "k" (.float .nan)), notes)
    c.database.preferences = some rows ∧ c.Recovery rows Dict.empty ∧
      (f.transact t ()).1 = .error (.failed (.io .injected)) ∧ (f.transact t ()).2.2.inner = c ∧
      (∃ c' rows' s', c.transact t () = (.ok (Dict.empty.insert "k" (.int 1)), (), c') ∧
        c'.database.preferences = some rows' ∧ Rows.Say rows' s' ∧
        s'.same (Dict.empty.insert "k" (.int 1)) = true) ∧
      c.transact nan () = (.error (.failed .database), (), c) := by
  intro rows c f t nan
  have hrows : c.database.preferences = some rows := rfl
  obtain ⟨s, h⟩ := exists_recovery hrows
  obtain rfl : s = Dict.empty := (readAs_iff.1 h.read).trans (by decide)
  have hfail : Backend.transact f t () =
      (.error (.failed (.io .injected)), (), { f with transactions := 1 }) := rfl
  have hregular : Snapshot.Regular (Dict.empty.insert "k" (.int 1)) :=
    Snapshot.regular_of_same (b := Dict.empty.insert "k" (.int 1)) rfl
  obtain ⟨c', hcommit⟩ := (h.commits (t := t)).2 ⟨rfl, hregular⟩
  obtain ⟨rows', s', hrows', hsay, hsame⟩ := h.committed hcommit
  have hnan : ¬ Snapshot.Regular (Dict.empty.insert "k" (.float .nan)) := fun hregular => by
    cases hregular "k" _ (Dict.get?_insert_self ..)
  exact ⟨hrows, h, rfl, h.lost rfl hfail, ⟨c', rows', s', hcommit, hrows', hsay, hsame⟩,
    h.refused rfl hnan⟩

end Connection

end PrefStore
