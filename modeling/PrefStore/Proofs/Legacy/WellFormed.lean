import PrefStore.Proofs.Fleet.WellFormed
import PrefStore.Proofs.Legacy.Transactions
import PrefStore.Proofs.Legacy.World

/-!
# Well formed whatever happens

The two transactions of a migration are edits like any other. So the handles of a world in which
clients act, runs of the migration go on, commits fail and handles are opened again are handles
of a fleet, and their snapshots stay well formed, whatever the legacy rows are.
-/

namespace PrefStore

open Migration

variable {β ρ : Type}

/-- What clients read of the store is all one: an ascending list of the keys that are not
reserved, its length, and what is found at a key. -/
structure Store.Coherent (s : Store β) : Prop where
  ascending : Assoc.Ascending s.entries
  keys (key : String) : key ∈ s.entries.map Prod.fst ↔
    isReserved key = false ∧ s.published.contains key = true
  size : s.size = s.entries.length
  value (key : String) (v : Value) : s.getValue? key = some v ↔ (key, v) ∈ s.entries
  contains (key : String) : s.contains key = true ↔ key ∈ s.entries.map Prod.fst

/-- Every store is coherent. -/
theorem Store.coherent (s : Store β) : s.Coherent := by
  have hvalue (key : String) (v : Value) : s.getValue? key = some v ↔ (key, v) ∈ s.entries :=
    Snapshot.visibleAt_eq_some_iff
  have hcontains (key : String) : s.contains key = true ↔ key ∈ s.entries.map Prod.fst := by
    rw [Store.contains, Option.isSome_iff_exists]
    simp only [hvalue, List.mem_map, Prod.exists, exists_and_right, exists_eq_right]
  constructor
  case ascending => exact s.published.ascending.filter _
  case keys =>
    intro key
    rw [← hcontains, Store.contains, getValue?, Snapshot.visibleAt, Dict.contains]
    cases isReserved key <;> simp
  case size => rfl
  case value => exact hvalue
  case contains => exact hcontains

namespace Migration

variable [Backend β] [Conduct ρ]

/-- Bringing rows in is done by acts. -/
theorem writeRows_acts {rows : List (Except ImportError LegacyRecord)} {stringToLong : StringSet}
    {o o' : Observed β ρ} {answer : Option MigrationNotes}
    (h : writeRows rows stringToLong o = (answer, o')) : o.Acts o' := by
  obtain ⟨outcome, notes, hedit, -⟩ := writeRows_eq h
  have hacts := o.edit_acts (rowsEdit rows stringToLong) ⟨0, 0, false⟩
  rw [hedit] at hacts
  exact hacts

/-- Setting the flag on its own is done by acts. -/
theorem writeFlag_acts {o o' : Observed β ρ} {answer : Option Bool}
    (h : writeFlag o = (answer, o')) : o.Acts o' := by
  obtain ⟨outcome, notes, hedit, -⟩ := writeFlag_eq h
  have hacts := o.edit_acts flagEdit false
  rw [hedit] at hacts
  exact hacts

/-- A whole run of the migration is done by acts. -/
theorem run_acts (source : LegacySource) (stringToLong : StringSet) (o : Observed β ρ) :
    o.Acts (run source stringToLong o).2 := by
  unfold run
  split
  · exact .refl o
  · cases source with
    | missing => exact writeFlag_acts rfl
    | rows rows =>
      have hrows : o.Acts (writeRows rows stringToLong o).2 := writeRows_acts rfl
      unfold finish
      dsimp only
      split
      · next notes next hwrite =>
        rw [hwrite] at hrows
        split <;> exact hrows
      · next next hwrite =>
        rw [hwrite] at hrows
        exact hrows.trans (writeFlag_acts rfl)

end Migration

variable [Backend β] [Transactional β] [Conduct ρ]

namespace World

variable [Connected β]

/-- What happens in a world is a sequence of steps of its fleet. -/
theorem Step.reaches {w w' : World β ρ} {deed : Deed} (h : w.Step deed w') :
    w.fleet.Reaches w'.fleet := by
  cases h with
  | client hstep => exact .single hstep
  | disk | began | looked | cleaned => exact .refl
  | wroteRows _ _ hhandle hwrite => exact Fleet.reaches_of_acts hhandle (writeRows_acts hwrite)
  | wroteFlag _ _ hhandle hwrite => exact Fleet.reaches_of_acts hhandle (writeFlag_acts hwrite)

/-- The fleet of a world that is reached is reached. -/
theorem Reaches.fleet {w w' : World β ρ} (h : w.Reaches w') : w.fleet.Reaches w'.fleet := by
  induction h with
  | refl => exact .refl
  | tail _ hstep ih =>
    obtain ⟨deed, hstep⟩ := hstep
    exact ih.trans hstep.reaches

end World

/-- Snapshots stay well formed. What a reachable store holds and publishes is well formed, what
clients read of it is all one, and whatever is done with it leaves a reachable store: each single
act, so also those of the listeners that are called in between, each operation of a client, and a
run of the migration over any legacy rows. In a world that began with an empty database and
without handles, the committed contents are well formed and every handle is reachable, whatever
the clients, the runs and others did. -/
theorem Observed.snapshots_stay_well_formed :
    (∀ o : Observed β ρ, o.Reachable →
      (o.store.contents.WellFormed ∧ o.store.published.WellFormed ∧ o.store.Coherent) ∧
        (∀ o', o.Act o' → o'.Reachable) ∧ (∀ o', o.Operation o' → o'.Reachable) ∧
        ∀ source stringToLong, (Migration.run source stringToLong o).2.Reachable) ∧
    ∀ [Connected β] (d : Database) (disk : Disk), d.contents = Dict.empty →
      ∀ w : World β ρ, (World.start d disk).Reaches w →
        w.fleet.contents.WellFormed ∧ ∀ i o, w.fleet.handle? i = some o → o.Reachable := by
  constructor
  · intro o ho
    have hformed := ho.wellFormed
    refine ⟨⟨hformed.contents, hformed.published, o.store.coherent⟩, ?_, ?_, ?_⟩
    · exact fun _ hact => ho.acts hact.acts
    · exact fun _ hoperation => ho.acts hoperation.acts
    · exact fun source stringToLong => ho.acts (run_acts source stringToLong o)
  · intro _ d disk hempty w hreaches
    have hfleet := hreaches.fleet
    exact ⟨(hfleet.wellFormed hempty).contents, fun _ _ => .handle hempty hfleet⟩

/-- Of five legacy rows one comes into the store: the others have the empty key, reserved keys, or
a number that is rounded to an infinity. -/
theorem Observed.odd_rows_stay_out :
    let row (key : String) : LegacyRow := ⟨.text key, .int 0, .int 1, .null, .null, .null, .null⟩
    let huge : LegacyRow :=
      ⟨.text "huge", .int 1, .null, .real (.finite false 1 200 (by decide)), .null, .null, .null⟩
    let rows := [row "", row versionKey, row migrationKey, huge, row "a"]
    let disk := ((Disk.ofDirectories []).createRawLegacy "/old" rows).2
    ∃ (w : World Connection Unit) (o : Observed Connection Unit),
      (World.start {} disk).Reaches w ∧ w.fleet.handle? 0 = some o ∧
      w.fleet.contents.entries = [(migrationKey, .boolean true), ("a", .boolean true)] ∧
      w.fleet.contents.WellFormed ∧ o.store.published.WellFormed ∧
      o.store.entries = [("a", .boolean true)] ∧ o.store.Coherent := by
  intro row huge rows disk
  let opened : Connection :=
    ⟨{ versions := some [1], preferences := some [], commits := 1 }, 0, 1⟩
  let first : Observed Connection Unit :=
    ⟨⟨{ opened with seen := 1 }, Dict.empty, .empty⟩, (), []⟩
  let found := rows.map LegacyRow.record
  have hlook : disk.legacySource "/old" = (.rows found, disk) := by rfl
  let run (stage : Stage) : Option Run := some ⟨0, "/old", .empty, stage⟩
  let w₁ : World Connection Unit := ⟨Fleet.add (.start {}) opened (), disk, []⟩
  have h : (World.start {} disk).Reaches w₁ := .single ⟨_, .client (.opens rfl ())⟩
  have h := h.tail ⟨_, .began (i := 0) (o := first) rfl "/old" .empty⟩
  have h := h.tail ⟨_, .looked (r := 0) (Eq.refl (run .unset)) rfl hlook⟩
  have h := h.tail ⟨_, .wroteRows (r := 0) (Eq.refl (run (.found (.rows found)))) rfl rfl rfl⟩
  obtain ⟨hstores, hworlds⟩ := snapshots_stay_well_formed (β := Connection) (ρ := Unit)
  obtain ⟨hcontents, hhandles⟩ := hworlds {} disk rfl _ h
  obtain ⟨⟨-, hpublished, hcoherent⟩, -⟩ := hstores _ (hhandles 0 _ rfl)
  exact ⟨_, _, h, rfl, by decide, hcontents, hpublished, by decide, hcoherent⟩

end PrefStore
