import PrefStore.Proofs.Disk.Removal
import PrefStore.Proofs.Legacy.Transactions
import PrefStore.Workspace

/-!
# What a migration leaves on the disk

A run finds that its legacy database is to be deleted exactly if it found one and has set the flag.
A workspace then drops what the paths of the database and of its companions lead to. Nothing else
goes from the disk, but that the engine removes the log beside an empty legacy file, and of all
databases only that of the store may change.
-/

namespace PrefStore

namespace Migration

variable {β ρ : Type} [Backend β] [Transactional β] [Conduct ρ] {o o' : Observed β ρ}

/-- A run finds that its legacy database is to be deleted exactly if there was one and the run has
set the flag. -/
theorem discard_iff {source : LegacySource} {stringToLong : StringSet} {verdict : Verdict}
    (h : run source stringToLong o = (verdict, o')) :
    verdict.discard = true ↔ source ≠ .missing ∧ o.store.contents.isMigrated = false ∧
      o'.store.contents.isMigrated = true := by
  unfold run at h
  split at h
  · cases h
    simp [Verdict.already]
  · cases source with
    | missing =>
      have hverdict : verdict = afterMissing (writeFlag o).1 := (congrArg Prod.fst h).symm
      rw [hverdict]
      cases (writeFlag o).1 with
      | none => simp [afterMissing]
      | some already => cases already <;> simp [afterMissing, Verdict.already]
    | rows rows =>
      simp only [finish] at h
      split at h
      · next notes o₁ hwrite =>
        obtain ⟨hnoted, hset⟩ := isMigrated_of_writeRows hwrite
        split at h
        · next hbefore =>
          cases h
          rw [← hnoted, hbefore]
          simp [Verdict.already]
        · next hunset =>
          cases h
          rw [← hnoted, hset]
          simpa using hunset
      · next o₁ hwrite =>
        have hsame := (same_of_writeRows hwrite).1
        obtain ⟨flag, o₂, hflag⟩ : ∃ flag o₂, writeFlag o₁ = (flag, o₂) := ⟨_, _, rfl⟩
        rw [hflag] at h
        cases h
        cases flag with
        | none =>
          rw [(same_of_writeFlag hflag).1, hsame]
          cases o.store.contents.isMigrated <;> simp [afterFailure]
        | some already =>
          obtain ⟨hnoted, hset⟩ := isMigrated_of_writeFlag hflag
          rw [hset, ← hsame, ← hnoted]
          cases already <;> simp [afterFailure, Verdict.already]

end Migration

namespace Workspace

variable {w : Workspace} {name path : String}

private theorem observed?_of_files {disk : Disk} (h : disk.files = w.disk.files) (store : Nat) :
    { w with disk }.observed? store = w.observed? store := by
  have hdatabase : disk.database? = w.disk.database? := by
    funext id
    rw [Disk.database?, Disk.database?, h]
  simp only [observed?, hdatabase]

private theorem nodes_keep (w : Workspace) (store : Nat) (o : Observed Engine Rulebook) :
    (w.keep store o).disk.nodes = w.disk.nodes := by
  unfold keep
  split
  · rfl
  · dsimp only
    split <;> rfl

private theorem database?_keep (w : Workspace) {store id : Nat} (o : Observed Engine Rulebook)
    (hother : ∀ entry, w.stores[store]? = some entry → entry.database ≠ some id) :
    (w.keep store o).disk.database? id = w.disk.database? id := by
  unfold keep
  split
  · rfl
  · next entry hentry =>
    dsimp only
    split
    · next own _ hown _ =>
      have hne : own ≠ id := by
        rintro rfl
        exact hother entry hentry hown
      simp [Disk.setDatabase, Disk.changeFile, Disk.database?, hne]
    · rfl

private theorem onHandle_of_handle {α : Type} {store : Nat} {o : Observed Engine Rulebook}
    (hstore : w.handle? name = some store) (ho : w.observed? store = some o)
    (operation : Observed Engine Rulebook → α × Observed Engine Rulebook) :
    w.onHandle name operation =
      some ((operation o).1, eventsOf (operation o).2, w.keep store (operation o).2) := by
  simp only [onHandle, hstore, ho, bind, Option.bind_some, pure]

/-- What a run looks at before it writes: nothing if the published flag is set. -/
def lookAt (w : Workspace) (o : Observed Engine Rulebook) (path : String) : LegacySource × Disk :=
  if o.store.isMigrated then (.missing, w.disk) else w.disk.legacySource path

/-- To look at a legacy database loses at most a stale log, and nothing once the published flag is
set. -/
theorem losesOnly_lookAt (w : Workspace) (o : Observed Engine Rulebook) (path : String) :
    w.disk.LosesOnly (fun place => o.store.isMigrated = false ∧ w.disk.IsStaleLog path place)
      (w.lookAt o path).2 := by
  unfold lookAt
  split
  · exact .refl w.disk _
  · next hunset =>
    exact (w.disk.losesOnly_legacySource path).mono fun place hstale =>
      ⟨Bool.eq_false_iff.2 hunset, hstale⟩

/-- The disk of a migration before the legacy database is deleted. -/
def lookedDisk (w : Workspace) (store : Nat) (o o' : Observed Engine Rulebook) (path : String) :
    Disk :=
  ({ w with disk := (w.lookAt o path).2 }.keep store o').disk

private theorem sameDirectories_lookedDisk (w : Workspace) (store : Nat)
    (o o' : Observed Engine Rulebook) (path : String) :
    w.disk.SameDirectories (w.lookedDisk store o o' path) :=
  (w.losesOnly_lookAt o path).directories.trans (Disk.sameDirectories_of_nodes (nodes_keep _ _ _))

private theorem node?_lookedDisk (w : Workspace) (store : Nat) (o o' : Observed Engine Rulebook)
    (path : String) {place : Place} {node : DiskNode} (h : w.disk.node? place = some node) :
    (w.lookedDisk store o o' path).node? place = some node ∨
      o.store.isMigrated = false ∧ w.disk.IsStaleLog path place := by
  have hnodes : (w.lookedDisk store o o' path).nodes = (w.lookAt o path).2.nodes := nodes_keep _ _ _
  rw [Disk.node?, hnodes]
  exact (w.losesOnly_lookAt o path).node? h

private theorem database?_lookedDisk {store id : Nat} (o o' : Observed Engine Rulebook)
    (path : String) (hother : ∀ entry, w.stores[store]? = some entry → entry.database ≠ some id) :
    (w.lookedDisk store o o' path).database? id = w.disk.database? id := by
  have hkept : (w.lookedDisk store o o' path).database? id = (w.lookAt o path).2.database? id :=
    database?_keep { w with disk := (w.lookAt o path).2 } o' hother
  rw [hkept, Disk.database?, (w.losesOnly_lookAt o path).files, Disk.database?]

/-- A migration looks at its legacy database, runs on what it found there, keeps the store and
deletes the database if the run finds so. -/
theorem migrate_of_handle {store : Nat} {o o' : Observed Engine Rulebook}
    {stringToLong : StringSet} {verdict : Migration.Verdict}
    (hstore : w.handle? name = some store) (ho : w.observed? store = some o)
    (hrun : Migration.run (w.lookAt o path).1 stringToLong o = (verdict, o')) :
    ∃ w', w.migrate name path stringToLong = some (verdict.outcome, eventsOf o', w') ∧
      w'.disk = if verdict.discard then (w.lookedDisk store o o' path).discard path
        else w.lookedDisk store o o' path := by
  have hseen : { w with disk := (w.lookAt o path).2 }.observed? store = some o := by
    rw [observed?_of_files (w.losesOnly_lookAt o path).files, ho]
  have hhandle : { w with disk := (w.lookAt o path).2 }.handle? name = some store := hstore
  have hran := onHandle_of_handle hhandle hseen (Migration.run (w.lookAt o path).1 stringToLong)
  rw [hrun] at hran
  let kept := { w with disk := (w.lookAt o path).2 }.keep store o'
  let disk := if verdict.discard then kept.disk.discard path else kept.disk
  refine ⟨{ kept with disk }, ?_, rfl⟩
  simp only [migrate, hstore, ho, bind, Option.bind_some]
  change Option.bind ({ w with disk := (w.lookAt o path).2 }.onHandle name
    (Migration.run (w.lookAt o path).1 stringToLong)) _ = _
  rw [hran]
  rfl

/-- What a migration leaves on the disk. The run finds that the legacy database is to be deleted
exactly if there was one and the run has set the flag. Then nothing lies any more where the paths of
the database, its log, its index and its journal lead, directories apart. Whatever else goes from
the disk is a log beside an empty legacy file that was looked at, so a database that is not to be
deleted stays. Only the database of the store itself may have other contents than before. -/
theorem migrate_cleans_up {store : Nat} {o : Observed Engine Rulebook}
    (hstore : w.handle? name = some store) (ho : w.observed? store = some o) (path : String)
    (stringToLong : StringSet) :
    ∃ verdict o' w', Migration.run (w.lookAt o path).1 stringToLong o = (verdict, o') ∧
      w.migrate name path stringToLong = some (verdict.outcome, eventsOf o', w') ∧
      (verdict.discard = true ↔ (w.lookAt o path).1 ≠ .missing ∧
        o.store.contents.isMigrated = false ∧ o'.store.contents.isMigrated = true) ∧
      (verdict.discard = true → ∀ place, w.disk.Reach (Disk.databasePaths path) place →
        w.disk.isDirectory place = false → w'.disk.node? place = none) ∧
      (∀ place node, w.disk.node? place = some node → w'.disk.node? place = some node ∨
        (verdict.discard = true ∧ w.disk.Reach (Disk.databasePaths path) place ∧
          w.disk.isDirectory place = false) ∨
        o.store.isMigrated = false ∧ w.disk.IsStaleLog path place) ∧
      (verdict.discard = false → ∀ target node, w.disk.follow path = .found target → target ≠ [] →
        w.disk.node? target = some node → w'.disk.node? target = some node) ∧
      ∀ id, (∀ entry, w.stores[store]? = some entry → entry.database ≠ some id) →
        w'.disk.database? id = w.disk.database? id := by
  obtain ⟨verdict, o', hrun⟩ : ∃ verdict o',
      Migration.run (w.lookAt o path).1 stringToLong o = (verdict, o') := ⟨_, _, rfl⟩
  obtain ⟨w', hmigrate, hdisk⟩ := migrate_of_handle hstore ho hrun
  have hsame := w.sameDirectories_lookedDisk store o o' path
  refine ⟨verdict, o', w', hrun, hmigrate, Migration.discard_iff hrun, ?_⟩
  cases hdiscard : verdict.discard with
  | false =>
    simp only [hdiscard, Bool.false_eq_true, if_false] at hdisk
    rw [hdisk]
    refine ⟨nofun, fun place node hnode => ?_, fun _ target node hfollow htarget hnode => ?_,
      fun id => database?_lookedDisk o o' path⟩
    · exact (w.node?_lookedDisk store o o' path hnode).imp_right .inr
    · refine (w.node?_lookedDisk store o o' path hnode).resolve_right fun ⟨_, hstale⟩ => ?_
      exact Disk.not_isStaleLog_of_follow hfollow htarget hstale
  | true =>
    simp only [hdiscard, if_true] at hdisk
    have hdrops := (w.lookedDisk store o o' path).drops_discard path
    rw [← hdisk] at hdrops
    refine ⟨fun _ place hreach hfile => ?_, fun place node hnode => ?_, nofun,
      fun id hother => ?_⟩
    · exact hdrops.gone (hsame.reach_iff.2 hreach) (hsame.isDirectory_eq place ▸ hfile)
    · rcases w.node?_lookedDisk store o o' path hnode with hkept | hstale
      · by_cases hdropped : w.disk.Reach (Disk.databasePaths path) place ∧
          w.disk.isDirectory place = false
        · exact .inr (.inl ⟨rfl, hdropped⟩)
        · left
          rw [hdrops.kept fun hreach => ?_, hkept]
          rw [hsame.isDirectory_eq place]
          simpa using fun hfile => hdropped ⟨hsame.reach_iff.1 hreach, hfile⟩
      · exact .inr (.inr hstale)
    · rw [Disk.database?, hdrops.files, ← Disk.database?]
      exact database?_lookedDisk o o' path hother

end Workspace

end PrefStore
