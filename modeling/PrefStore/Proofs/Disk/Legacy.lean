import PrefStore.Disk.Visit
import PrefStore.Proofs.Disk.Places

/-!
# A legacy database is found where it was built

A database that is built where nothing was lies there alone: there is no journal beside it, and
no log that would count. It is then read as it was written, and reading leaves the disk alone.
-/

namespace PrefStore

namespace Disk

/-- A database lies at a place, with no journal and no log beside it that counts. -/
structure Settled (disk : Disk) (place : Place) (file : DatabaseFile) : Prop where
  node : ∃ id, disk.node? place = some (.database id)
  found : disk.fileAt? place = some file
  unlogged : file.logged = false
  journal : disk.node? place.journal = none
  log : disk.counts place.log = false

/-- A settled database is attached for reading as it is. -/
theorem Settled.attachAt {disk : Disk} {place : Place} {file : DatabaseFile}
    (h : disk.Settled place file) :
    disk.attachAt place .reading = (.ok ⟨place, .reading, false⟩, disk) := by
  obtain ⟨id, hnode⟩ := h.node
  have hrecover : disk.recover place .reading = some disk := by simp only [recover, h.journal]
  have hlog : disk.enterLog place = some (false, disk) := by
    simp [enterLog, h.log, h.found, h.unlogged]
  have hdatabase : (disk.databaseAt? place).isSome = true := by simp [databaseAt?, hnode]
  rw [Disk.attachAt, hrecover]
  simp only [hlog, hdatabase, or_true, if_true]

/-- The legacy table of a settled database can be read, which leaves the disk as it is. -/
theorem Settled.legacyRecords? {disk : Disk} {path : String} {place : Place}
    {file : DatabaseFile} (h : disk.Settled place file) (hlocate : disk.locate? path = some place)
    {table : LegacyTable} (htable : file.contents.legacy = some table) :
    disk.legacyRecords? path = (some table.records, disk) := by
  obtain ⟨id, hnode⟩ := h.node
  have hopen : disk.openFile path .reading = (some place, disk) := by
    simp [openFile, hlocate, hnode]
  have hattach : disk.attach path .reading = (.ok ⟨place, .reading, false⟩, disk) := by
    simp only [attach, hopen, h.attachAt]
  have hfile : disk.fileOf ⟨place, .reading, false⟩ = file := by simp [fileOf, h.found]
  have hdetach : disk.detach ⟨place, .reading, false⟩ = disk := by simp [detach]
  simp only [Disk.legacyRecords?, visit, hattach, hfile, htable, Option.map_some, if_true, hdetach]

private theorem recover_blank {disk disk' : Disk} {place : Place}
    (hblank : disk.isBlank place = true) (h : disk.recover place .writing = some disk') :
    disk' = disk ∨ disk' = disk.clear place.journal ∧ disk.isDirectory place.journal = false := by
  unfold recover at h
  split at h
  · exact .inl (Option.some.inj h).symm
  · next node hnode =>
    split at h
    · exact .inl (Option.some.inj h).symm
    · simp only [true_and] at h
      split at h
      · next hclear =>
        refine .inr ⟨(Option.some.inj h).symm, ?_⟩
        simp [isDirectory, hnode, hclear]
      · exact .inl (Option.some.inj h).symm

private theorem enterLog_blank {disk disk' : Disk} {place : Place} {logged : Bool}
    (hnode : disk.node? place = some (.plain "")) (h : disk.enterLog place = some (logged, disk')) :
    logged = false ∧ (disk' = disk ∧ disk.counts place.log = false ∨
      disk' = disk.clear place.log ∧ disk.isDirectory place.log = false) := by
  have hblank : disk.isBlank place = true := by simp [isBlank, hnode, DiskNode.isBlank]
  have hfile : disk.fileAt? place = none := by simp [fileAt?, databaseAt?, hnode]
  unfold enterLog at h
  split at h
  · split at h
    · cases h
    · next hdirectory =>
      cases h
      exact ⟨rfl, .inr ⟨rfl, Bool.eq_false_iff.2 hdirectory⟩⟩
  · next hcounts =>
    rw [hfile] at h
    cases h
    exact ⟨rfl, .inl ⟨rfl, Bool.eq_false_iff.2 hcounts⟩⟩

/-- A disk that is ready for a new database: an empty file lies at its place, and no log beside
it counts. -/
structure Ready (disk : Disk) (place : Place) : Prop where
  node : disk.node? place = some (.plain "")
  log : disk.counts place.log = false

private theorem ready_of_attachAt {disk disk' : Disk} {place : Place} (hplace : place ≠ [])
    (hnode : disk.node? place = some (.plain "")) {a : Attachment}
    (h : disk.attachAt place .writing = (.ok a, disk')) :
    a = ⟨place, .writing, false⟩ ∧ disk'.Ready place ∧ disk.Keeps disk' := by
  have hjournal : place.journal.text ≠ place.text := Place.text_beside_ne hplace (by decide)
  have hlog : place.log.text ≠ place.text := Place.text_beside_ne hplace (by decide)
  have hblank : disk.isBlank place = true := by simp [isBlank, hnode, DiskNode.isBlank]
  unfold attachAt at h
  split at h
  · cases h
  · next recovered hrecover =>
    have hrecovered : recovered.node? place = some (.plain "") ∧ disk.Keeps recovered := by
      rcases recover_blank hblank hrecover with rfl | ⟨rfl, hdirectory⟩
      · exact ⟨hnode, .refl _⟩
      · exact ⟨by rw [node?_clear, if_neg hjournal, hnode], keeps_clear hdirectory⟩
    obtain ⟨hnode, hkeeps⟩ := hrecovered
    split at h
    · cases h
    · next logged entered henter =>
      have hentered : entered.Ready place ∧ recovered.Keeps entered := by
        rcases (enterLog_blank hnode henter).2 with ⟨rfl, hcounts⟩ | ⟨rfl, hdirectory⟩
        · exact ⟨⟨hnode, hcounts⟩, .refl _⟩
        · refine ⟨⟨by rw [node?_clear, if_neg hlog, hnode], ?_⟩, keeps_clear hdirectory⟩
          simp [counts, node?_clear]
      obtain ⟨rfl, -⟩ := enterLog_blank hnode henter
      dsimp only at h
      split at h
      · cases h
        exact ⟨rfl, hentered.1, hkeeps.trans hentered.2⟩
      · cases h

private theorem settled_of_commit {disk disk' : Disk} {place : Place} (hplace : place ≠ [])
    (h : disk.Ready place) {file : DatabaseFile} (hunlogged : file.logged = false)
    (hcommit : disk.commit ⟨place, .writing, false⟩ file = some disk') :
    disk'.Settled place file ∧ disk.Keeps disk' := by
  have hjournal : place.journal.text ≠ place.text := Place.text_beside_ne hplace (by decide)
  have hlog : place.log.text ≠ place.text := Place.text_beside_ne hplace (by decide)
  have hbeside : place.journal.text ≠ place.log.text :=
    Place.text_beside_ne_beside hplace (by decide)
  have hnone : disk.databaseAt? place = none := by simp [databaseAt?, h.node]
  have hdirectory : disk.isDirectory place = false := by simp [isDirectory, h.node]
  let added : Disk := { disk with files := disk.files ++ [file] }
  have hput : disk.putFile place file = added.put place (.database disk.files.length) := by
    simp only [putFile, hnone, addFile]
    rfl
  unfold commit at hcommit
  split at hcommit
  · next haccepts =>
    have hallowed : disk.isDirectory place.journal = false := by
      have hboth : disk.allowsJournal place = true := by simpa [accepts] using haccepts
      rw [allowsJournal, Bool.and_eq_true] at hboth
      simpa using hboth.1
    rw [hput] at hcommit
    obtain rfl := Option.some.inj hcommit
    have hnode : ((added.put place (.database disk.files.length)).clear place.journal).node? place =
        some (.database disk.files.length) := by
      rw [node?_clear, if_neg hjournal, node?_put, if_pos rfl]
    constructor
    · constructor
      case node => exact ⟨_, hnode⟩
      case found =>
        simp only [fileAt?, databaseAt?, Bool.false_eq_true, if_false, hnode]
        exact List.getElem?_concat_length
      case unlogged => exact hunlogged
      case journal => exact (node?_clear _ _ _).trans (if_pos rfl)
      case log =>
        have hkept := h.log
        simp only [counts, Bool.false_eq_true, if_false, node?_clear, if_neg hbeside, node?_put,
          if_neg hlog.symm] at hkept ⊢
        exact hkept
    · have hadded : disk.Keeps added := fun _ hother => hother
      have hkeeps : added.Keeps (added.put place (.database disk.files.length)) :=
        keeps_put hdirectory _
      have hfree : (added.put place (.database disk.files.length)).isDirectory place.journal =
          false := by
        rw [isDirectory, node?_put, if_neg hjournal.symm]
        exact hallowed
      exact (hadded.trans hkeeps).trans (keeps_clear hfree)
  · cases hcommit

private theorem openFile_of_free {disk disk' : Disk} {path : String} {place found : Place}
    (hfollow : disk.follow path = .found place) (hfree : disk.node? place = none)
    (h : disk.openFile path .writing = (some found, disk')) :
    found = place ∧ place ≠ [] ∧ disk' = disk.put place (.plain "") ∧
      disk.locate? path = some place := by
  cases hlocate : disk.locate? path with
  | none =>
    rw [openFile, hlocate] at h
    cases h
  | some located =>
    obtain ⟨rfl, -, -⟩ := locate?_keep (.refl disk) hfollow hlocate
    have htouch : disk.touch located = disk.put located (.plain "") := by simp [touch, hfree]
    simp only [openFile, hlocate, hfree, true_and] at h
    split at h
    · next hparent =>
      cases h
      refine ⟨rfl, ?_, htouch, rfl⟩
      rintro rfl
      rw [List.tail_nil, isDirectory_iff, hfree] at hparent
      cases hparent
    · cases h

private theorem insertLegacy_new (records : List LegacyRecord) :
    ({} : Database).insertLegacy records =
      { legacy := some (records.foldl LegacyTable.insert .empty), commits := 1 } := by
  cases records <;> rfl

/-- A legacy database that was built where nothing was lies there with all that was inserted into
it. -/
theorem settled_of_buildLegacy {disk disk' : Disk} {path : String} {place : Place}
    {records : List LegacyRecord} (hfollow : disk.follow path = .found place)
    (hfree : disk.node? place = none) (h : disk.buildLegacy path records = (.ok (), disk')) :
    disk'.Settled place { contents := Database.insertLegacy {} records } ∧
      disk'.follow path = .found place ∧ disk'.locate? path = some place := by
  have hvisit : disk.visit path .writing (fun d => some ((), d.insertLegacy records)) =
      (some (), disk') := by
    unfold buildLegacy createLegacy at h
    generalize disk.visit path .writing _ = visited at h ⊢
    obtain ⟨answer, visited⟩ := visited
    cases answer with
    | none => cases h
    | some _ =>
      cases h
      rfl
  unfold visit attach at hvisit
  split at hvisit
  · cases hvisit
  · next a attached hattach =>
    split at hattach
    · cases hattach
    · next found opened hopen =>
      obtain ⟨rfl, hplace, rfl, hlocate⟩ := openFile_of_free hfollow hfree hopen
      have hdirectory : disk.isDirectory found = false := by simp [isDirectory, hfree]
      have hnode : (disk.put found (.plain "")).node? found = some (.plain "") := by
        rw [node?_put, if_pos rfl]
      obtain ⟨rfl, hready, hattached⟩ := ready_of_attachAt hplace hnode hattach
      have hempty : attached.fileOf ⟨found, .writing, false⟩ = {} := by
        simp [fileOf, fileAt?, databaseAt?, hready.node]
      simp only [hempty, insertLegacy_new] at hvisit
      split at hvisit
      · next heq => cases congrArg Database.commits heq
      · split at hvisit
        · cases hvisit
        · next committed hcommit =>
          obtain ⟨hsettled, hcommitted⟩ := settled_of_commit hplace hready rfl hcommit
          have hdetach : committed.detach ⟨found, .writing, false⟩ = committed := by
            simp [detach]
          rw [hdetach] at hvisit
          cases hvisit
          have hkeeps := ((keeps_put hdirectory _).trans hattached).trans hcommitted
          obtain ⟨-, -, hlocated⟩ := locate?_keep hkeeps hfollow hlocate
          rw [insertLegacy_new]
          exact ⟨hsettled, follow_keep hkeeps hfollow, hlocated⟩

/-- What was built where nothing was can be read there. -/
theorem legacyRecords?_of_buildLegacy {disk disk' : Disk} {path : String} {place : Place}
    {records : List LegacyRecord} (hfollow : disk.follow path = .found place)
    (hfree : disk.node? place = none) (h : disk.buildLegacy path records = (.ok (), disk')) :
    disk'.legacyRecords? path =
      (some (records.foldl LegacyTable.insert .empty).records, disk') := by
  obtain ⟨hsettled, -, hlocated⟩ := settled_of_buildLegacy hfollow hfree h
  exact hsettled.legacyRecords? hlocated (by rw [insertLegacy_new])

/-- What was built where nothing was is what a migration finds there. -/
theorem legacySource_of_buildLegacy {disk disk' : Disk} {path : String} {place : Place}
    {records : List LegacyRecord} (hfollow : disk.follow path = .found place)
    (hfree : disk.node? place = none) (h : disk.buildLegacy path records = (.ok (), disk')) :
    disk'.legacySource path =
      (.rows (records.foldl LegacyTable.insert .empty).records, disk') := by
  obtain ⟨hsettled, hfound, -⟩ := settled_of_buildLegacy hfollow hfree h
  obtain ⟨id, hnode⟩ := hsettled.node
  have hcontains : disk'.contains path = true := by simp [contains, hfound, hnode]
  simp only [legacySource, hcontains, if_true, legacyRecords?_of_buildLegacy hfollow hfree h,
    Option.getD_some]

end Disk

end PrefStore
