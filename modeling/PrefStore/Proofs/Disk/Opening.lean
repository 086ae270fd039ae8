import PrefStore.Disk.Store
import PrefStore.Proofs.Database.Schema
import PrefStore.Proofs.Except

/-!
# Openings that fail

Whatever is laid or cleared at places, and whatever is noted in the file of a database, the contents
of the databases stay. A store that cannot be opened leaves them all as they were, so a schema is
brought up to date completely or not touched. With that, what becomes of a database is told for each
version that it may be migrated from.
-/

namespace PrefStore

namespace Disk

variable {disk disk' disk'' : Disk}

/-! ## What leaves the files alone -/

@[simp] theorem files_touch (disk : Disk) (place : Place) :
    (disk.touch place).files = disk.files := by
  unfold touch
  split <;> rfl

/-- Undoing a journal leaves the files. -/
theorem files_of_recover {place : Place} {access : Access}
    (h : disk.recover place access = some disk') : disk'.files = disk.files := by
  unfold recover at h
  repeat' split at h
  all_goals cases h
  all_goals rfl

/-- Entering a log leaves the files. -/
theorem files_of_enterLog {place : Place} {logged : Bool}
    (h : disk.enterLog place = some (logged, disk')) : disk'.files = disk.files := by
  unfold enterLog at h
  repeat' split at h
  all_goals cases h
  all_goals simp [clear]

@[simp] theorem files_detach (disk : Disk) (a : Attachment) :
    (disk.detach a).files = disk.files := by
  unfold detach
  split <;> rfl

private theorem files_attachAt (disk : Disk) (place : Place) (access : Access) :
    (disk.attachAt place access).2.files = disk.files := by
  unfold attachAt
  split
  · rfl
  · next recovered hrecover =>
    split
    · exact files_of_recover hrecover
    · next logged entered henter =>
      have hfiles := (files_of_enterLog henter).trans (files_of_recover hrecover)
      dsimp only
      split
      · exact hfiles
      · rw [files_detach]
        exact hfiles

private theorem files_openFile (disk : Disk) (path : String) (access : Access) :
    (disk.openFile path access).2.files = disk.files := by
  unfold openFile
  repeat' split
  all_goals simp

private theorem files_attach (disk : Disk) (path : String) (access : Access) :
    (disk.attach path access).2.files = disk.files := by
  have hopen := files_openFile disk path access
  unfold attach
  split
  · next heq =>
    rw [heq] at hopen
    exact hopen
  · next heq =>
    rw [heq] at hopen
    exact (files_attachAt _ _ _).trans hopen

private theorem files_makeNamed (names : List String) (place : Place) (disk : Disk) :
    (makeNamed names place disk).2.files = disk.files := by
  induction names generalizing place disk with
  | nil => rfl
  | cons name rest ih =>
    unfold makeNamed
    split
    · exact ih _ _
    · rfl
    · split
      · rfl
      · exact ih _ _

private theorem files_makeDirectories (disk : Disk) (path : String) :
    (disk.makeDirectories path).2.files = disk.files := by
  unfold makeDirectories
  dsimp only
  split
  · rfl
  · split
    · have hmade := files_makeNamed ((pathNames path).filter (!isIdle ·)).dropLast [] disk
      split
      · next heq =>
        rw [heq] at hmade
        exact hmade
      · next heq =>
        rw [heq] at hmade
        split <;> exact hmade
    · exact files_makeNamed _ _ _

private theorem files_removeFiles (paths : List String) (disk : Disk) :
    (removeFiles paths disk).2.files = disk.files := by
  induction paths generalizing disk with
  | nil => rfl
  | cons path rest ih =>
    unfold removeFiles
    split
    · next removed hremove =>
      have hfiles : removed.files = disk.files := by
        unfold removeFile at hremove
        repeat' split at hremove
        all_goals cases hremove
        all_goals rfl
      exact (ih removed).trans hfiles
    · rfl

/-! ## What leaves the contents alone -/

/-- Every database of one disk has the same contents on another. -/
def Preserves (disk disk' : Disk) : Prop :=
  ∀ id d, disk.database? id = some d → disk'.database? id = some d

theorem Preserves.trans (h : disk.Preserves disk') (h' : disk'.Preserves disk'') :
    disk.Preserves disk'' :=
  fun id d hd => h' id d (h id d hd)

/-- With the files the contents stay. -/
theorem preserves_of_files (h : disk'.files = disk.files) : disk.Preserves disk' := by
  intro id d hd
  rw [database?, h]
  exact hd

private theorem preserves_changeFile {id : Nat} {change : DatabaseFile → DatabaseFile}
    (h : ∀ old, disk.files[id]? = some old → (change old).contents = old.contents) :
    disk.Preserves (disk.changeFile id change) := by
  intro other d hd
  obtain ⟨old, hold, rfl⟩ := Option.map_eq_some_iff.1 hd
  rw [database?, changeFile, List.getElem?_modify, hold]
  by_cases hid : id = other
  · subst hid
    simp [h old hold]
  · simp [hid]

private theorem preserves_putFile {place : Place} {file : DatabaseFile}
    (h : ∀ old, disk.fileAt? place = some old → file.contents = old.contents) :
    disk.Preserves (disk.putFile place file) := by
  unfold putFile
  split
  · next id hid =>
    refine preserves_changeFile fun old hold => h old ?_
    rw [fileAt?, hid]
    exact hold
  · intro id d hd
    obtain ⟨old, hold, rfl⟩ := Option.map_eq_some_iff.1 hd
    have hfiles : (disk.files ++ [file])[id]? = some old := by
      rw [List.getElem?_append_left (List.getElem?_eq_some_iff.1 hold).1, hold]
    exact congrArg (Option.map (·.contents)) hfiles

private theorem preserves_of_commit {a : Attachment} {file : DatabaseFile}
    (hfile : ∀ old, disk.fileAt? a.place = some old → file.contents = old.contents)
    (h : disk.commit a file = some disk') : disk.Preserves disk' := by
  unfold commit at h
  split at h
  · obtain rfl := Option.some.inj h
    refine (preserves_putFile hfile).trans (preserves_of_files ?_)
    split <;> rfl
  · cases h

private theorem preserves_of_startLog {a a' : Attachment} (h : disk.startLog a = some (a', disk')) :
    disk.Preserves disk' := by
  unfold startLog at h
  split at h
  · cases h
    exact preserves_of_files rfl
  · obtain ⟨committed, hcommit, h⟩ := Option.bind_eq_some_iff.1 h
    obtain ⟨⟨logged, entered⟩, henter, h⟩ := Option.bind_eq_some_iff.1 h
    cases h
    have hcommitted : disk.Preserves committed := by
      refine preserves_of_commit (fun old hold => ?_) hcommit
      rw [fileOf, hold, Option.getD_some]
    exact hcommitted.trans (preserves_of_files (files_of_enterLog henter))

/-! ## Openings -/

/-- An attached database that cannot be opened preserves the contents. -/
theorem preserves_of_openAttached {a : Attachment} {cause : StoreError}
    (h : disk.openAttached a = (.error cause, disk')) : disk.Preserves disk' := by
  unfold openAttached at h
  split at h
  · cases h
    exact preserves_of_files (files_detach _ _)
  · next logged entered hstart =>
    have hstarted := preserves_of_startLog hstart
    have hdetached : disk.Preserves (entered.detach logged) :=
      hstarted.trans (preserves_of_files (files_detach _ _))
    repeat' split at h
    all_goals first | (cases h; exact hdetached) | cases h

private theorem preserves_of_openAt {path : String} {place : Place} {cause : StoreError}
    (h : disk.openAt path place = (.error cause, disk')) : disk.Preserves disk' := by
  have hattach := files_attachAt disk place .writing
  unfold openAt at h
  split at h
  · next heq =>
    rw [heq] at hattach
    exact (preserves_of_files hattach).trans (preserves_of_openAttached h)
  · next heq =>
    rw [heq] at hattach
    cases h
    exact preserves_of_files hattach
  · next attached heq =>
    rw [heq] at hattach
    have hremove := files_removeFiles (databasePaths path) attached
    split at h
    · next hfail =>
      rw [hfail] at hremove
      cases h
      exact preserves_of_files (hremove.trans hattach)
    · next removed hdone =>
      rw [hdone] at hremove
      have hremoved := preserves_of_files (hremove.trans hattach)
      have hagain := files_attach removed path .writing
      unfold openReplaced at h
      split at h
      · next heq =>
        rw [heq] at hagain
        exact (hremoved.trans (preserves_of_files hagain)).trans (preserves_of_openAttached h)
      · next heq =>
        rw [heq] at hagain
        cases h
        exact hremoved.trans (preserves_of_files hagain)

/-- A store that cannot be opened preserves the contents of all databases. -/
theorem preserves_of_openStore {path : String} {busyTimeoutMs : UInt64} {cause : Halt StoreError}
    (h : disk.openStore path busyTimeoutMs = (.error cause, disk')) : disk.Preserves disk' := by
  have hmake := files_makeDirectories disk (parentPath path)
  unfold openStore at h
  split at h
  · next heq =>
    rw [heq] at hmake
    cases h
    exact preserves_of_files hmake
  · next made heq =>
    rw [heq] at hmake
    have hopen := (files_openFile made path .writing).trans hmake
    split at h
    · next heq =>
      rw [heq] at hopen
      cases h
      exact preserves_of_files hopen
    · next place opened heq =>
      rw [heq] at hopen
      split at h
      · cases h
        exact preserves_of_files hopen
      · obtain ⟨houtcome, rfl⟩ := Prod.mk.inj h
        obtain ⟨e, he, -⟩ := mapError_eq_error_iff.1 houtcome
        have hat : opened.openAt path place = (.error e, (opened.openAt path place).2) :=
          Prod.ext he rfl
        exact (preserves_of_files hopen).trans (preserves_of_openAt hat)

end Disk

/-! ## Migrations -/

namespace Database

/-- What becomes of a database that is migrated from its latest version. -/
structure MigratesFrom (d : Database) (latest : UInt32) : Prop where
  /-- The versions to apply are those after the latest up to the current one, in ascending order. -/
  pending : (pendingVersions latest).map UInt32.toNat =
    List.range' (latest.toNat + 1) (currentVersion.toNat - latest.toNat)
  /-- From the current version on the database is left as it is. -/
  ahead : currentVersion ≤ latest → d.migrate = .ok d
  /-- Up to it each of those versions is applied and recorded once, or none of them is where there
  is a table already. -/
  behind : latest < currentVersion → d.migrate = match d.preferences with
    | some _ => .error .database
    | none => .ok { d with
        versions := some (d.versions.getD [] ++
          (pendingVersions latest).map fun version => Int64.ofNat version.toNat)
        preferences := some []
        commits := d.commits + 1 }
  /-- Once it was migrated, nothing is left to do as long as the recorded versions stay. -/
  again {d' d'' : Database} (hmigrate : d.migrate = .ok d')
    (hversions : d''.versions = d'.versions) : d''.migrate = .ok d''

/-- A latest version is migrated from exactly unless it is the last number of 32 bits without sign:
the next one is then zero, and the database is refused, as it is where its latest version is no such
number. A store that is not opened leaves every database as it was. -/
theorem migrate_is_exact (d : Database) :
    (∀ latest : UInt32, d.Latest latest.toNat → latest ≠ 4294967295 → d.MigratesFrom latest) ∧
      (d.Latest 4294967295 → d.migrate = .error (.corrupt "unknown schema version: 0")) ∧
      ((∀ latest : UInt32, ¬d.Latest latest.toNat) → d.migrate = .error .database) ∧
      ∀ (disk : Disk) (path : String) (busyTimeoutMs : UInt64) (cause : Halt StoreError)
        (disk' : Disk) (id : Nat), disk.openStore path busyTimeoutMs = (.error cause, disk') →
          disk.database? id = some d → disk'.database? id = some d := by
  refine ⟨fun latest hlatest hne => ?_, migrate_of_last, migrate_of_not_latest, ?_⟩
  · constructor
    case pending => exact pendingVersions_of_ne hne
    case ahead =>
      intro hahead
      exact (current_of_latest hlatest hne hahead).migrate
    case behind =>
      intro hbehind
      obtain rfl : latest = 0 := by
        have hlt : latest.toNat < 1 := UInt32.lt_iff_toNat_lt.1 hbehind
        exact UInt32.toNat_inj.1 (Nat.lt_one_iff.1 hlt)
      exact migrate_of_zero hlatest
    case again => exact migrate_again
  · intro disk path busyTimeoutMs cause disk' id hopen hd
    exact Disk.preserves_of_openStore hopen id d hd

/-- Versions below one are recorded, the greatest of them zero: the first version is applied. -/
theorem migrate_from_zero_and_less :
    let d : Database := { versions := some [-7, 0] }
    let d' : Database := { versions := some [-7, 0, 1], preferences := some [], commits := 1 }
    d.Latest 0 ∧ d.migrate = .ok d' ∧ d'.migrate = .ok d' := by
  intro d d'
  have hmost : ∀ w ∈ d.versions.getD [], w.toInt ≤ (0 : Int64).toInt :=
    List.forall_mem_cons.2 ⟨by decide, List.forall_mem_singleton.2 (by decide)⟩
  have hlatest : d.Latest (0 : UInt32).toNat :=
    .recorded (List.mem_cons_of_mem _ List.mem_cons_self) hmost
  obtain ⟨hexact, -⟩ := migrate_is_exact d
  have hfrom := hexact 0 hlatest (by decide)
  have hmigrate : d.migrate = .ok d' := hfrom.behind (by decide)
  exact ⟨hlatest, hmigrate, hfrom.again hmigrate rfl⟩

/-- The last number of 32 bits without sign is recorded: it is later than the current version, and
still versions are applied after it, so the database is refused. -/
theorem last_number_is_refused :
    let d : Database := { versions := some [4294967295], preferences := some [] }
    d.Latest 4294967295 ∧ currentVersion ≤ 4294967295 ∧ pendingVersions 4294967295 = [0, 1] ∧
      d.migrate = .error (.corrupt "unknown schema version: 0") ∧
      Connection.open? d = .error (.corrupt "unknown schema version: 0") := by
  intro d
  have hmost : ∀ w ∈ d.versions.getD [], w.toInt ≤ (4294967295 : Int64).toInt :=
    List.forall_mem_singleton.2 le_rfl
  have hlatest : d.Latest 4294967295 := .recorded List.mem_cons_self hmost
  have hmigrate := migrate_of_last hlatest
  refine ⟨hlatest, by decide, by decide, hmigrate, ?_⟩
  rw [Connection.open?, hmigrate]

end Database

end PrefStore
