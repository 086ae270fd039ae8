import PrefStore.Disk.Visit
import PrefStore.Proofs.Disk.Opening
import PrefStore.Proofs.Disk.Places

/-!
# What goes from a disk

To read a database takes nothing from a disk but the log beside an empty database, which the engine
removes. To discard a database takes what its path and those of its companions lead to, directories
apart, and nothing else; the paths are followed as they were before, since only directories matter
on the way. Neither touches the files of databases, which may only lose their places.
-/

namespace PrefStore.Disk

variable {disk disk' disk'' : Disk}

/-! ## Directories -/

/-- Two disks with the same directories. -/
def SameDirectories (disk disk' : Disk) : Prop := disk.Keeps disk' ∧ disk'.Keeps disk

theorem SameDirectories.refl (disk : Disk) : disk.SameDirectories disk := ⟨.refl disk, .refl disk⟩

theorem SameDirectories.trans (h : disk.SameDirectories disk') (h' : disk'.SameDirectories disk'') :
    disk.SameDirectories disk'' :=
  ⟨h.1.trans h'.1, h'.2.trans h.2⟩

/-- A path leads to the same places on disks with the same directories. -/
theorem SameDirectories.follow_iff (h : disk.SameDirectories disk') {path : String}
    {target : Place} : disk'.follow path = .found target ↔ disk.follow path = .found target :=
  ⟨follow_keep h.2, follow_keep h.1⟩

/-- Disks with the same nodes have the same directories. -/
theorem sameDirectories_of_nodes (h : disk'.nodes = disk.nodes) : disk.SameDirectories disk' := by
  constructor
  · intro place hplace
    rw [isDirectory, node?, h]
    exact hplace
  · intro place hplace
    rw [isDirectory, node?, ← h]
    exact hplace

/-- What is a directory on one of two disks with the same directories is one on the other. -/
theorem SameDirectories.isDirectory_eq (h : disk.SameDirectories disk') (place : Place) :
    disk'.isDirectory place = disk.isDirectory place :=
  Bool.eq_iff_iff.2 ⟨h.2 place, h.1 place⟩

private theorem sameDirectories_clear {place : Place} (h : disk.isDirectory place = false) :
    disk.SameDirectories (disk.clear place) := by
  refine ⟨keeps_clear h, fun other hother => ?_⟩
  rw [isDirectory_iff, node?_clear] at hother
  split at hother
  · cases hother
  · exact isDirectory_iff.2 hother

private theorem sameDirectories_touch (disk : Disk) (place : Place) :
    disk.SameDirectories (disk.touch place) := by
  unfold touch
  split
  · exact .refl disk
  · next hnothing =>
    have hnone : disk.node? place = none := by simpa using hnothing
    refine ⟨keeps_put (by simp [isDirectory, hnone]) _, fun other hother => ?_⟩
    rw [isDirectory_iff, node?_put] at hother
    split at hother
    · cases hother
    · exact isDirectory_iff.2 hother

private theorem isDirectory_congr {place other : Place} (h : place.text = other.text) :
    disk.isDirectory place = disk.isDirectory other := by
  rw [isDirectory, isDirectory, node?, node?, h]

/-! ## Losses -/

/-- One disk comes from another that loses nothing but what lies at certain places. -/
structure LosesOnly (disk : Disk) (lost : Place → Prop) (disk' : Disk) : Prop where
  files : disk'.files = disk.files
  directories : disk.SameDirectories disk'
  node? {place : Place} {node : DiskNode} (h : disk.node? place = some node) :
    disk'.node? place = some node ∨ lost place

variable {lost lost' : Place → Prop}

theorem LosesOnly.refl (disk : Disk) (lost : Place → Prop) : disk.LosesOnly lost disk :=
  ⟨rfl, .refl disk, fun h => .inl h⟩

theorem LosesOnly.trans (h : disk.LosesOnly lost disk') (h' : disk'.LosesOnly lost disk'') :
    disk.LosesOnly lost disk'' where
  files := h'.files.trans h.files
  directories := h.directories.trans h'.directories
  node? hnode := by
    rcases h.node? hnode with hkept | hlost
    · exact h'.node? hkept
    · exact .inr hlost

theorem LosesOnly.mono (h : disk.LosesOnly lost disk') (himp : ∀ place, lost place → lost' place) :
    disk.LosesOnly lost' disk' :=
  ⟨h.files, h.directories, fun hnode => (h.node? hnode).imp_right (himp _)⟩

private theorem losesOnly_touch (disk : Disk) (place : Place) (lost : Place → Prop) :
    disk.LosesOnly lost (disk.touch place) := by
  refine ⟨files_touch disk place, sameDirectories_touch disk place, fun {other node} hnode => ?_⟩
  left
  unfold touch
  split
  · exact hnode
  · next hnothing =>
    have hne : place.text ≠ other.text := by
      intro heq
      have hsame : disk.node? place = disk.node? other := congrArg disk.nodes.get? heq
      simp [hsame, hnode] at hnothing
    rw [node?_put, if_neg hne, hnode]

private theorem losesOnly_clear {place : Place} (hfile : disk.isDirectory place = false)
    (h : ∀ other : Place, other.text = place.text → lost other) :
    disk.LosesOnly lost (disk.clear place) := by
  refine ⟨rfl, sameDirectories_clear hfile, fun {other node} hnode => ?_⟩
  by_cases heq : place.text = other.text
  · exact .inr (h other heq.symm)
  · rw [node?_clear, if_neg heq]
    exact .inl hnode

/-! ## Reading a database -/

/-- The place of the log that is left beside an empty database where a path leads the engine. -/
def IsStaleLog (disk : Disk) (path : String) (place : Place) : Prop :=
  ∃ home, disk.locate? path = some home ∧ disk.isBlank home = true ∧
    place.text = home.log.text

/-- What a path leads to is not the log beside it. -/
theorem not_isStaleLog_of_follow {path : String} {target : Place}
    (hfollow : disk.follow path = .found target) (htarget : target ≠ []) :
    ¬ disk.IsStaleLog path target := by
  rintro ⟨home, hlocate, -, htext⟩
  obtain ⟨rfl, -, -⟩ := locate?_keep (.refl disk) hfollow hlocate
  exact Place.text_beside_ne htarget (by decide) htext.symm

private theorem losesOnly_enterLog {place : Place} {logged : Bool}
    (h : disk.enterLog place = some (logged, disk')) :
    disk.LosesOnly (fun other => disk.isBlank place = true ∧ other.text = place.log.text)
      disk' := by
  unfold enterLog at h
  split at h
  · split at h
    · cases h
    · next hfile =>
      split at h
      · next hblank =>
        cases h
        exact losesOnly_clear (Bool.eq_false_iff.2 hfile) fun other heq => ⟨hblank, heq⟩
      · cases h
        exact losesOnly_touch disk _ _
  · split at h
    · cases h
      exact (losesOnly_touch disk _ _).trans (losesOnly_touch _ _ _)
    · cases h
      exact .refl disk _

private theorem recover_reading {place : Place} (h : disk.recover place .reading = some disk') :
    disk' = disk := by
  unfold recover at h
  repeat' split at h
  all_goals simp_all

private theorem openFile_reading (disk : Disk) (path : String) :
    disk.openFile path .reading = (none, disk) ∨
      ∃ place, disk.locate? path = some place ∧
        disk.openFile path .reading = (some place, disk) := by
  unfold openFile
  split
  · exact .inl rfl
  · next place hlocate =>
    split
    · exact .inl rfl
    · exact .inr ⟨place, hlocate, rfl⟩
    · exact .inl (by simp)

private theorem detach_reading {a : Attachment} (h : a.access = .reading) :
    disk.detach a = disk := by
  simp [detach, h]

/-- To attach a file for reading loses at most the log beside an empty database. -/
private theorem losesOnly_attachAt (disk : Disk) (place : Place) :
    disk.LosesOnly (fun other => disk.isBlank place = true ∧ other.text = place.log.text)
        (disk.attachAt place .reading).2 ∧
      ∀ a, (disk.attachAt place .reading).1 = .ok a → a.access = .reading := by
  unfold attachAt
  split
  · exact ⟨.refl disk _, nofun⟩
  · next hrecover =>
    obtain rfl := recover_reading hrecover
    split
    · exact ⟨.refl _ _, nofun⟩
    · next logged entered henter =>
      have hloses := losesOnly_enterLog henter
      dsimp only
      split
      · refine ⟨hloses, fun a ha => ?_⟩
        cases ha
        rfl
      · rw [detach_reading rfl]
        exact ⟨hloses, nofun⟩

/-- To attach what a path leads to for reading loses at most a stale log. -/
theorem losesOnly_attach (disk : Disk) (path : String) :
    disk.LosesOnly (disk.IsStaleLog path) (disk.attach path .reading).2 ∧
      ∀ a, (disk.attach path .reading).1 = .ok a → a.access = .reading := by
  unfold attach
  rcases openFile_reading disk path with hnone | ⟨place, hlocate, hsome⟩
  · rw [hnone]
    exact ⟨.refl disk _, nofun⟩
  · rw [hsome]
    obtain ⟨hloses, haccess⟩ := losesOnly_attachAt disk place
    exact ⟨hloses.mono fun other ⟨hblank, heq⟩ => ⟨place, hlocate, hblank, heq⟩, haccess⟩

/-- A visit for reading loses at most a stale log. -/
theorem losesOnly_visit {α : Type} (disk : Disk) (path : String)
    (work : Database → Option (α × Database)) :
    disk.LosesOnly (disk.IsStaleLog path) (disk.visit path .reading work).2 := by
  obtain ⟨hloses, haccess⟩ := losesOnly_attach disk path
  unfold visit
  generalize disk.attach path .reading = attached at hloses haccess ⊢
  obtain ⟨answer, disk'⟩ := attached
  cases answer with
  | error refusal => exact hloses
  | ok a =>
    have hreading : a.access = .reading := haccess a rfl
    -- Nothing is committed through an attachment for reading.
    have hcommit (file : DatabaseFile) : disk'.commit a file = none := by
      simp [commit, accepts, hreading]
    simp only [hcommit, detach_reading hreading]
    repeat' split
    all_goals exact hloses

/-- To look at a legacy database loses at most a stale log. -/
theorem losesOnly_legacySource (disk : Disk) (path : String) :
    disk.LosesOnly (disk.IsStaleLog path) (disk.legacySource path).2 := by
  unfold legacySource
  split
  · exact losesOnly_visit disk path _
  · exact .refl disk _

/-! ## Discarding a database -/

/-- Removes a file if it can be removed. -/
def dropFile (disk : Disk) (path : String) : Disk :=
  match disk.removeFile path with
  | .ok next => next
  | .error _ => disk

private theorem discard_eq (disk : Disk) (path : String) :
    disk.discard path = (databasePaths path).foldl dropFile disk := rfl

private theorem dropFile_cases (disk : Disk) (path : String) :
    (disk.dropFile path = disk ∧ ∀ target, disk.follow path = .found target →
        disk.isDirectory target = true) ∨
      ∃ target, disk.follow path = .found target ∧ disk.isDirectory target = false ∧
        disk.dropFile path = disk.clear target := by
  unfold dropFile removeFile
  cases hfollow : disk.follow path with
  | missing | barred => exact .inl ⟨rfl, nofun⟩
  | found target =>
    cases hdirectory : disk.isDirectory target with
    | true =>
      refine .inl ⟨by simp [hdirectory], fun other heq => ?_⟩
      cases heq
      exact hdirectory
    | false => exact .inr ⟨target, rfl, hdirectory, by simp [hdirectory]⟩

/-- Some of several paths leads to a place. -/
def Reach (disk : Disk) (paths : List String) (place : Place) : Prop :=
  ∃ path ∈ paths, ∃ target, disk.follow path = .found target ∧ target.text = place.text

/-- The paths lead to the same places on disks with the same directories. -/
theorem SameDirectories.reach_iff (h : disk.SameDirectories disk') {paths : List String}
    {place : Place} : disk'.Reach paths place ↔ disk.Reach paths place := by
  simp only [Reach, h.follow_iff]

/-- One disk comes from another by dropping what several paths lead to, directories apart. -/
structure Drops (disk : Disk) (paths : List String) (disk' : Disk) : Prop where
  files : disk'.files = disk.files
  directories : disk.SameDirectories disk'
  gone {place : Place} (hreach : disk.Reach paths place) (hfile : disk.isDirectory place = false) :
    disk'.node? place = none
  kept {place : Place} (h : disk.Reach paths place → disk.isDirectory place = true) :
    disk'.node? place = disk.node? place

/-- To drop a file drops what its path leads to. -/
theorem drops_dropFile (disk : Disk) (path : String) :
    disk.Drops [path] (disk.dropFile path) := by
  rcases dropFile_cases disk path with ⟨heq, hdirectory⟩ | ⟨target, hfollow, hfile, heq⟩
  · rw [heq]
    refine ⟨rfl, .refl disk, fun {place} hreach hfile => ?_, fun _ => rfl⟩
    obtain ⟨_, hmem, target, hfollow, htext⟩ := hreach
    obtain rfl := List.mem_singleton.1 hmem
    rw [← isDirectory_congr htext, hdirectory target hfollow] at hfile
    cases hfile
  · rw [heq]
    refine ⟨rfl, sameDirectories_clear hfile, fun {place} hreach _ => ?_, fun {place} hkept => ?_⟩
    · obtain ⟨_, hmem, other, hother, htext⟩ := hreach
      obtain rfl := List.mem_singleton.1 hmem
      rw [hfollow] at hother
      cases hother
      rw [node?_clear, if_pos htext]
    · have hne : target.text ≠ place.text := by
        intro htext
        have hdirectory := hkept ⟨path, List.mem_singleton_self path, target, hfollow, htext⟩
        rw [← isDirectory_congr htext, hfile] at hdirectory
        cases hdirectory
      rw [node?_clear, if_neg hne]

/-- What is dropped one after another is dropped together. -/
theorem Drops.append {paths paths' : List String} (h : disk.Drops paths disk')
    (h' : disk'.Drops paths' disk'') : disk.Drops (paths ++ paths') disk'' where
  files := h'.files.trans h.files
  directories := h.directories.trans h'.directories
  gone {place} hreach hfile := by
    have hfile' : disk'.isDirectory place = false :=
      (h.directories.isDirectory_eq place).trans hfile
    obtain ⟨path, hmem, target, hfollow, htext⟩ := hreach
    by_cases hlater : disk'.Reach paths' place
    · exact h'.gone hlater hfile'
    · rw [h'.kept fun hreach => absurd hreach hlater]
      rcases List.mem_append.1 hmem with hmem | hmem
      · exact h.gone ⟨path, hmem, target, hfollow, htext⟩ hfile
      · exact absurd ⟨path, hmem, target, h.directories.follow_iff.2 hfollow, htext⟩ hlater
  kept {place} hkept := by
    have hearlier : disk'.node? place = disk.node? place := by
      refine h.kept fun ⟨path, hmem, target, hfollow, htext⟩ => ?_
      exact hkept ⟨path, List.mem_append_left _ hmem, target, hfollow, htext⟩
    rw [← hearlier]
    refine h'.kept fun ⟨path, hmem, target, hfollow, htext⟩ => ?_
    refine h.directories.1 place (hkept ⟨path, List.mem_append_right _ hmem, target, ?_, htext⟩)
    exact h.directories.follow_iff.1 hfollow

/-- To discard a database drops what its path and those of its companions lead to. -/
theorem drops_discard (disk : Disk) (path : String) :
    disk.Drops (databasePaths path) (disk.discard path) := by
  rw [discard_eq]
  generalize databasePaths path = paths
  induction paths generalizing disk with
  | nil =>
    refine ⟨rfl, .refl disk, ?_, fun _ => rfl⟩
    rintro place ⟨_, hmem, -⟩
    cases hmem
  | cons path rest ih =>
    exact (drops_dropFile disk path).append (ih (disk.dropFile path))

end PrefStore.Disk
