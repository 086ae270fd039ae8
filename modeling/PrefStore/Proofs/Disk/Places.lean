import PrefStore.Dict.Lemmas
import PrefStore.Disk.Attachment

/-!
# Places and the ways to them

What is put at a place or cleared there is found changed at that place only, and what lies beside
a database has a place of its own. A path that can be followed leads where the engine looks for
it, and does so on as long as no directory goes away.
-/

namespace PrefStore

namespace Place

/-- The text of a place ends with its last name. -/
theorem text_cons (name : String) (above : Place) :
    text (name :: above) = text above ++ ("/" ++ name) := by
  simp [text]

/-- What lies beside a place has its text with something appended. -/
theorem text_beside {place : Place} (h : place ≠ []) (ending : String) :
    (place.beside ending).text = place.text ++ ending := by
  cases place with
  | nil => exact absurd rfl h
  | cons name above => rw [beside, text_cons, text_cons, String.append_assoc, String.append_assoc]

/-- What lies beside a place lies elsewhere. -/
theorem text_beside_ne {place : Place} (h : place ≠ []) {ending : String} (hending : ending ≠ "") :
    (place.beside ending).text ≠ place.text := by
  rw [text_beside h]
  intro heq
  have hlist := congrArg String.toList heq
  rw [String.toList_append] at hlist
  have hnil : ending.toList = [] := by simpa using hlist
  exact hending (String.toList_inj.1 hnil)

/-- Things with different endings beside a place lie at different places. -/
theorem text_beside_ne_beside {place : Place} (h : place ≠ []) {ending ending' : String}
    (hne : ending ≠ ending') : (place.beside ending).text ≠ (place.beside ending').text := by
  rw [text_beside h, text_beside h]
  intro heq
  have hlist := congrArg String.toList heq
  rw [String.toList_append, String.toList_append] at hlist
  exact hne (String.toList_inj.1 (List.append_cancel_left hlist))

end Place

namespace Disk

/-! ## Nodes -/

/-- What is put at a place lies there, and nothing else changes. -/
theorem node?_put (disk : Disk) (place other : Place) (node : DiskNode) :
    (disk.put place node).node? other =
      if place.text = other.text then some node else disk.node? other :=
  Dict.get?_insert _ _ _ _

/-- Nothing lies at a cleared place, and nothing else changes. -/
theorem node?_clear (disk : Disk) (place other : Place) :
    (disk.clear place).node? other = if place.text = other.text then none else disk.node? other :=
  Dict.get?_erase _ _ _

/-- There is a directory where a directory lies. -/
theorem isDirectory_iff {disk : Disk} {place : Place} :
    disk.isDirectory place = true ↔ disk.node? place = some .directory := by
  simp [isDirectory]

private theorem text_ne_of_isDirectory {disk : Disk} {place other : Place}
    (hplace : disk.isDirectory place = false) (hother : disk.isDirectory other = true) :
    place.text ≠ other.text := by
  intro heq
  have hsame : disk.node? place = disk.node? other := congrArg disk.nodes.get? heq
  rw [isDirectory, hsame, ← isDirectory, hother] at hplace
  cases hplace

/-- Every directory of one disk is a directory of another. -/
def Keeps (disk disk' : Disk) : Prop :=
  ∀ place, disk.isDirectory place = true → disk'.isDirectory place = true

theorem Keeps.refl (disk : Disk) : disk.Keeps disk := fun _ h => h

theorem Keeps.trans {disk disk' disk'' : Disk} (h : disk.Keeps disk') (h' : disk'.Keeps disk'') :
    disk.Keeps disk'' :=
  fun place hplace => h' place (h place hplace)

/-- Where no directory lies something may be put. -/
theorem keeps_put {disk : Disk} {place : Place} (h : disk.isDirectory place = false)
    (node : DiskNode) : disk.Keeps (disk.put place node) := by
  intro other hother
  have hne := text_ne_of_isDirectory h hother
  rw [isDirectory_iff] at hother ⊢
  rw [node?_put, if_neg hne, hother]

/-- A place where no directory lies may be cleared. -/
theorem keeps_clear {disk : Disk} {place : Place} (h : disk.isDirectory place = false) :
    disk.Keeps (disk.clear place) := by
  intro other hother
  have hne := text_ne_of_isDirectory h hother
  rw [isDirectory_iff] at hother ⊢
  rw [node?_clear, if_neg hne, hother]

/-! ## Following paths -/

/-- Directories lie at all places above a place. -/
def Grounded (disk : Disk) : Place → Prop
  | [] => True
  | _ :: above => disk.isDirectory above = true ∧ disk.Grounded above

/-- A name leads from a grounded directory to a grounded place. -/
theorem Grounded.step {disk : Disk} {place : Place} (h : disk.Grounded place)
    (hplace : disk.isDirectory place = true) (name : String) :
    disk.Grounded (place.step name) := by
  unfold Place.step
  split
  · exact h
  · split
    · cases place with
      | nil => exact h
      | cons _ above => exact h.2
    · exact ⟨hplace, h⟩

/-- A place stays grounded while the directories are kept. -/
theorem Grounded.keep {disk disk' : Disk} (hkeeps : disk.Keeps disk') {place : Place}
    (h : disk.Grounded place) : disk'.Grounded place := by
  induction place with
  | nil => trivial
  | cons _ above ih => exact ⟨hkeeps above h.1, ih h.2⟩

private theorem isBarred_of_grounded {disk disk' : Disk} {place : Place} (h : disk.Grounded place)
    (h' : disk'.Grounded place) : disk'.isBarred place = disk.isBarred place := by
  cases place with
  | nil => rfl
  | cons name above =>
    have hnode := isDirectory_iff.1 h.1
    have hnode' := isDirectory_iff.1 h'.1
    simp only [isBarred, hnode, hnode']

private theorem followNames_cons {disk : Disk} {place target : Place} {name : String}
    {rest : List String} (h : disk.followNames place (name :: rest) = .found target) :
    disk.isDirectory place = true ∧ ¬ nameLimit < name.utf8ByteSize ∧
      disk.followNames (place.step name) rest = .found target := by
  rw [followNames] at h
  split at h
  · cases h
  · next hnode =>
    split at h
    · cases h
    · next hlimit => exact ⟨isDirectory_iff.2 hnode, hlimit, h⟩
  · cases h

private theorem followNames_keep {disk disk' : Disk} (hkeeps : disk.Keeps disk')
    {place target : Place} {names : List String}
    (h : disk.followNames place names = .found target) :
    disk'.followNames place names = .found target := by
  induction names generalizing place with
  | nil => exact h
  | cons name rest ih =>
    obtain ⟨hplace, hlimit, hrest⟩ := followNames_cons h
    have hnode := isDirectory_iff.1 (hkeeps place hplace)
    simp only [followNames, hnode, if_neg hlimit]
    exact ih hrest

private theorem locateNames_keep {disk disk' : Disk} (hkeeps : disk.Keeps disk')
    {place target : Place} (hground : disk.Grounded place) {names : List String}
    (hfollow : disk.followNames place names = .found target) {found : Place}
    (hlocate : disk.locateNames place names = some found) :
    found = target ∧ disk.Grounded target ∧ disk'.locateNames place names = some target := by
  induction names generalizing place with
  | nil =>
    cases hfollow
    have hfound := hlocate
    rw [locateNames] at hfound
    split at hfound
    · cases hfound
    · cases hfound
      exact ⟨rfl, hground, hlocate⟩
  | cons name rest ih =>
    obtain ⟨hplace, -, hrest⟩ := followNames_cons hfollow
    have hnext := hground.step hplace name
    have hbarred := isBarred_of_grounded hnext (hnext.keep hkeeps)
    simp only [locateNames] at hlocate ⊢
    rw [hbarred]
    split at hlocate
    · cases hlocate
    · next hpass =>
      rw [if_neg hpass]
      exact ih hnext hrest hlocate

/-- A path leads where it led while the directories are kept. -/
theorem follow_keep {disk disk' : Disk} (hkeeps : disk.Keeps disk') {path : String}
    {target : Place} (h : disk.follow path = .found target) :
    disk'.follow path = .found target := by
  rw [follow] at h ⊢
  split at h
  · next husable =>
    rw [if_pos husable]
    exact followNames_keep hkeeps h
  · cases h

/-- The engine finds what a path leads to, if it takes the path at all, and does so on while the
directories are kept. -/
theorem locate?_keep {disk disk' : Disk} (hkeeps : disk.Keeps disk') {path : String}
    {target found : Place} (hfollow : disk.follow path = .found target)
    (hlocate : disk.locate? path = some found) :
    found = target ∧ disk.Grounded target ∧ disk'.locate? path = some target := by
  rw [follow] at hfollow
  rw [locate?] at hlocate ⊢
  split at hfollow
  · split at hlocate
    · next hnames =>
      have hground : disk.Grounded [] := trivial
      rw [if_pos hnames]
      exact locateNames_keep hkeeps hground hfollow hlocate
    · cases hlocate
  · cases hfollow

end Disk

end PrefStore
