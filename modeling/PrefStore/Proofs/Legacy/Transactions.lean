import PrefStore.Proofs.Store.Acts
import PrefStore.Proofs.Store.Commit
import PrefStore.Proofs.Store.Notify

/-!
# The transactions of a migration

Nothing that is done with a store unsets its flag. The two transactions of a migration set it
when they are committed and note whether it was set before; if it was, they change nothing and
call nobody, whether they are committed or not.
-/

namespace PrefStore

variable {β ρ ν ε : Type} [Backend β]

namespace Store

variable [Transactional β] [IncludesStore ε]

/-- What a committed edit made of the contents is what they become. -/
theorem isMigrated_of_commit {s s' : Store β} {edit : Edit ν ε} {notes notes' : ν}
    {touched : StringSet} (h : s.commit edit.body notes = (.ok touched, notes', s')) :
    ∃ found e, edit.body s.draft found = (.ok e, notes') ∧
      s'.contents.isMigrated = e.entries.isMigrated := by
  obtain ⟨found, e, hrun, -, -, hagrees⟩ := exists_draft_of_commit h
  exact ⟨found, e, hrun, hagrees.isMigrated⟩

/-- No edit unsets the flag. -/
theorem isMigrated_commit {s : Store β} (edit : Edit ν ε) (notes : ν)
    (hflag : s.contents.isMigrated = true) :
    (s.commit edit.body notes).2.2.contents.isMigrated = true := by
  cases hcommit : s.commit edit.body notes with
  | mk outcome rest =>
    obtain ⟨notes', s'⟩ := rest
    cases outcome with
    | error cause =>
      have hkept : s'.contents = s.contents := contents_of_commit_error hcommit
      rw [hkept]
      exact hflag
    | ok touched =>
      obtain ⟨found, e, hrun, hafter⟩ := isMigrated_of_commit hcommit
      exact hafter.trans ((edit.leads hrun).isMigrated hflag)

end Store

namespace Observed

variable [Transactional β]

/-- No act unsets the flag. -/
theorem Act.isMigrated {o o' : Observed β ρ} (h : o.Act o')
    (hflag : o.store.contents.isMigrated = true) : o'.store.contents.isMigrated = true := by
  cases h with
  | commit edit notes => exact Store.isMigrated_commit edit notes hflag
  | refresh =>
    have hrefreshed := o.store.refresh_refreshed
    unfold Observed.refresh
    generalize o.store.refresh = result at hrefreshed ⊢
    cases hrefreshed with
    | unchanged _ hkept | renewed _ hkept =>
      exact (congrArg Snapshot.isMigrated hkept).trans hflag
  | listen hbackend _ =>
    have hkept : o'.store.contents = o.store.contents := congrArg Transactional.contents hbackend
    rw [hkept]
    exact hflag

/-- Nothing that is done with a store unsets its flag. -/
theorem Acts.isMigrated {o o' : Observed β ρ} (h : o.Acts o')
    (hflag : o.store.contents.isMigrated = true) : o'.store.contents.isMigrated = true :=
  h.preserves (P := fun o => o.store.contents.isMigrated = true) Act.isMigrated hflag

variable [Conduct ρ] [IncludesStore ε]

/-- A store with the contents and the calls that it had. -/
def Same (o o' : Observed β ρ) : Prop :=
  o'.store.contents = o.store.contents ∧ o'.calls = o.calls

/-- An edit that fails leaves the contents as they are and calls nobody. -/
theorem same_of_edit_error {o o' : Observed β ρ} {body : EditBody ν ε} {notes notes' : ν}
    {cause : Halt ε} (h : o.edit body notes = (.error cause, notes', o')) : o.Same o' := by
  obtain ⟨s, hcommit, rfl⟩ := edit_eq_error_iff.1 h
  exact ⟨Store.contents_of_commit_error hcommit, rfl⟩

/-- The flag after a committed edit is set if the body left it set. -/
theorem isMigrated_of_edit {o o' : Observed β ρ} (edit : Edit ν ε) {notes notes' : ν}
    (h : o.edit edit.body notes = (.ok (), notes', o')) :
    ∃ found e, edit.body o.store.draft found = (.ok e, notes') ∧
      (e.entries.isMigrated = true → o'.store.contents.isMigrated = true) := by
  obtain ⟨touched, s, hcommit, rfl⟩ := edit_eq_ok_iff.1 h
  obtain ⟨found, e, hrun, hflag⟩ := Store.isMigrated_of_commit hcommit
  refine ⟨found, e, hrun, fun hset => ?_⟩
  exact (notify_acts (respond_acts _ 0) touched { o with store := s }).isMigrated
    (hflag.trans hset)

private theorem same_of_edit_idle {o o' : Observed β ρ} {body : EditBody ν ε} {notes notes' : ν}
    (hidle : ∀ {found e notes'}, body o.store.draft found = (.ok e, notes') → e = o.store.draft)
    (h : o.edit body notes = (.ok (), notes', o')) : o.Same o' := by
  obtain ⟨touched, s, hcommit, rfl⟩ := edit_eq_ok_iff.1 h
  have houtcome := o.store.commit_outcome body notes
  rw [hcommit] at houtcome
  cases houtcome with
  | committed hrefusal hloss hrerun hrun hagrees hsame =>
    obtain rfl := hidle hrun
    exact ⟨hsame rfl, rfl⟩

end Observed

/-- An edit that sets the flag and does nothing if it was set before, which it notes. -/
structure Edit.Marks [IncludesStore ε] (edit : Edit ν ε) (already : ν → Bool) : Prop where
  noted {d e : Draft} {notes notes' : ν} (h : edit.body d notes = (.ok e, notes')) :
    already notes' = d.isMigrated
  sets {d e : Draft} {notes notes' : ν} (h : edit.body d notes = (.ok e, notes')) :
    e.isMigrated = true
  idle {d e : Draft} {notes notes' : ν} (h : edit.body d notes = (.ok e, notes'))
    (hflag : d.isMigrated = true) : e = d

namespace Edit.Marks

variable [Transactional β] [Conduct ρ] [IncludesStore ε] {edit : Edit ν ε} {already : ν → Bool}
  {o o' : Observed β ρ} {notes notes' : ν}

/-- Where such an edit is committed the flag is set, and it is noted whether it was before. -/
theorem isMigrated_of_edit (hmarks : edit.Marks already)
    (h : o.edit edit.body notes = (.ok (), notes', o')) :
    already notes' = o.store.contents.isMigrated ∧ o'.store.contents.isMigrated = true := by
  obtain ⟨found, e, hrun, hafter⟩ := Observed.isMigrated_of_edit edit h
  exact ⟨hmarks.noted hrun, hafter (hmarks.sets hrun)⟩

/-- Such an edit leaves a store alone, however it ends, unless it sets a flag that was not set. -/
theorem same_or_sets (hmarks : edit.Marks already) {answer : Except (Halt ε) Unit}
    (h : o.edit edit.body notes = (answer, notes', o')) :
    o.Same o' ∨
      o.store.contents.isMigrated = false ∧ o'.store.contents.isMigrated = true := by
  cases answer with
  | error cause => exact .inl (Observed.same_of_edit_error h)
  | ok _ =>
    cases hflag : o.store.contents.isMigrated with
    | true => exact .inl (Observed.same_of_edit_idle (fun hrun => hmarks.idle hrun hflag) h)
    | false => exact .inr ⟨rfl, (hmarks.isMigrated_of_edit h).2⟩

end Edit.Marks

private theorem Draft.markMigrated_of_isMigrated {d : Draft} (h : d.isMigrated = true) :
    d.markMigrated = d := by
  have hflag : d.entries.get? migrationKey = some (.boolean true) := by
    simpa [Draft.isMigrated, Snapshot.isMigrated] using h
  have hentries : d.entries.insert migrationKey (.boolean true) = d.entries := by
    refine Dict.ext_get? fun key => ?_
    rw [Dict.get?_insert]
    split
    · next heq => rw [← heq, hflag]
    · rfl
  rw [Draft.markMigrated, hentries]

@[simp] theorem Draft.isMigrated_markMigrated (d : Draft) : d.markMigrated.isMigrated = true := by
  simp [Draft.markMigrated, Draft.isMigrated, Snapshot.isMigrated]

namespace Migration

private theorem rowsBody_cases {rows : List (Except ImportError LegacyRecord)}
    {stringToLong : StringSet} {d e : Draft} (notes : MigrationNotes) {notes' : MigrationNotes}
    (h : rowsBody rows stringToLong d notes = (.ok e, notes')) :
    (d.isMigrated = true ∧ e = d ∧ notes'.already = true) ∨
      (d.isMigrated = false ∧ e = (d.putRows stringToLong rows).1.markMigrated ∧
        notes'.already = false) := by
  unfold rowsBody at h
  split at h
  · next hset =>
    cases h
    exact .inl ⟨hset, rfl, rfl⟩
  · next hunset =>
    cases h
    exact .inr ⟨Bool.eq_false_iff.2 hunset, rfl, rfl⟩

/-- Bringing rows in sets the flag. -/
theorem rowsEdit_marks (rows : List (Except ImportError LegacyRecord))
    (stringToLong : StringSet) :
    (rowsEdit rows stringToLong).Marks MigrationNotes.already := by
  constructor
  case noted =>
    intro d e notes notes' h
    rcases rowsBody_cases notes h with ⟨hflag, -, hnoted⟩ | ⟨hflag, -, hnoted⟩
    · rw [hnoted, hflag]
    · rw [hnoted, hflag]
  case sets =>
    intro d e notes notes' h
    rcases rowsBody_cases notes h with ⟨hflag, rfl, -⟩ | ⟨-, rfl, -⟩
    · exact hflag
    · exact Draft.isMigrated_markMigrated _
  case idle =>
    intro d e notes notes' h hflag
    rcases rowsBody_cases notes h with ⟨-, rfl, -⟩ | ⟨hunset, -⟩
    · rfl
    · rw [hflag] at hunset
      cases hunset

/-- Setting the flag on its own sets it. -/
theorem flagEdit_marks : flagEdit.Marks id := by
  constructor
  case noted =>
    intro d e notes notes' h
    exact (congrArg Prod.snd h).symm
  case sets =>
    intro d e notes notes' h
    obtain rfl : d.markMigrated = e := Except.ok.inj (congrArg Prod.fst h)
    exact d.isMigrated_markMigrated
  case idle =>
    intro d e notes notes' h hflag
    obtain rfl : d.markMigrated = e := Except.ok.inj (congrArg Prod.fst h)
    exact Draft.markMigrated_of_isMigrated hflag

variable [Conduct ρ]

/-- Bringing rows in is an edit that is answered by its notes. -/
theorem writeRows_eq {rows : List (Except ImportError LegacyRecord)} {stringToLong : StringSet}
    {o o' : Observed β ρ} {answer : Option MigrationNotes}
    (h : writeRows rows stringToLong o = (answer, o')) :
    ∃ outcome notes, o.edit (rowsEdit rows stringToLong).body ⟨0, 0, false⟩ =
        (outcome, notes, o') ∧ ∀ found, answer = some found → outcome = .ok () ∧ found = notes := by
  unfold writeRows at h
  split at h
  · next notes _ hedit =>
    cases h
    exact ⟨.ok (), notes, hedit, fun _ heq => ⟨rfl, (Option.some.inj heq).symm⟩⟩
  · next hedit =>
    cases h
    exact ⟨_, _, hedit, nofun⟩

/-- Setting the flag on its own is an edit that is answered by its note. -/
theorem writeFlag_eq {o o' : Observed β ρ} {answer : Option Bool}
    (h : writeFlag o = (answer, o')) :
    ∃ outcome notes, o.edit flagEdit.body false = (outcome, notes, o') ∧
      ∀ found, answer = some found → outcome = .ok () ∧ found = notes := by
  unfold writeFlag at h
  split at h
  · next already _ hedit =>
    cases h
    exact ⟨.ok (), already, hedit, fun _ heq => ⟨rfl, (Option.some.inj heq).symm⟩⟩
  · next hedit =>
    cases h
    exact ⟨_, _, hedit, nofun⟩

variable [Transactional β]

/-- Rows that are brought in set the flag, and it is noted whether it was set before. -/
theorem isMigrated_of_writeRows {rows : List (Except ImportError LegacyRecord)}
    {stringToLong : StringSet} {o o' : Observed β ρ} {notes : MigrationNotes}
    (h : writeRows rows stringToLong o = (some notes, o')) :
    notes.already = o.store.contents.isMigrated ∧ o'.store.contents.isMigrated = true := by
  obtain ⟨_, _, hedit, hanswer⟩ := writeRows_eq h
  obtain ⟨rfl, rfl⟩ := hanswer notes rfl
  exact (rowsEdit_marks rows stringToLong).isMigrated_of_edit hedit

/-- A flag that is set on its own is set, and it is noted whether it was before. -/
theorem isMigrated_of_writeFlag {o o' : Observed β ρ} {already : Bool}
    (h : writeFlag o = (some already, o')) :
    already = o.store.contents.isMigrated ∧ o'.store.contents.isMigrated = true := by
  obtain ⟨_, _, hedit, hanswer⟩ := writeFlag_eq h
  obtain ⟨rfl, rfl⟩ := hanswer already rfl
  exact flagEdit_marks.isMigrated_of_edit hedit

/-- Rows that are not brought in leave the contents and call nobody. -/
theorem same_of_writeRows {rows : List (Except ImportError LegacyRecord)}
    {stringToLong : StringSet} {o o' : Observed β ρ}
    (h : writeRows rows stringToLong o = (none, o')) : o.Same o' := by
  unfold writeRows at h
  split at h
  · cases h
  · next hedit =>
    cases h
    exact Observed.same_of_edit_error hedit

/-- A flag that is not set on its own leaves the contents and calls nobody. -/
theorem same_of_writeFlag {o o' : Observed β ρ} (h : writeFlag o = (none, o')) : o.Same o' := by
  unfold writeFlag at h
  split at h
  · cases h
  · next hedit =>
    cases h
    exact Observed.same_of_edit_error hedit

end Migration

end PrefStore
