import Mathlib.Logic.Relation
import PrefStore.Backup.Transfer
import PrefStore.Dict.Lemmas
import PrefStore.Legacy.Migration
import PrefStore.Proofs.Except
import PrefStore.Proofs.Snapshot.Agreement

/-!
# Lawful edits

A draft can be changed by its own operations only, and an `Edit` is a body together with the
proof that it makes no other changes. Whatever such a body does, the draft it ends with holds
storable values wherever it was written to, and its reserved keys are as they were, except
that the migration flag may have been set.
-/

namespace PrefStore

/-- A client may write any key that is neither empty nor reserved. -/
theorem checkKey_eq_ok_iff {key : String} :
    checkKey key = .ok () ↔ key ≠ "" ∧ isReserved key = false := by
  unfold checkKey
  split
  · next h => simp [h]
  · next h => split <;> simp_all

@[simp] theorem isReserved_migrationKey : isReserved migrationKey = true := by
  simp [isReserved]

namespace Draft

/-- A write succeeds exactly with a key and a value that may be stored. -/
theorem put_eq_ok_iff {d e : Draft} {key : String} {value : Value} :
    d.put key value = .ok e ↔
      (key ≠ "" ∧ isReserved key = false) ∧ value.storable = true ∧
        e = ⟨d.entries.insert key value, d.touched.add key⟩ := by
  rw [← checkKey_eq_ok_iff, ← Value.validate_eq_ok_iff, put]
  cases checkKey key with
  | error cause => simp [bind, Except.bind]
  | ok _ => cases value.validate <;> simp [bind, Except.bind, eq_comm]

/-- A removal succeeds exactly with a key that may be written. -/
theorem remove_eq_ok_iff {d e : Draft} {key : String} :
    d.remove key = .ok e ↔
      (key ≠ "" ∧ isReserved key = false) ∧ e = ⟨d.entries.erase key, d.touched.add key⟩ := by
  rw [← checkKey_eq_ok_iff, remove]
  cases checkKey key <;> simp [bind, Except.bind, eq_comm]

/-- What can be done to a draft. -/
inductive Change : Draft → Draft → Prop where
  | put {d e : Draft} {key : String} {value : Value} (h : d.put key value = .ok e) : Change d e
  | remove {d e : Draft} {key : String} (h : d.remove key = .ok e) : Change d e
  | clear (d : Draft) : Change d d.clear
  | markMigrated (d : Draft) : Change d d.markMigrated

/-- A draft leads to every draft that a sequence of changes makes of it. -/
def Leads : Draft → Draft → Prop := Relation.ReflTransGen Change

theorem Leads.refl (d : Draft) : d.Leads d := Relation.ReflTransGen.refl

theorem Leads.trans {d e f : Draft} (h : d.Leads e) (h' : e.Leads f) : d.Leads f :=
  Relation.ReflTransGen.trans h h'

/-- A draft leads to what one change makes of it. -/
theorem Change.leads {d e : Draft} (h : d.Change e) : d.Leads e := Relation.ReflTransGen.single h

private theorem Change.mem_touched {d e : Draft} (h : d.Change e) {key : String}
    (hkey : key ∈ d.touched.items) : key ∈ e.touched.items := by
  cases h with
  | put h =>
    obtain ⟨-, -, rfl⟩ := put_eq_ok_iff.1 h
    exact StringSet.mem_items_add.2 (.inr hkey)
  | remove h =>
    obtain ⟨-, rfl⟩ := remove_eq_ok_iff.1 h
    exact StringSet.mem_items_add.2 (.inr hkey)
  | clear => exact StringSet.mem_items_foldl_add.2 (.inr hkey)
  | markMigrated => exact hkey

/-- What may stand at a key after changes: what stood there before, the migration flag, or
something that was written there and can be stored. -/
inductive Fits (d e : Draft) (key : String) : Prop where
  | kept (h : e.entries.get? key = d.entries.get? key)
  | marked (hkey : key = migrationKey) (h : e.entries.get? key = some (.boolean true))
  | written (hkey : isReserved key = false) (hmem : key ∈ e.touched.items)
      (h : ∀ v, e.entries.get? key = some v → v.storable = true)

/-- The keys that a client sees. -/
theorem mem_keys_iff {d : Draft} {key : String} :
    key ∈ d.keys ↔ isReserved key = false ∧ ∃ v, d.entries.get? key = some v := by
  simp only [keys, Snapshot.visible, List.mem_map, List.mem_filter, Bool.not_eq_true']
  constructor
  · rintro ⟨⟨k, v⟩, ⟨hmem, hkey⟩, rfl⟩
    exact ⟨hkey, v, Dict.mem_entries_iff.1 hmem⟩
  · rintro ⟨hkey, v, hv⟩
    exact ⟨(key, v), ⟨Dict.mem_entries_iff.2 hv, hkey⟩, rfl⟩

/-- A draft that is cleared keeps its reserved keys and no others. -/
theorem get?_clear (d : Draft) (key : String) :
    d.clear.entries.get? key = if isReserved key then d.entries.get? key else none :=
  Dict.get?_filterKeys _ _ _

/-- The keys that clients see count as written when a draft is cleared. -/
theorem mem_touched_clear {d : Draft} {key : String} :
    key ∈ d.clear.touched.items ↔ key ∈ d.keys ∨ key ∈ d.touched.items :=
  StringSet.mem_items_foldl_add

/-- One change leaves something fitting at every key. -/
theorem Change.fits {d e : Draft} (h : d.Change e) (key : String) : d.Fits e key := by
  cases h with
  | @put _ k value h =>
    obtain ⟨⟨-, hk⟩, hvalue, rfl⟩ := put_eq_ok_iff.1 h
    by_cases hkey : k = key
    · subst hkey
      refine .written hk (StringSet.mem_items_add.2 (.inl rfl)) fun v hv => ?_
      rw [Dict.get?_insert_self, Option.some.injEq] at hv
      exact hv ▸ hvalue
    · exact .kept (by rw [Dict.get?_insert, if_neg hkey])
  | @remove _ k h =>
    obtain ⟨⟨-, hk⟩, rfl⟩ := remove_eq_ok_iff.1 h
    by_cases hkey : k = key
    · subst hkey
      refine .written hk (StringSet.mem_items_add.2 (.inl rfl)) fun v hv => ?_
      simp [Dict.get?_erase] at hv
    · exact .kept (by rw [Dict.get?_erase, if_neg hkey])
  | clear =>
    have hclear := d.get?_clear key
    cases hkey : isReserved key with
    | true => exact .kept (by simp [hclear, hkey])
    | false =>
      cases hd : d.entries.get? key with
      | none => exact .kept (by simp [hclear, hkey, hd])
      | some v =>
        refine .written hkey ?_ fun w hw => ?_
        · exact mem_touched_clear.2 (.inl (mem_keys_iff.2 ⟨hkey, v, hd⟩))
        · simp [hclear, hkey] at hw
  | markMigrated =>
    by_cases hkey : migrationKey = key
    · subst hkey
      exact .marked rfl (by simp [Draft.markMigrated])
    · exact .kept (by simp [Draft.markMigrated, Dict.get?_insert, hkey])

/-- However many changes are made, they leave something fitting at every key. -/
theorem Leads.fits {d e : Draft} (h : d.Leads e) (key : String) : d.Fits e key := by
  induction h with
  | refl => exact .kept rfl
  | tail _ hchange ih =>
    cases hchange.fits key with
    | marked hkey hflag => exact .marked hkey hflag
    | written hkey hmem hstorable => exact .written hkey hmem hstorable
    | kept hkept =>
      cases ih with
      | kept h => exact .kept (hkept.trans h)
      | marked hkey h => exact .marked hkey (hkept.trans h)
      | written hkey hmem h =>
        exact .written hkey (hchange.mem_touched hmem) fun v hv => h v (hkept ▸ hv)

/-- The migration flag is never unset. -/
theorem Leads.isMigrated {d e : Draft} (h : d.Leads e) (hflag : d.isMigrated = true) :
    e.isMigrated = true := by
  simp only [Draft.isMigrated, Snapshot.isMigrated, decide_eq_true_eq] at hflag ⊢
  cases h.fits migrationKey with
  | kept h => exact h.trans hflag
  | marked _ h => exact h
  | written hkey => simp at hkey

end Draft

/-- The entries of a draft are followed carefully by those of the drafts it leads to. -/
theorem Draft.Leads.careful {d e : Draft} (h : d.Leads e) : d.entries.Careful e.entries := by
  intro key v hv
  cases h.fits key with
  | kept hkept => exact .inl (hkept ▸ hv)
  | marked _ hflag =>
    rw [hflag, Option.some.injEq] at hv
    exact .inr (hv ▸ rfl)
  | written _ _ hstorable => exact .inr (hstorable v hv)

/-- The body of an edit that changes its draft by the operations of drafts only. -/
structure Edit (ν ε : Type) where
  body : EditBody ν ε
  leads : ∀ {draft e : Draft} {notes notes' : ν},
    body draft notes = (.ok e, notes') → draft.Leads e

namespace Edit

/-- A step without notes as an edit. -/
def ofStep {ε : Type} (step : Draft → Except ε Draft)
    (h : ∀ {d e : Draft}, step d = .ok e → d.Leads e) : Edit Unit ε where
  body := .ofStep step
  leads := by
    intro draft e notes notes' hbody
    exact h (mapError_eq_ok_iff.1 (congrArg Prod.fst hbody))

/-- Stores a value at a key. -/
def put (key : String) (value : Value) : Edit Unit StoreError :=
  ofStep (·.put key value) fun h => (Draft.Change.put h).leads

/-- Removes a key. -/
def remove (key : String) : Edit Unit StoreError :=
  ofStep (·.remove key) fun h => (Draft.Change.remove h).leads

/-- Removes every entry that clients see. -/
def clear : Edit Unit StoreError :=
  ofStep (fun draft => .ok draft.clear) fun h => by
    cases h
    exact (Draft.Change.clear _).leads

end Edit

/-! ## Scripts -/

/-- Every operation of a script changes its draft lawfully. -/
theorem EditStep.run_leads (d : Draft) (step : EditStep) : d.Leads (step.run d).2 := by
  cases step with
  | put key value =>
    cases h : d.put key value with
    | error cause => simpa [EditStep.run, h] using Draft.Leads.refl d
    | ok next => simpa [EditStep.run, h] using (Draft.Change.put h).leads
  | remove key =>
    cases h : d.remove key with
    | error cause => simpa [EditStep.run, h] using Draft.Leads.refl d
    | ok next => simpa [EditStep.run, h] using (Draft.Change.remove h).leads
  | clear => exact (Draft.Change.clear d).leads
  | markMigrated => exact (Draft.Change.markMigrated d).leads
  | _ => exact .refl d

/-- So does a whole script. -/
theorem Script.run_leads {script : Script} {d e : Draft} {results : List StepResult}
    (h : script.run d = (.ok e, results)) : d.Leads e := by
  induction script generalizing d results with
  | nil =>
    cases h
    exact .refl _
  | cons line rest ih =>
    unfold Script.run at h
    split at h
    · next hnil => cases hnil
    · cases h
    · next d _ _ step _ _ _ heq =>
      cases heq
      have hstep := step.run_leads d
      split at h
      · cases h
      · next next hrun _ =>
        rw [Prod.mk.injEq] at h
        rw [hrun] at hstep
        exact hstep.trans (ih (Prod.ext h.1 rfl))

/-- A script as an edit. -/
def Script.edit (script : Script) : Edit (List StepResult) StoreError :=
  ⟨script.body, Script.run_leads⟩

/-! ## Imports -/

/-- Entries are put into a draft lawfully. -/
theorem Draft.putAll_leads {d e : Draft} {entries : List (String × Value)}
    (h : d.putAll entries = .ok e) : d.Leads e := by
  induction entries generalizing d with
  | nil =>
    cases h
    exact .refl _
  | cons entry rest ih =>
    obtain ⟨key, value⟩ := entry
    rw [putAll, List.foldlM_cons] at h
    obtain ⟨next, hput, hrest⟩ := bind_eq_ok_iff.1 h
    exact (Change.put (mapError_eq_ok_iff.1 hput)).leads.trans (ih hrest)

/-- All entries of a draft are replaced lawfully. -/
theorem Draft.replace_leads (entries : List (String × Value)) {d e : Draft}
    (h : d.clear.putAll entries = .ok e) : d.Leads e :=
  (Change.clear d).leads.trans (putAll_leads h)

/-- A replacement of all entries as an edit. -/
def Edit.replace (entries : List (String × Value)) : Edit Unit ImportError :=
  .ofStep (·.clear.putAll entries) (Draft.replace_leads entries)

private theorem Draft.putRecord_leads {d e : Draft} {pair : LegacyRecord}
    (h : d.putRecord pair = .ok e) : d.Leads e := by
  obtain ⟨value, -, hput⟩ := bind_eq_ok_iff.1 h
  exact (Change.put (mapError_eq_ok_iff.1 hput)).leads

/-- Legacy pairs are put into a draft lawfully. -/
theorem Draft.putRecords_leads (d : Draft) (pairs : List LegacyRecord) :
    d.Leads (d.putRecords pairs).1 := by
  unfold putRecords
  generalize (0 : Nat) = imported
  induction pairs generalizing d imported with
  | nil => exact .refl d
  | cons pair rest ih =>
    rw [List.foldl_cons]
    cases hpair : d.putRecord pair with
    | error cause => simpa only [hpair] using ih d imported
    | ok next => simpa only [hpair] using (putRecord_leads hpair).trans (ih next (imported + 1))

/-- An import of pairs as an edit. -/
def Edit.pairs (pairs : List LegacyRecord) : Edit Nat ImportError where
  body := Observed.pairsBody pairs
  leads := by
    intro draft e notes notes' h
    cases h
    exact (Draft.Change.clear draft).leads.trans (Draft.putRecords_leads _ _)

/-! ## Migration -/

private theorem Draft.putRow_leads {d e : Draft} {stringToLong : StringSet}
    {row : Except ImportError LegacyRecord} (h : d.putRow stringToLong row = .ok e) :
    d.Leads e := by
  obtain ⟨record, -, h⟩ := bind_eq_ok_iff.1 h
  obtain ⟨value, -, hput⟩ := bind_eq_ok_iff.1 h
  exact (Change.put (mapError_eq_ok_iff.1 hput)).leads

/-- Legacy rows are put into a draft lawfully. -/
theorem Draft.putRows_leads (d : Draft) (stringToLong : StringSet)
    (rows : List (Except ImportError LegacyRecord)) :
    d.Leads (d.putRows stringToLong rows).1 := by
  unfold putRows
  generalize ((0 : Nat), (0 : Nat)) = counts
  induction rows generalizing d counts with
  | nil => exact .refl d
  | cons row rest ih =>
    rw [List.foldl_cons]
    cases hrow : d.putRow stringToLong row with
    | error cause => simpa only [hrow] using ih d _
    | ok next => simpa only [hrow] using (putRow_leads hrow).trans (ih next _)

namespace Migration

/-- The edit that brings legacy rows in. -/
def rowsEdit (rows : List (Except ImportError LegacyRecord)) (stringToLong : StringSet) :
    Edit MigrationNotes StoreError where
  body := rowsBody rows stringToLong
  leads := by
    intro draft e notes notes' h
    unfold rowsBody at h
    split at h
    · cases h
      exact .refl draft
    · cases h
      exact (draft.putRows_leads stringToLong rows).trans (Draft.Change.markMigrated _).leads

/-- The edit that sets the flag on its own. -/
def flagEdit : Edit Bool StoreError where
  body := flagBody
  leads := by
    intro draft e notes notes' h
    cases h
    exact (Draft.Change.markMigrated draft).leads

end Migration

end PrefStore
