import Mathlib.Data.List.Nodup
import PrefStore.Proofs.Legacy.Reading
import PrefStore.Proofs.Legacy.Transactions
import PrefStore.Proofs.Store.Working

/-!
# Faulty rows and failing commits

A migration brings in the entries of all good rows, in the order of the rows, and counts the
others. Where the keys of the good rows differ their order is of no account, and bad rows are only
counted. A migration whose commit fails sets the flag on its own, and if that fails too it leaves
the store alone and keeps the legacy database.
-/

namespace PrefStore

open Migration

/-- One list comes from another when some of the items that meet a condition are dropped. -/
inductive Thinned {α : Type} (droppable : α → Prop) : List α → List α → Prop where
  | nil : Thinned droppable [] []
  | keep (a : α) {items items' : List α} (h : Thinned droppable items items') :
      Thinned droppable (a :: items) (a :: items')
  | drop {a : α} (ha : droppable a) {items items' : List α} (h : Thinned droppable items items') :
      Thinned droppable (a :: items) items'

/-- What a list brings in is not changed by dropping items that bring nothing in. -/
theorem Thinned.filterMap_eq {α γ : Type} {f : α → Option γ} {droppable : α → Prop}
    (hnone : ∀ a, droppable a → f a = none) {items items' : List α}
    (h : Thinned droppable items items') : items'.filterMap f = items.filterMap f := by
  induction h with
  | nil => rfl
  | keep a _ ih => rw [List.filterMap_cons, List.filterMap_cons, ih]
  | drop ha _ ih => rw [ih, List.filterMap_cons_none (hnone _ ha)]

namespace Draft

private theorem putEntry_comm (d : Draft) {entry entry' : String × Value} (h : entry.1 ≠ entry'.1) :
    (d.putEntry entry).putEntry entry' = (d.putEntry entry').putEntry entry := by
  have hcomm {α : Type} (s : Dict α) (v v' : α) :
      (s.insert entry.1 v).insert entry'.1 v' = (s.insert entry'.1 v').insert entry.1 v := by
    refine Dict.ext_get? fun key => ?_
    simp only [Dict.get?_insert]
    by_cases hkey : entry.1 = key
    · have hother : entry'.1 ≠ key := fun hother => h (hkey.trans hother.symm)
      simp only [hkey, hother, if_true, if_false]
    · simp only [hkey, if_false]
  exact congrArg₂ Draft.mk (hcomm d.entries entry.2 entry'.2) (hcomm d.touched () ())

private theorem foldl_putEntry_perm (d : Draft) {entries entries' : List (String × Value)}
    (hperm : entries.Perm entries') (hkeys : (entries.map Prod.fst).Nodup) :
    entries.foldl putEntry d = entries'.foldl putEntry d := by
  refine hperm.foldl_eq' (fun entry hentry entry' hentry' d => ?_) d
  by_cases hkey : entry.1 = entry'.1
  · rw [List.inj_on_of_nodup_map hkeys hentry hentry' hkey]
  · exact d.putEntry_comm hkey

end Draft

variable {β ρ : Type} [Backend β]

namespace Observed

variable [Transactional β]

/-- One store comes from another by the migration of certain entries: they are written over the
contents in their order, the flag is set, and the listeners are called for their keys. -/
structure Migrated (o o' : Observed β ρ) (entries : List (String × Value)) : Prop where
  published : o'.store.published =
    (entries.foldl (fun s entry => s.insert entry.1 entry.2) o.store.contents).insert
      migrationKey (.boolean true)
  contents : o'.store.contents.Agrees o'.store.published
  notified : o.Notified o' (· ∈ entries.map Prod.fst)

/-- What writes entries and sets the flag migrates the entries. -/
theorem Wrote.migrated {o o' : Observed β ρ} {entries : List (String × Value)}
    (h : o.Wrote o' (entries.foldl Draft.putEntry o.store.draft).markMigrated) :
    o.Migrated o' entries where
  published := by
    rw [h.published, Draft.markMigrated, Draft.entries_foldl_putEntry]
    rfl
  contents := h.agrees
  notified := h.notified.congr fun key => by
    rw [Draft.markMigrated, Draft.mem_touched_foldl_putEntry]
    exact or_iff_left List.not_mem_nil

/-- A migration of a store that was left alone is one of the store before. -/
theorem Untouched.migrated {o o₁ o' : Observed β ρ} (h : Untouched o o₁)
    {entries : List (String × Value)} (h' : o₁.Migrated o' entries) : o.Migrated o' entries where
  published := h.contents ▸ h'.published
  contents := h'.contents
  notified := by
    have hnotified := h'.notified
    rw [Notified, h.calls, h.listeners] at hnotified
    exact hnotified

end Observed

namespace Migration

variable [Conduct ρ] {o : Observed β ρ}

private theorem run_of_not_written (hpublished : o.store.published.isMigrated = false)
    {rows : List (Except ImportError LegacyRecord)} {stringToLong : StringSet}
    {o₁ o' : Observed β ρ} {flag : Option Bool}
    (hwrite : writeRows rows stringToLong o = (none, o₁)) (hflag : writeFlag o₁ = (flag, o')) :
    Migration.run (.rows rows) stringToLong o = (afterFailure rows.length flag, o') := by
  have hpublished' : o.store.isMigrated = false := hpublished
  simp only [Migration.run, hpublished', Bool.false_eq_true, if_false, finish, hwrite, hflag]

variable [Transactional β]

/-- The rows of a migration into a store that works and is not migrated are written: the entries
of all rows that have one, and the flag. -/
private theorem writeRows_of_works (hworks : o.store.Works) (hquiet : Conduct.Quiet o.conduct)
    (hcontents : o.store.contents.isMigrated = false)
    (rows : List (Except ImportError LegacyRecord)) (stringToLong : StringSet) :
    let entries := rows.filterMap (rowUsable? stringToLong)
    ∃ o', writeRows rows stringToLong o =
        (some ⟨entries.length, rows.length - entries.length, false⟩, o') ∧
      o.Wrote o' (entries.foldl Draft.putEntry o.store.draft).markMigrated := by
  intro entries
  have hunset : o.store.draft.isMigrated = false := hcontents
  have hrun (found : MigrationNotes) :
      (rowsEdit rows stringToLong).body o.store.draft found =
        (.ok (entries.foldl Draft.putEntry o.store.draft).markMigrated,
          ⟨entries.length, rows.length - entries.length, false⟩) := by
    simp only [rowsEdit, rowsBody, hunset, Draft.putRows_eq, Bool.false_eq_true, if_false]
    rfl
  obtain ⟨o', hedit, hwrote⟩ :=
    Observed.edit_of_completes hworks hquiet (rowsEdit rows stringToLong) ⟨0, 0, false⟩ hrun
  have hbody : o.edit (rowsBody rows stringToLong) ⟨0, 0, false⟩ = _ := hedit
  exact ⟨o', by simp only [writeRows, hbody], hwrote⟩

private theorem writeRows_of_not_works (hfails : ¬ o.store.Works)
    (rows : List (Except ImportError LegacyRecord)) (stringToLong : StringSet) :
    ∃ o', writeRows rows stringToLong o = (none, o') ∧ Observed.Untouched o o' := by
  have hrun (found : MigrationNotes) :
      ∃ e notes', rowsBody rows stringToLong o.store.draft found = (.ok e, notes') := by
    unfold rowsBody
    split <;> exact ⟨_, _, rfl⟩
  obtain ⟨cause, notes', o', hedit, huntouched⟩ :=
    Observed.edit_of_not_works hfails (rowsEdit rows stringToLong) ⟨0, 0, false⟩ hrun
  have hbody : o.edit (rowsBody rows stringToLong) ⟨0, 0, false⟩ = _ := hedit
  exact ⟨o', by simp only [writeRows, hbody], huntouched⟩

private theorem writeFlag_of_works (hworks : o.store.Works) (hquiet : Conduct.Quiet o.conduct) :
    ∃ o', writeFlag o = (some o.store.contents.isMigrated, o') ∧ o.Migrated o' [] := by
  obtain ⟨o', hedit, hwrote⟩ :=
    Observed.edit_of_completes hworks hquiet flagEdit false fun _ => rfl
  have hbody : o.edit flagBody false = _ := hedit
  exact ⟨o', by simp only [writeFlag, hbody]; rfl, Observed.Wrote.migrated hwrote⟩

private theorem writeFlag_of_not_works (hfails : ¬ o.store.Works) :
    ∃ o', writeFlag o = (none, o') ∧ Observed.Untouched o o' := by
  have hrun (found : Bool) : ∃ e notes', flagBody o.store.draft found = (.ok e, notes') :=
    ⟨_, _, rfl⟩
  obtain ⟨cause, notes', o', hedit, huntouched⟩ :=
    Observed.edit_of_not_works hfails flagEdit false hrun
  have hbody : o.edit flagBody false = _ := hedit
  exact ⟨o', by simp only [writeFlag, hbody], huntouched⟩

/-- A migration into a store that works and is not migrated brings in the entries of all rows that
have one and sets the flag. -/
theorem run_of_works (hworks : o.store.Works) (hquiet : Conduct.Quiet o.conduct)
    (hpublished : o.store.published.isMigrated = false)
    (hcontents : o.store.contents.isMigrated = false)
    (rows : List (Except ImportError LegacyRecord)) (stringToLong : StringSet) :
    let entries := rows.filterMap (rowUsable? stringToLong)
    ∃ o', Migration.run (.rows rows) stringToLong o =
        (⟨.migrated ⟨rows.length, entries.length, rows.length - entries.length⟩, true⟩, o') ∧
      o.Wrote o' (entries.foldl Draft.putEntry o.store.draft).markMigrated := by
  obtain ⟨o', hwrite, hwrote⟩ := writeRows_of_works hworks hquiet hcontents rows stringToLong
  have hpublished' : o.store.isMigrated = false := hpublished
  refine ⟨o', ?_, hwrote⟩
  simp only [Migration.run, hpublished', Bool.false_eq_true, if_false, finish, hwrite]

/-- What a migration does. Into a store that is not migrated and has quiet listeners it brings the
entries of all good rows, if the commit goes through: they are written over the contents in the
order of the rows, the flag is set, the listeners are called for their keys, and the report counts
the good rows as migrated and all others as failed. Where the good rows have keys of their own the
order of the rows changes nothing, and dropping bad rows changes two counts and nothing else. If
the commit does not go through the store is left alone, and then only the flag is set, while all
rows count as failed; and if the flag cannot be committed either, the store is left alone still
and the legacy database is kept. -/
theorem run_is_exact (hquiet : Conduct.Quiet o.conduct)
    (hpublished : o.store.published.isMigrated = false)
    (hcontents : o.store.contents.isMigrated = false) (stringToLong : StringSet)
    (rows : List (Except ImportError LegacyRecord)) :
    (∀ row entry, rowUsable? stringToLong row = some entry ↔ GoodRow stringToLong row entry) ∧
    let good := rows.filterMap (rowUsable? stringToLong)
    (o.store.Works →
      ∃ o', Migration.run (.rows rows) stringToLong o =
          (⟨.migrated ⟨rows.length, good.length, rows.length - good.length⟩, true⟩, o') ∧
        o.Migrated o' good ∧
        (∀ rows', rows.Perm rows' → (good.map Prod.fst).Nodup →
          ∃ o'', Migration.run (.rows rows') stringToLong o =
            (⟨.migrated ⟨rows.length, good.length, rows.length - good.length⟩, true⟩, o'') ∧
              o'.Alike o'') ∧
        ∀ rows', Thinned (fun row => ∀ entry, ¬ GoodRow stringToLong row entry) rows rows' →
          ∃ o'', Migration.run (.rows rows') stringToLong o =
            (⟨.migrated ⟨rows'.length, good.length, rows'.length - good.length⟩, true⟩, o'') ∧
              o'.Alike o'') ∧
    (¬ o.store.Works →
      ∃ o₁, writeRows rows stringToLong o = (none, o₁) ∧ Observed.Untouched o o₁ ∧
        (o₁.store.Works → ∃ o', Migration.run (.rows rows) stringToLong o =
          (⟨.migrated ⟨rows.length, 0, rows.length⟩, true⟩, o') ∧ o.Migrated o' []) ∧
        (¬ o₁.store.Works → ∃ o', Migration.run (.rows rows) stringToLong o =
          (⟨.migrated ⟨rows.length, 0, rows.length⟩, false⟩, o') ∧ Observed.Untouched o o')) := by
  refine ⟨fun _ _ => rowUsable?_eq_some_iff, ?_, ?_⟩
  · intro hworks
    obtain ⟨o', hrun, hwrote⟩ :=
      run_of_works hworks hquiet hpublished hcontents rows stringToLong
    refine ⟨o', hrun, hwrote.migrated, ?_, ?_⟩
    · intro rows' hperm hkeys
      have hgood := hperm.filterMap (rowUsable? stringToLong)
      obtain ⟨o'', hrun', hwrote'⟩ :=
        run_of_works hworks hquiet hpublished hcontents rows' stringToLong
      rw [← hgood.length_eq, ← hperm.length_eq] at hrun'
      rw [← Draft.foldl_putEntry_perm _ hgood hkeys] at hwrote'
      exact ⟨o'', hrun', hwrote.alike hwrote'⟩
    · intro rows' hthinned
      have hgood : rows'.filterMap (rowUsable? stringToLong) =
          rows.filterMap (rowUsable? stringToLong) := by
        refine hthinned.filterMap_eq fun row hbad => ?_
        exact Option.eq_none_iff_forall_not_mem.2 fun entry hentry =>
          hbad entry (rowUsable?_eq_some_iff.1 hentry)
      obtain ⟨o'', hrun', hwrote'⟩ :=
        run_of_works hworks hquiet hpublished hcontents rows' stringToLong
      rw [hgood] at hrun' hwrote'
      exact ⟨o'', hrun', hwrote.alike hwrote'⟩
  · intro hfails
    obtain ⟨o₁, hwrite, huntouched⟩ := writeRows_of_not_works hfails rows stringToLong
    refine ⟨o₁, hwrite, huntouched, ?_, ?_⟩
    · intro hworks
      have hquiet₁ : Conduct.Quiet o₁.conduct := huntouched.conduct ▸ hquiet
      obtain ⟨o', hflag, hmigrated⟩ := writeFlag_of_works hworks hquiet₁
      have hunset : o₁.store.contents.isMigrated = false :=
        huntouched.isMigrated.trans hcontents
      rw [hunset] at hflag
      exact ⟨o', run_of_not_written hpublished hwrite hflag, huntouched.migrated hmigrated⟩
    · intro hfails'
      obtain ⟨o', hflag, huntouched'⟩ := writeFlag_of_not_works hfails'
      exact ⟨o', run_of_not_written hpublished hwrite hflag, huntouched.trans huntouched'⟩

/-- Of ten rows three are good. They come into a store in memory, a listener is called for their
keys, and the other seven count as failed. Where the first commit fails all ten count as failed and
only the flag is set, and where the second one fails too not even the flag is. -/
theorem run_with_three_good_rows :
    let rows : List (Except ImportError LegacyRecord) := [
      .error .legacy,
      .ok { key := "code", typeCode := 9, long := some 1 },
      .ok { key := "column", typeCode := 1, long := some 1 },
      .ok { key := "nan", typeCode := 1, float := some .nan },
      .ok { key := "b", typeCode := 4, string := some "-12" },
      .ok { key := "c", typeCode := 4, string := some "12.0" },
      .ok { key := "", typeCode := 0, boolean := some true },
      .ok { key := versionKey, typeCode := 3, long := some 2 },
      .ok { key := "d", typeCode := 4, string := some "12.0" },
      .ok { key := "a", typeCode := 2, long := some 7 }]
    let longs : StringSet := .ofList ["b", "c"]
    let good : List (String × Value) := [("b", .long (-12)), ("d", .string "12.0"), ("a", .long 7)]
    let memory : Observed Memory Unit :=
      ⟨⟨⟨Dict.ofList [("a", .boolean true)]⟩, Dict.empty, Registry.empty.register⟩, (), []⟩
    let faulty (commits : List Nat) : Observed (Faulty Memory) Unit :=
      ⟨⟨{ inner := ⟨Dict.empty⟩, failCommit := commits }, Dict.empty, .empty⟩, (), []⟩
    (∃ o', Migration.run (.rows rows) longs memory = (⟨.migrated ⟨10, 3, 7⟩, true⟩, o') ∧
      memory.Migrated o' good) ∧
    (∃ o', Migration.run (.rows rows) longs (faulty [1]) =
      (⟨.migrated ⟨10, 0, 10⟩, true⟩, o') ∧ (faulty [1]).Migrated o' []) ∧
    ∃ o', Migration.run (.rows rows) longs (faulty [1, 2]) =
      (⟨.migrated ⟨10, 0, 10⟩, false⟩, o') ∧ Observed.Untouched (faulty [1, 2]) o' := by
  intro rows longs good memory faulty
  have hgood : rows.filterMap (rowUsable? longs) = good := by decide
  obtain ⟨-, hwritten, -⟩ :=
    run_is_exact (o := memory) Conduct.quiet_unit (by decide) (by decide) longs rows
  obtain ⟨o', hrun, hmigrated, -⟩ := hwritten ⟨rfl, rfl⟩
  rw [hgood] at hrun hmigrated
  have hfaulty (commits : List Nat) :=
    run_is_exact (o := faulty commits) Conduct.quiet_unit rfl rfl longs rows
  obtain ⟨-, -, hflag⟩ := hfaulty [1]
  obtain ⟨o₁, hwrite, -, hflag, -⟩ := hflag fun hworks => nomatch hworks.commits
  obtain rfl : _ = o₁ := congrArg Prod.snd hwrite
  obtain ⟨-, -, hkept⟩ := hfaulty [1, 2]
  obtain ⟨o₂, hwrite₂, -, -, hkept⟩ := hkept fun hworks => nomatch hworks.commits
  obtain rfl : _ = o₂ := congrArg Prod.snd hwrite₂
  refine ⟨⟨o', hrun, hmigrated⟩, hflag ⟨rfl, rfl⟩, hkept fun hworks => nomatch hworks.commits⟩

end Migration

end PrefStore
