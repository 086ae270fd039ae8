import Mathlib.Data.List.Forall2
import PrefStore.Proofs.Backup.Pairs
import PrefStore.Proofs.Disk.Legacy
import PrefStore.Proofs.Legacy.Faults
import PrefStore.Proofs.Legacy.Rows

/-!
# Two ways in for legacy records

Records come into a store by a migration of the database that they were written to, or when they
are imported themselves. The first way loses what a column of numbers loses; a NaN cannot be
stored anyway, and a zero agrees with every other. So both ways bring in agreeing entries under
the same keys.
-/

namespace PrefStore

open Migration

/-- Entries agree if they have one key and agreeing values. -/
def EntryAgrees (entry entry' : String × Value) : Prop :=
  entry.1 = entry'.1 ∧ entry.2.same entry'.2 = true

namespace LegacyRecord

private theorem decode_kept_of_ne_float {r : LegacyRecord} (h : r.kind ≠ .ok .float) :
    r.kept.decode = r.decode := by
  have hkind : r.kept.kind = r.kind := rfl
  unfold decode
  rw [hkind]
  cases hk : r.kind with
  | error cause => rfl
  | ok kind =>
    cases kind with
    | float => exact absurd hk h
    | boolean | int | long | string | stringSet => rfl

private theorem decode_of_float {r : LegacyRecord} (h : r.kind = .ok .float) :
    r.decode = match r.float with
      | some x => .ok (.float x)
      | none => .error (.missingLegacyValue r.key .float) := by
  simp only [decode, h, bind, Except.bind, column]
  cases r.float <;> rfl

private theorem usable?_kept (r : LegacyRecord) :
    Option.Rel EntryAgrees (r.kept.usable? Dict.empty) (r.usable? Dict.empty) := by
  have hkey : r.kept.key = r.key := rfl
  unfold usable?
  rw [valueWith_empty, valueWith_empty, hkey]
  by_cases hkind : r.kind = .ok .float
  · have hkept : r.kept.kind = .ok .float := hkind
    have hfloat : r.kept.float = r.float.bind Binary.kept? := rfl
    rw [decode_of_float hkept, decode_of_float hkind, hfloat]
    cases r.float with
    | none => exact .none
    | some x =>
      cases hx : x.kept? with
      | none =>
        obtain rfl := Binary.kept?_eq_none_iff.1 hx
        have hnan : ¬ Writable (r.key, .float .nan) := fun h => Bool.false_ne_true h.2
        simp only [Option.bind_some, hx, if_neg hnan]
        exact .none
      | some y =>
        have hsame : (Value.float y).same (.float x) = true := Binary.same_of_kept? hx
        have hsame' := (Value.same_comm (.float x) (.float y)).trans hsame
        have hwritable : Writable (r.key, .float y) ↔ Writable (r.key, .float x) := by
          constructor
          · exact fun h => ⟨h.1, Value.storable_of_same hsame' h.2⟩
          · exact fun h => ⟨h.1, Value.storable_of_same hsame h.2⟩
        simp only [Option.bind_some, hx]
        by_cases hx' : Writable (r.key, .float x)
        · rw [if_pos hx', if_pos (hwritable.2 hx')]
          exact .some ⟨rfl, hsame⟩
        · rw [if_neg hx', if_neg fun h => hx' (hwritable.1 h)]
          exact .none
  · rw [decode_kept_of_ne_float hkind]
    cases r.decode with
    | error cause => exact .none
    | ok value =>
      by_cases hwrite : Writable (r.key, value)
      · simp only [if_pos hwrite]
        exact .some ⟨rfl, Value.same_self_of_storable hwrite.2⟩
      · simp only [if_neg hwrite]
        exact .none

end LegacyRecord

namespace Snapshot

private theorem same_foldl_insert {entries entries' : List (String × Value)}
    (h : List.Forall₂ EntryAgrees entries entries') {s t : Snapshot} (hsame : s.same t = true) :
    same (entries.foldl (fun s entry => s.insert entry.1 entry.2) s)
      (entries'.foldl (fun s entry => s.insert entry.1 entry.2) t) = true := by
  induction h generalizing s t with
  | nil => exact hsame
  | cons hentry _ ih =>
    obtain ⟨hkey, hvalue⟩ := hentry
    rw [List.foldl_cons, List.foldl_cons, ← hkey]
    exact ih (same_insert hsame _ hvalue)

private theorem visible_foldl_insert {entries : List (String × Value)}
    (h : ∀ entry ∈ entries, isReserved entry.1 = false) (s : Snapshot) :
    visible (entries.foldl (fun s entry => s.insert entry.1 entry.2) s) =
      (entries.foldl (fun s entry => s.insert entry.1 entry.2)
        (s.filterKeys fun key => !isReserved key)).entries := by
  induction entries generalizing s with
  | nil => rfl
  | cons entry rest ih =>
    obtain ⟨hentry, hrest⟩ := List.forall_mem_cons.1 h
    rw [List.foldl_cons, List.foldl_cons, ih hrest, Dict.filterKeys_insert]
    simp only [hentry, Bool.not_false, if_true]

private theorem visible_foldl_insert_of_bare {entries : List (String × Value)}
    (h : ∀ entry ∈ entries, isReserved entry.1 = false) {s : Snapshot} (hs : s.visible = []) :
    visible (entries.foldl (fun s entry => s.insert entry.1 entry.2) s) =
      (Dict.ofList entries).entries := by
  have hnone : s.filterKeys (fun key => !isReserved key) = Dict.empty := Dict.ext_entries hs
  rw [visible_foldl_insert h, hnone]
  rfl

private theorem visible_insert_flag (s : Snapshot) (v : Value) :
    visible (s.insert migrationKey v) = s.visible := by
  have hinsert := s.filterKeys_insert (fun key => !isReserved key) migrationKey v
  rw [isReserved_migrationKey, Bool.not_true, if_neg Bool.false_ne_true] at hinsert
  exact congrArg Dict.entries hinsert

end Snapshot

variable {β β' ρ ρ' : Type} [Backend β] [Transactional β] [Conduct ρ]

private theorem Draft.visible_clear (d : Draft) : d.clear.entries.visible = [] := by
  refine List.filter_eq_nil_iff.2 fun entry hentry => ?_
  have hreserved : isReserved entry.1 = true := (List.mem_filter.1 hentry).2
  simp [hreserved]

/-- The two ways in agree. Records with keys of their own, none of which states another version,
are written to a database where nothing was. If it is migrated into a store that is empty and not
migrated, and if the records are imported into any store, and both stores work and have quiet
listeners, then both succeed, clients see agreeing entries in both stores, and the migration counts
these entries. -/
theorem legacy_paths_agree [Backend β'] [Transactional β'] [Conduct ρ']
    {records : List LegacyRecord} (hkeys : (records.map (·.key)).Nodup)
    (hversion : ∀ r ∈ records, r.key = versionKey → ∀ i, r.long = some i → i = backupVersion)
    {disk disk' : Disk} {path : String} {place : Place}
    (hfollow : disk.follow path = .found place) (hfree : disk.node? place = none)
    (hbuilt : disk.buildLegacy path records = (.ok (), disk')) {o : Observed β ρ}
    (hworks : o.store.Works) (hquiet : Conduct.Quiet o.conduct)
    (hempty : o.store.contents.visible = []) (hunset : o.store.contents.isMigrated = false)
    (hpublished : o.store.published.isMigrated = false) {p : Observed β' ρ'}
    (hworks' : p.store.Works) (hquiet' : Conduct.Quiet p.conduct) :
    ∃ source report o' p', disk'.legacySource path = (source, disk') ∧
      Migration.run source Dict.empty o = (⟨.migrated report, true⟩, o') ∧
      p.importPairs records = (.ok (), p') ∧
      Snapshot.sameEntries o'.store.entries p'.store.entries = true ∧
      report.migrated = o'.store.entries.length ∧ report.migrated = p'.store.entries.length := by
  let kept := records.map LegacyRecord.kept
  let migrated := kept.filterMap (·.usable? Dict.empty)
  let imported := records.filterMap (·.usable? Dict.empty)
  have hsource := Disk.legacySource_of_buildLegacy hfollow hfree hbuilt
  rw [LegacyTable.records_of_nodup hkeys] at hsource
  have hrows : (records.map fun r => Except.ok r.kept).filterMap (rowUsable? Dict.empty) =
      migrated := by
    simp only [migrated, kept, List.filterMap_map]
    rfl
  have hwritable {list : List LegacyRecord} :
      ∀ entry ∈ list.filterMap (·.usable? Dict.empty), isReserved entry.1 = false := by
    intro entry hentry
    obtain ⟨r, -, hr⟩ := List.mem_filterMap.1 hentry
    exact (LegacyRecord.writable_of_usable? hr).1.2
  obtain ⟨o', hrun, hwrote⟩ := Migration.run_of_works hworks hquiet hpublished hunset
    (records.map fun r => .ok r.kept) Dict.empty
  obtain ⟨p', himport, hwrote'⟩ :=
    Observed.importPairs_of_works hworks' hquiet' (checkPairs_eq_ok_iff.2 hversion)
  rw [hrows] at hrun hwrote
  have hentries : o'.store.entries = (Dict.ofList migrated).entries := by
    rw [Store.entries, hwrote.published, Draft.markMigrated, Snapshot.visible_insert_flag,
      Draft.entries_foldl_putEntry]
    exact Snapshot.visible_foldl_insert_of_bare hwritable hempty
  have hentries' : p'.store.entries = (Dict.ofList imported).entries := by
    rw [Store.entries, hwrote'.published, Draft.entries_foldl_putEntry]
    exact Snapshot.visible_foldl_insert_of_bare hwritable p.store.draft.visible_clear
  have hagree : List.Forall₂ EntryAgrees migrated imported := by
    simp only [migrated, kept, imported, List.filterMap_map]
    refine List.rel_filterMap (R := Eq) ?_ (List.forall₂_refl records)
    rintro r _ rfl
    exact r.usable?_kept
  have hcount : migrated.length = o'.store.entries.length := by
    have hkept : (kept.map (·.key)).Nodup := by
      rw [List.map_map]
      exact hkeys
    rw [hentries, Dict.length_ofList (LegacyRecord.nodup_entries hkept)]
  have hcount' : migrated.length = p'.store.entries.length := by
    rw [hentries', Dict.length_ofList (LegacyRecord.nodup_entries hkeys), hagree.length_eq]
  refine ⟨_, _, o', p', hsource, hrun, himport, ?_, hcount, hcount'⟩
  rw [hentries, hentries']
  exact Snapshot.same_foldl_insert hagree rfl

/-- Of eight records two come into a new database and into memory: the others have the empty key,
reserved keys, numbers that cannot be stored, or no value of their type. One of the two is a zero
that comes in with either sign. -/
theorem two_of_eight_records_agree :
    let records : List LegacyRecord := [
      { key := "", typeCode := 0, boolean := some true },
      { key := versionKey, typeCode := 3, long := some 2 },
      { key := migrationKey, typeCode := 0, boolean := some false },
      { key := "nan", typeCode := 1, float := some .nan },
      { key := "ratio", typeCode := 1, float := some (.infinite true) },
      { key := "zero", typeCode := 1, float := some (.zero true) },
      { key := "set", typeCode := 5, stringSet := some (.ofList ["b", "a"]) },
      { key := "text", typeCode := 3, string := some "7" }]
    let disk := Disk.ofDirectories []
    let built := (disk.buildLegacy "/old" records).2
    let connection : Connection := ⟨{ versions := some [1], preferences := some [] }, 0, 0⟩
    let o : Observed Connection Unit := ⟨⟨connection, Dict.empty, .empty⟩, (), []⟩
    let p : Observed Memory Unit := ⟨⟨⟨Dict.empty⟩, Dict.empty, .empty⟩, (), []⟩
    ∃ source report o' p', built.legacySource "/old" = (source, built) ∧
      Migration.run source Dict.empty o = (⟨.migrated report, true⟩, o') ∧
      p.importPairs records = (.ok (), p') ∧
      Snapshot.sameEntries o'.store.entries p'.store.entries = true ∧
      report.migrated = o'.store.entries.length ∧ report.migrated = p'.store.entries.length ∧
      report.migrated = 2 ∧
      p'.store.entries =
        [("set", .stringSet (.ofList ["a", "b"])), ("zero", .float (.zero true))] := by
  intro records disk built connection o p
  have hkeys : (records.map (·.key)).Nodup := by decide
  have hversion : ∀ r ∈ records, r.key = versionKey → ∀ i, r.long = some i → i = backupVersion := by
    simp [records, backupVersion]
  have hbuilt : disk.buildLegacy "/old" records = (.ok (), built) := by rfl
  have hfollow : disk.follow "/old" = .found ["old"] := by rfl
  have hworks : o.store.Works := ⟨rfl, rfl⟩
  have hempty : o.store.contents.visible = [] := rfl
  have hunset : o.store.contents.isMigrated = false := rfl
  have hpublished : o.store.published.isMigrated = false := rfl
  have hworks' : p.store.Works := ⟨rfl, rfl⟩
  obtain ⟨source, report, o', p', hsource, hrun, himport, hsame, hcount, hcount'⟩ :=
    legacy_paths_agree hkeys hversion hfollow rfl hbuilt hworks Conduct.quiet_unit hempty hunset
      hpublished hworks' Conduct.quiet_unit
  have himported : (p.importPairs records).2.store.entries =
      [("set", .stringSet (.ofList ["a", "b"])), ("zero", .float (.zero true))] := by decide
  rw [himport] at himported
  have htwo : report.migrated = 2 := hcount'.trans (congrArg List.length himported)
  exact ⟨source, report, o', p', hsource, hrun, himport, hsame, hcount, hcount', htwo, himported⟩

end PrefStore
