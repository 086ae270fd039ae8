import PrefStore.Proofs.Backup.Import
import PrefStore.Proofs.Legacy.Reading
import PrefStore.Proofs.Store.Working

/-!
# Imports of legacy pairs

An import of pairs looks at all versions that they state before it changes anything, and fails
with the first that is not the current one. Otherwise it removes what clients saw and brings in
what the pairs hold: at each key the last of them counts whose value can be stored, and what is
wrong with a later one does not matter.
-/

namespace PrefStore

/-- A pair under the version key holds a long that is not the current version. -/
def LegacyRecord.Misstates (pair : LegacyRecord) (i : Int64) : Prop :=
  pair.key = versionKey ∧ pair.long = some i ∧ i ≠ 2

/-- The last of the pairs with a key that hold a storable value holds this one. -/
def Prevails (pairs : List LegacyRecord) (key : String) (v : Value) : Prop :=
  ∃ before pair after, pairs = before ++ pair :: after ∧
    (pair.key = key ∧ pair.Holds v ∧ v.storable = true) ∧
    ∀ later ∈ after, later.key = key → ∀ w, later.Holds w → w.storable = false

/-- Pairs pass the check of their version if no pair under the version key holds another long. -/
theorem checkPairs_eq_ok_iff {pairs : List LegacyRecord} :
    checkPairs pairs = .ok () ↔
      ∀ pair ∈ pairs, pair.key = versionKey → ∀ i, pair.long = some i → i = backupVersion := by
  rw [checkPairs, forM_eq_ok_iff]
  simp only [List.mem_filter, decide_eq_true_eq, and_imp]
  refine forall₃_congr fun pair _ _ => ?_
  cases pair.long with
  | none => simp
  | some i => simp [Document.checkVersion_eq_ok_iff]

private theorem exists_of_checkPairs_eq_error {pairs : List LegacyRecord} {cause : ImportError}
    (h : checkPairs pairs = .error cause) :
    ∃ before pair after i, pairs = before ++ pair :: after ∧
      (∀ earlier ∈ before, ∀ j, ¬ earlier.Misstates j) ∧ pair.Misstates i ∧
      cause = .versionMismatch (some i) := by
  rw [checkPairs, forM_eq_error_iff] at h
  obtain ⟨stated, pair, others, hfilter, hstated, hpair⟩ := h
  obtain ⟨before, rest, rfl, hbefore, hrest⟩ := List.filter_eq_append_iff.1 hfilter
  obtain ⟨between, after, rfl, hbetween, hkey, -⟩ := List.filter_eq_cons_iff.1 hrest
  cases hlong : pair.long with
  | none =>
    rw [hlong] at hpair
    cases hpair
  | some i =>
    rw [hlong] at hpair
    obtain ⟨hother, rfl⟩ := Document.checkVersion_eq_error_iff.1 hpair
    have hmisstates : pair.Misstates i :=
      ⟨of_decide_eq_true hkey, hlong, fun hi => hother (congrArg some hi)⟩
    refine ⟨before ++ between, pair, after, i, by simp, ?_, hmisstates, rfl⟩
    rintro earlier hearlier j ⟨hversion, hj, hne⟩
    rcases List.mem_append.1 hearlier with hmem | hmem
    · have hok := hstated earlier (hbefore ▸ List.mem_filter.2 ⟨hmem, decide_eq_true hversion⟩)
      rw [hj] at hok
      exact hne (Option.some.inj (Document.checkVersion_eq_ok_iff.1 hok))
    · exact hbetween earlier hmem (decide_eq_true hversion)

namespace LegacyRecord

/-- A pair brings in the entry of the value that it holds, if that may be written. -/
theorem usable?_empty_eq_some_iff {pair : LegacyRecord} {key : String} {v : Value} :
    pair.usable? Dict.empty = some (key, v) ↔
      (key ≠ "" ∧ isReserved key = false) ∧ pair.key = key ∧ pair.Holds v ∧ v.storable = true := by
  rw [usable?_eq_some_iff]
  simp only [valueWith_empty, decode_eq_ok_iff, Prod.mk.injEq]
  constructor
  · rintro ⟨_, hholds, ⟨hkey, hstorable⟩, rfl, rfl⟩
    exact ⟨hkey, rfl, hholds, hstorable⟩
  · rintro ⟨hkey, rfl, hholds, hstorable⟩
    exact ⟨v, hholds, ⟨hkey, hstorable⟩, rfl, rfl⟩

end LegacyRecord

namespace Draft

/-- Entries of pairs are written under keys that clients may write. -/
theorem writable_of_mem_pairs {pairs : List LegacyRecord} {entry : String × Value}
    (h : entry ∈ pairs.filterMap (·.usable? Dict.empty)) : Writable entry := by
  obtain ⟨pair, -, hpair⟩ := List.mem_filterMap.1 h
  exact LegacyRecord.writable_of_usable? hpair

/-- Where entries of pairs are written over a snapshot in which a key is absent, the value there is
the one that prevails, if clients may write the key. -/
theorem get?_foldl_pairs {pairs : List LegacyRecord} {d : Draft} {key : String} {v : Value}
    (habsent : d.entries.get? key = none) :
    ((pairs.filterMap (·.usable? Dict.empty)).foldl putEntry d).entries.get? key = some v ↔
      (key ≠ "" ∧ isReserved key = false) ∧ Prevails pairs key v := by
  rw [entries_foldl_putEntry, Dict.get?_foldl_insert, habsent, Option.or_none,
    Option.map_eq_some_iff]
  constructor
  · rintro ⟨⟨_, _⟩, hfound, rfl⟩
    obtain rfl : _ = key := by simpa using List.find?_some hfound
    obtain ⟨before, pair, after, hpairs, ⟨hpair, -⟩, hafter⟩ :=
      reverse_find?_filterMap_eq_some_iff.1 hfound
    obtain ⟨hkey, hpair⟩ := LegacyRecord.usable?_empty_eq_some_iff.1 hpair
    refine ⟨hkey, before, pair, after, hpairs, hpair, fun later hlater hlaterKey w hw => ?_⟩
    by_contra hstorable
    have hbrings := LegacyRecord.usable?_empty_eq_some_iff.2
      ⟨hkey, hlaterKey, hw, by simpa using hstorable⟩
    simpa using hafter later hlater _ hbrings
  · rintro ⟨hkey, before, pair, after, hpairs, hpair, hafter⟩
    refine ⟨(key, v), reverse_find?_filterMap_eq_some_iff.2 ⟨before, pair, after, hpairs, ?_, ?_⟩,
      rfl⟩
    · exact ⟨LegacyRecord.usable?_empty_eq_some_iff.2 ⟨hkey, hpair⟩, by simp⟩
    · intro later hlater entry hbrings
      obtain ⟨k, w⟩ := entry
      refine decide_eq_false fun heq => ?_
      obtain ⟨-, hlaterKey, hw, hstorable⟩ := LegacyRecord.usable?_empty_eq_some_iff.1 hbrings
      rw [hafter later hlater (hlaterKey.trans heq) w hw] at hstorable
      cases hstorable

private theorem get?_foldl_pairs_of_reserved {pairs : List LegacyRecord} {d : Draft} {key : String}
    (hkey : isReserved key = true) :
    ((pairs.filterMap (·.usable? Dict.empty)).foldl putEntry d).entries.get? key =
      d.entries.get? key := by
  have hopen : ∀ entry ∈ pairs.filterMap (·.usable? Dict.empty), isReserved entry.1 = false :=
    fun _ hentry => (writable_of_mem_pairs hentry).1.2
  rw [entries_foldl_putEntry, Dict.get?_foldl_insert, find?_reserved hopen hkey]
  rfl

end Draft

namespace Observed

variable {β ρ : Type} [Backend β] [Transactional β] [Conduct ρ]

/-- An import of pairs into a store that works replaces what clients see by the entries of all
pairs that have one. -/
theorem importPairs_of_works {o : Observed β ρ} (hworks : o.store.Works)
    (hquiet : Conduct.Quiet o.conduct) {pairs : List LegacyRecord}
    (hcheck : checkPairs pairs = .ok ()) :
    ∃ o', o.importPairs pairs = (.ok (), o') ∧
      o.Wrote o' ((pairs.filterMap (·.usable? Dict.empty)).foldl Draft.putEntry
        o.store.draft.clear) := by
  have hfilter : (pairs.filter fun pair => !isReserved pair.key).filterMap (·.usable? Dict.empty) =
      pairs.filterMap (·.usable? Dict.empty) := by
    rw [List.filterMap_filter]
    refine List.filterMap_congr fun pair _ => ?_
    cases hkey : isReserved pair.key with
    | false => rfl
    | true => exact (LegacyRecord.usable?_of_reserved hkey).symm
  have hrun (found : Nat) : (Edit.pairs pairs).body o.store.draft found =
      (.ok ((pairs.filterMap (·.usable? Dict.empty)).foldl Draft.putEntry o.store.draft.clear),
        (pairs.filterMap (·.usable? Dict.empty)).length) := by
    simp only [Edit.pairs, pairsBody, Draft.putRecords_eq, hfilter]
  obtain ⟨o', hedit, hwrote⟩ :=
    edit_of_completes hworks hquiet (Edit.pairs pairs) 0 hrun
  refine ⟨o', ?_, hwrote⟩
  have hbody : o.edit (pairsBody pairs) 0 = _ := hedit
  simp only [importPairs, hcheck, hbody]

/-- What an import of pairs does to a store that works and has quiet listeners. If a pair under the
version key holds a long other than 2, wherever it stands, the import fails with the first such
long and the store is as it was. Otherwise it succeeds: at each key that clients may write they see
the value that prevails among the pairs, and nothing else; what stands at reserved keys is kept,
the flag included; and the listeners are called for the keys that clients saw before and for those
that they see now. -/
theorem importPairs_is_exact {o : Observed β ρ} (hworks : o.store.Works)
    (hquiet : Conduct.Quiet o.conduct) (pairs : List LegacyRecord) :
    ((∃ pair ∈ pairs, ∃ i, pair.Misstates i) →
      ∃ before pair after i, pairs = before ++ pair :: after ∧
        (∀ earlier ∈ before, ∀ j, ¬ earlier.Misstates j) ∧ pair.Misstates i ∧
        o.importPairs pairs = (.error (.error (.versionMismatch (some i))), o)) ∧
    ((∀ pair ∈ pairs, ∀ i, ¬ pair.Misstates i) →
      ∃ o', o.importPairs pairs = (.ok (), o') ∧
        (∀ key v, (key, v) ∈ o'.store.entries ↔
          (key ≠ "" ∧ isReserved key = false) ∧ Prevails pairs key v) ∧
        (∀ key, isReserved key = true →
          o'.store.published.get? key = o.store.contents.get? key) ∧
        o'.store.isMigrated = o.store.contents.isMigrated ∧
        o'.store.contents.Agrees o'.store.published ∧
        o.Notified o' fun key => (∃ v, (key, v) ∈ o.store.contents.visible) ∨
          ∃ v, (key, v) ∈ o'.store.entries) := by
  constructor
  · rintro ⟨pair, hpair, i, hkey, hlong, hother⟩
    cases hcheck : checkPairs pairs with
    | ok _ => exact absurd (checkPairs_eq_ok_iff.1 hcheck pair hpair hkey i hlong) hother
    | error cause =>
      obtain ⟨before, first, after, j, hpairs, hbefore, hfirst, rfl⟩ :=
        exists_of_checkPairs_eq_error hcheck
      exact ⟨before, first, after, j, hpairs, hbefore, hfirst, by simp only [importPairs, hcheck]⟩
  · intro hversions
    have hcheck : checkPairs pairs = .ok () := by
      refine checkPairs_eq_ok_iff.2 fun pair hpair hkey i hlong => ?_
      by_contra hother
      exact hversions pair hpair i ⟨hkey, hlong, hother⟩
    obtain ⟨o', himport, hwrote⟩ := importPairs_of_works hworks hquiet hcheck
    have hentries (key : String) (v : Value) : (key, v) ∈ o'.store.entries ↔
        (key ≠ "" ∧ isReserved key = false) ∧ Prevails pairs key v := by
      rw [Store.entries, hwrote.published, Snapshot.mem_visible_iff]
      constructor
      · rintro ⟨hkey, hv⟩
        exact (Draft.get?_foldl_pairs (by simp [Draft.get?_clear, hkey])).1 hv
      · rintro ⟨hkey, hprevails⟩
        exact ⟨hkey.2, (Draft.get?_foldl_pairs (by simp [Draft.get?_clear, hkey])).2
          ⟨hkey, hprevails⟩⟩
    have hreserved (key : String) (hkey : isReserved key = true) :
        o'.store.published.get? key = o.store.contents.get? key := by
      rw [hwrote.published, Draft.get?_foldl_pairs_of_reserved hkey, Draft.get?_clear, if_pos hkey]
      rfl
    refine ⟨o', himport, hentries, hreserved, ?_, hwrote.agrees, ?_⟩
    · unfold Store.isMigrated Snapshot.isMigrated
      rw [hreserved migrationKey isReserved_migrationKey]
    · refine hwrote.notified.congr fun key => ?_
      have hbefore : key ∈ o.store.draft.keys ↔ ∃ v, (key, v) ∈ o.store.contents.visible := by
        simp [Draft.keys, Store.draft, Draft.ofSnapshot]
      have hafter : key ∈ (pairs.filterMap (·.usable? Dict.empty)).map Prod.fst ↔
          ∃ v, (key, v) ∈ o'.store.entries := by
        simp only [Store.entries, hwrote.published, Snapshot.mem_visible_iff,
          exists_and_left, Draft.entries_foldl_putEntry, Dict.exists_get?_foldl_insert_iff]
        constructor
        · intro hmem
          obtain ⟨entry, hentry, rfl⟩ := List.mem_map.1 hmem
          exact ⟨(Draft.writable_of_mem_pairs hentry).1.2, .inl hmem⟩
        · rintro ⟨hkey, hmem | ⟨v, hv⟩⟩
          · exact hmem
          · simp [Draft.get?_clear, hkey] at hv
      rw [Draft.mem_touched_foldl_putEntry, Draft.mem_touched_clear, hbefore, hafter, or_comm]
      exact or_congr_left (or_iff_left List.not_mem_nil)

/-- A version that the last pair states makes an import fail. Without that pair it succeeds: a good
pair outlives the bad ones of its key that follow it, the flag stays, and the listener is called
for the key that came and for the one that went. -/
theorem importPairs_of_seven_pairs :
    let contents : Snapshot := .ofList [(migrationKey, .boolean true), ("old", .int 1)]
    let o : Observed Memory Unit := ⟨⟨⟨contents⟩, contents, Registry.empty.register⟩, (), []⟩
    let pairs : List LegacyRecord := [
      { key := "a", typeCode := 4, string := some "first" },
      { key := versionKey, typeCode := 3, long := some 2 },
      { key := "a", typeCode := 2, long := some 7 },
      { key := "a", typeCode := 1, float := some .nan },
      { key := "a", typeCode := 9 },
      { key := "", typeCode := 0, boolean := some true }]
    let last : LegacyRecord := { key := versionKey, typeCode := 4, long := some 3 }
    o.importPairs (pairs ++ [last]) = (.error (.error (.versionMismatch (some 3))), o) ∧
      ∃ o', o.importPairs pairs = (.ok (), o') ∧ o'.store.entries = [("a", .long 7)] ∧
        Prevails pairs "a" (.long 7) ∧ o'.store.isMigrated = true ∧
        o'.calls.map (·.key) = ["a", "old"] ∧
        o.Notified o' fun key => (∃ v, (key, v) ∈ o.store.contents.visible) ∨
          ∃ v, (key, v) ∈ o'.store.entries := by
  intro contents o pairs last
  have hexact := importPairs_is_exact (o := o) ⟨rfl, rfl⟩ Conduct.quiet_unit
  constructor
  · obtain ⟨_, _, _, i, -, -, -, hrun⟩ :=
      (hexact (pairs ++ [last])).1 ⟨last, by simp, 3, rfl, rfl, by decide⟩
    have hanswer : (o.importPairs (pairs ++ [last])).1 =
        .error (.error (.versionMismatch (some 3))) := rfl
    rw [hrun] at hanswer
    cases hanswer
    exact hrun
  · have hversions (pair : LegacyRecord) (hpair : pair ∈ pairs) (i : Int64) :
        ¬ pair.Misstates i := fun ⟨hkey, hlong, hother⟩ =>
      hother (checkPairs_eq_ok_iff.1 (Eq.refl (checkPairs pairs)) pair hpair hkey i hlong)
    obtain ⟨o', hrun, hentries, -, hflag, -, hnotified⟩ := (hexact pairs).2 hversions
    obtain rfl : _ = o' := congrArg Prod.snd hrun
    have hvalue : ("a", .long 7) ∈ (o.importPairs pairs).2.store.entries := by decide
    exact ⟨_, hrun, by decide, ((hentries "a" (.long 7)).1 hvalue).2, hflag, by decide, hnotified⟩

end Observed

end PrefStore
