import PrefStore.Proofs.Disk.Legacy
import PrefStore.Proofs.Legacy.Rows

/-!
# Legacy databases are read back

Records that are written to a new file are read back from it: for each key the last of them, in all
its columns, but for a NaN, which is lost, and a zero, which may lose its sign.
-/

namespace PrefStore

namespace LegacyRecord

/-- A record is read back as another: they agree in every column, unless the number is a NaN, which
is read back as nothing. -/
structure ReadsBackAs (r back : LegacyRecord) : Prop where
  key : back.key = r.key
  typeCode : back.typeCode = r.typeCode
  boolean : back.boolean = r.boolean
  number : ∀ x, r.float = some x → x ≠ .nan → ∃ y, back.float = some y ∧ y.same x = true
  noNumber : r.float = none ∨ r.float = some .nan → back.float = none
  long : back.long = r.long
  string : back.string = r.string
  stringSet : back.stringSet = r.stringSet

/-- A record is read back as what a table keeps of it. -/
theorem readsBackAs_kept (r : LegacyRecord) : r.ReadsBackAs r.kept where
  key := rfl
  typeCode := rfl
  boolean := rfl
  number := by
    intro x hx hnumber
    have hkept : r.kept.float = x.kept? := by rw [kept, hx, Option.bind_some]
    obtain ⟨y, hy⟩ := Option.ne_none_iff_exists'.1 (mt Binary.kept?_eq_none_iff.1 hnumber)
    exact ⟨y, hkept.trans hy, Binary.same_of_kept? hy⟩
  noNumber := by
    rintro (hnone | hnan)
    · rw [kept, hnone, Option.bind_none]
    · rw [kept, hnan, Option.bind_some]
      rfl
  long := rfl
  string := rfl
  stringSet := rfl

end LegacyRecord

/-- Records that were written where nothing was can all be read: there is one for each key among
them, and it is what the last record of the key is read back as. -/
theorem Disk.legacy_records_read_back {disk disk' : Disk} {path : String} {place : Place}
    {records : List LegacyRecord} (hfollow : disk.follow path = .found place)
    (hfree : disk.node? place = none)
    (hwritten : disk.buildLegacy path records = (.ok (), disk')) :
    ∃ backs : List LegacyRecord,
      disk'.legacyRecords? path = (some (backs.map .ok), disk') ∧
      (backs.map (·.key)).Nodup ∧
      (∀ key, key ∈ backs.map (·.key) ↔ key ∈ records.map (·.key)) ∧
      ∀ back ∈ backs, ∃ last, IsLast LegacyRecord.key records last ∧ last.ReadsBackAs back := by
  let last := lasts LegacyRecord.key records
  have hkeys : (last.map LegacyRecord.kept).map (·.key) = last.map (·.key) := by
    rw [List.map_map]
    rfl
  refine ⟨last.map LegacyRecord.kept, ?read, ?distinct, ?keys, ?backs⟩
  case read =>
    rw [legacyRecords?_of_buildLegacy hfollow hfree hwritten, LegacyTable.records_foldl_insert,
      List.map_map]
    rfl
  case distinct =>
    rw [hkeys]
    exact nodup_keys_lasts LegacyRecord.key records
  case keys =>
    intro key
    rw [hkeys]
    exact mem_keys_lasts_iff
  case backs =>
    intro back hback
    obtain ⟨r, hr, rfl⟩ := List.mem_map.1 hback
    exact ⟨r, mem_lasts_iff.1 hr, r.readsBackAs_kept⟩

/-- Two records of one key and one with every column filled: the later of the two counts although
its NaN is lost, a code without a kind is kept, and so are a quote and a line break in a set. -/
theorem Disk.two_of_three_records_read_back :
    let full : LegacyRecord :=
      { key := "", typeCode := -9, boolean := some true, float := some (.zero true),
        long := some (-1), string := some "\x00ä", stringSet := some (.ofList ["\"", "\n", ""]) }
    let records : List LegacyRecord :=
      [{ key := "k", typeCode := 4, string := some "first" }, full,
        { key := "k", typeCode := 1, float := some .nan }]
    let disk := Disk.ofDirectories []
    let written := (disk.buildLegacy "/old" records).2
    disk.follow "/old" = .found ["old"] ∧ disk.node? ["old"] = none ∧
      disk.buildLegacy "/old" records = (.ok (), written) ∧
      ∃ backs : List LegacyRecord,
        written.legacyRecords? "/old" = (some (backs.map .ok), written) ∧
        (backs.map (·.key)).Nodup ∧
        (∀ key, key ∈ backs.map (·.key) ↔ key ∈ records.map (·.key)) ∧
        (∀ back ∈ backs,
          ∃ last, IsLast LegacyRecord.key records last ∧ last.ReadsBackAs back) ∧
        backs = [{ full with float := some (.zero false) }, { key := "k", typeCode := 1 }] := by
  intro full records disk written
  have hfollow : disk.follow "/old" = .found ["old"] := by rfl
  have hwritten : disk.buildLegacy "/old" records = (.ok (), written) := by rfl
  obtain ⟨backs, hread, hdistinct, hkeys, hbacks⟩ :=
    legacy_records_read_back hfollow rfl hwritten
  refine ⟨hfollow, rfl, hwritten, backs, hread, hdistinct, hkeys, hbacks, ?_⟩
  have hlist : (written.legacyRecords? "/old").1 = some
      ([{ full with float := some (.zero false) }, { key := "k", typeCode := 1 }].map .ok) := by
    rw [legacyRecords?_of_buildLegacy hfollow rfl hwritten, LegacyTable.records_foldl_insert]
    rfl
  rw [hread] at hlist
  exact List.map_injective_iff.2 (fun _ _ => Except.ok.inj) (Option.some.inj hlist)

end PrefStore
