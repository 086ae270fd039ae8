import PrefStore.Dict.Lemmas
import PrefStore.Legacy.Table
import PrefStore.Proofs.Dict.Last
import PrefStore.Proofs.Except
import PrefStore.Proofs.Json.Strings
import PrefStore.Proofs.Number.Exact

/-!
# Legacy records in a table

What a table made for records gives back is what was put into it, but for its column of numbers:
a NaN is lost there, and a zero loses its sign. The last record of each key is given back, in the
order in which these were inserted.
-/

namespace PrefStore

/-- What a column of numbers keeps of a number. -/
def Binary.kept? : Single → Option Single
  | nan => none
  | zero _ => some (zero false)
  | x => some x

/-- What a table keeps of a record. -/
def LegacyRecord.kept (r : LegacyRecord) : LegacyRecord :=
  { r with float := r.float.bind Binary.kept? }

/-- A number that is kept agrees with the one that was put in. -/
theorem Binary.same_of_kept? {x y : Single} (h : x.kept? = some y) : y.same x = true := by
  cases x with
  | nan => cases h
  | zero | infinite | finite =>
    cases h
    simp [same]

/-- Only a NaN is lost. -/
theorem Binary.kept?_eq_none_iff {x : Single} : x.kept? = none ↔ x = nan := by
  cases x <;> simp [kept?]

namespace LegacyRow

private theorem readLong_boolean (b : Option Bool) :
    readLong ((b.map fun b => Cell.int (if b then 1 else 0)).getD .null) =
      .ok (b.map fun b => if b then 1 else 0) := by
  cases b <;> rfl

private theorem readLong_long (i : Option Int64) :
    readLong ((i.map Cell.int).getD .null) = .ok i := by
  cases i <;> rfl

private theorem readText_text (s : Option String) :
    readText ((s.map Cell.text).getD .null) = .ok s := by
  cases s <;> rfl

private theorem readFloat_real (x : Option Single) :
    readFloat (((x.map fun x => (Cell.real x.widen).stored).getD .null).inRealColumn) =
      .ok (x.bind Binary.kept?) := by
  cases x with
  | none => rfl
  | some x =>
    cases x with
    | nan | zero | infinite => rfl
    | finite negative m q held =>
      have hnarrow := Binary.narrow_widen (.finite negative m q held)
      exact congrArg (fun x => Except.ok (some x)) hnarrow

private theorem readStringSet_text (s : StringSet) :
    readStringSet (Json.ofStrings s.items).text = .ok s := by
  have hread := Json.read?_ofStrings s.items
  rw [readStringSet, hread, Option.bind_some, Json.strings?_ofStrings]
  exact congrArg Except.ok s.ofList_items

/-- The row of a record is read back as what is kept of the record. -/
theorem record_ofRecord (r : LegacyRecord) : (ofRecord r).inColumns.record = .ok r.kept := by
  have hboolean := readLong_boolean r.boolean
  have hfloat := readFloat_real r.float
  have hlong := readLong_long r.long
  have hstring := readText_text r.string
  have hflag : (r.boolean.map fun b => if b then (1 : Int64) else 0).map (fun i => decide (i ≠ 0)) =
      r.boolean := by
    cases r.boolean with
    | none => rfl
    | some b => cases b <;> rfl
  have hkey : readText (.text r.key) = .ok (some r.key) := rfl
  have hcode : readLong (.int r.typeCode) = .ok (some r.typeCode) := rfl
  simp only [record, ofRecord, inColumns, hkey, hcode, hboolean, hfloat, hlong, hstring, bind,
    Except.bind]
  rw [hflag]
  cases hset : r.stringSet with
  | none =>
    have hnone : readText .null = .ok none := rfl
    simp only [Option.map_none, Option.getD_none, hnone]
    rw [LegacyRecord.kept, hset]
    rfl
  | some s =>
    have htext : readText (.text (Json.ofStrings s.items).text) = .ok (some _) := rfl
    simp only [Option.map_some, Option.getD_some, htext, readStringSet_text]
    rw [LegacyRecord.kept, hset]
    rfl

end LegacyRow

namespace LegacyTable

/-- The row of a record in a table made for records. -/
def rowOf (r : LegacyRecord) : LegacyRow := (LegacyRow.ofRecord r).inColumns

private theorem insert_keyed (rows : List LegacyRow) (r : LegacyRecord) :
    insert ⟨true, rows⟩ r = ⟨true, rows.filter (·.key ≠ .text r.key) ++ [rowOf r]⟩ := by
  rw [insert, if_pos rfl]
  rfl

/-- Records are put at the end, the last of each key in order, and the rows with their keys go. -/
theorem foldl_insert_eq (records : List LegacyRecord) (rows : List LegacyRow) :
    records.foldl insert ⟨true, rows⟩ =
      ⟨true, rows.filter (fun row => ∀ r ∈ records, row.key ≠ .text r.key) ++
        (lasts LegacyRecord.key records).map rowOf⟩ := by
  induction records generalizing rows with
  | nil => simp [lasts]
  | cons r rest ih =>
    have hold : (rows.filter (·.key ≠ .text r.key)).filter
          (fun row => ∀ other ∈ rest, row.key ≠ .text other.key) =
        rows.filter fun row => ∀ other ∈ r :: rest, row.key ≠ .text other.key := by
      rw [List.filter_filter]
      simp only [List.forall_mem_cons, Bool.decide_and, Bool.and_comm]
    have hnew : [rowOf r].filter (fun row => ∀ other ∈ rest, row.key ≠ .text other.key) ++
          (lasts LegacyRecord.key rest).map rowOf =
        (lasts LegacyRecord.key (r :: rest)).map rowOf := by
      have hkey (other : LegacyRecord) :
          (rowOf r).key ≠ .text other.key ↔ ¬other.key = r.key := by
        rw [ne_eq, eq_comm]
        exact not_congr ⟨Cell.text.inj, congrArg Cell.text⟩
      rw [lasts]
      split
      · next hlater =>
        rw [List.filter_cons_of_neg (by simpa [hkey] using hlater)]
        rfl
      · next hnone =>
        rw [List.filter_cons_of_pos (by simpa [hkey] using hnone)]
        rfl
    rw [List.foldl_cons, insert_keyed, ih, List.filter_append, List.append_assoc, hold, hnew]

/-- The last record of each key is given back, in order. -/
theorem records_foldl_insert (records : List LegacyRecord) :
    (records.foldl insert empty).records =
      (lasts LegacyRecord.key records).map fun r => .ok r.kept := by
  have hrows : records.foldl insert empty =
      ⟨true, (lasts LegacyRecord.key records).map rowOf⟩ := foldl_insert_eq records []
  rw [hrows, LegacyTable.records, List.map_map]
  exact List.map_congr_left fun r _ => LegacyRow.record_ofRecord r

/-- Records with keys of their own are given back in order. -/
theorem records_of_nodup {records : List LegacyRecord} (hkeys : (records.map (·.key)).Nodup) :
    (records.foldl insert empty).records = records.map fun r => .ok r.kept := by
  rw [records_foldl_insert, lasts_of_nodup hkeys]

end LegacyTable

end PrefStore
