import PrefStore.Proofs.Snapshot.WellFormed

/-!
# The entries of legacy records

A legacy record brings in an entry if it has a value that a client may write under its key. The
rows of a migration and the pairs of an import are put into a draft alike: the entries that they
bring in are written one after another, and all others are counted or passed over.
-/

namespace PrefStore

/-- The entry that a record brings in, where the strings of certain keys are read as longs. -/
def LegacyRecord.usable? (stringToLong : StringSet) (r : LegacyRecord) : Option (String × Value) :=
  match r.valueWith stringToLong with
  | .ok value => if Writable (r.key, value) then some (r.key, value) else none
  | .error _ => none

/-- The entry that a row brings in, if it can be read. -/
def rowUsable? (stringToLong : StringSet) :
    Except ImportError LegacyRecord → Option (String × Value)
  | .ok record => record.usable? stringToLong
  | .error _ => none

namespace LegacyRecord

/-- A record brings in an entry exactly if it has a value that may be written. -/
theorem usable?_eq_some_iff {stringToLong : StringSet} {r : LegacyRecord}
    {entry : String × Value} : r.usable? stringToLong = some entry ↔
      ∃ value, r.valueWith stringToLong = .ok value ∧ Writable (r.key, value) ∧
        entry = (r.key, value) := by
  unfold usable?
  cases r.valueWith stringToLong with
  | error cause => simp
  | ok value =>
    by_cases hwrite : Writable (r.key, value)
    · simp [hwrite, eq_comm]
    · simp [hwrite]

/-- An entry stands under the key of its record. -/
theorem key_of_usable? {stringToLong : StringSet} {r : LegacyRecord} {entry : String × Value}
    (h : r.usable? stringToLong = some entry) : entry.1 = r.key := by
  obtain ⟨value, -, -, rfl⟩ := usable?_eq_some_iff.1 h
  rfl

/-- An entry may be written. -/
theorem writable_of_usable? {stringToLong : StringSet} {r : LegacyRecord}
    {entry : String × Value} (h : r.usable? stringToLong = some entry) : Writable entry := by
  obtain ⟨value, -, hwrite, rfl⟩ := usable?_eq_some_iff.1 h
  exact hwrite

/-- A record under a reserved key brings nothing in. -/
theorem usable?_of_reserved {stringToLong : StringSet} {r : LegacyRecord}
    (h : isReserved r.key = true) : r.usable? stringToLong = none := by
  refine Option.eq_none_iff_forall_not_mem.2 fun entry hentry => ?_
  have hwrite := writable_of_usable? hentry
  have hkey := hwrite.1.2
  rw [key_of_usable? hentry, h] at hkey
  cases hkey

/-- Where no strings are read as longs the value of a record is that of its declared type. -/
theorem valueWith_empty (r : LegacyRecord) : r.valueWith Dict.empty = r.decode := by
  unfold valueWith
  cases r.decode with
  | error cause => rfl
  | ok value => cases value <;> rfl

/-- Records with keys of their own bring in entries with keys of their own. -/
theorem nodup_entries {stringToLong : StringSet} {records : List LegacyRecord}
    (h : (records.map (·.key)).Nodup) :
    ((records.filterMap (usable? stringToLong)).map Prod.fst).Nodup := by
  have hsublist : ((records.filterMap (usable? stringToLong)).map Prod.fst).Sublist
      (records.map (·.key)) := by
    clear h
    induction records with
    | nil => exact .slnil
    | cons r rest ih =>
      cases hentry : r.usable? stringToLong with
      | none =>
        rw [List.filterMap_cons_none hentry]
        exact ih.cons _
      | some entry =>
        rw [List.filterMap_cons_some hentry, List.map_cons, key_of_usable? hentry]
        exact ih.cons_cons _
  exact hsublist.nodup h

end LegacyRecord

namespace Draft

/-- Writes an entry. -/
def putEntry (d : Draft) (entry : String × Value) : Draft :=
  ⟨d.entries.insert entry.1 entry.2, d.touched.add entry.1⟩

private theorem put_of_writable (d : Draft) {key : String} {value : Value}
    (h : Writable (key, value)) : d.put key value = .ok (d.putEntry (key, value)) :=
  put_eq_ok_iff.2 ⟨h.1, h.2, rfl⟩

private theorem put_of_not_writable (d : Draft) {key : String} {value : Value}
    (h : ¬ Writable (key, value)) : ∃ cause, d.put key value = .error cause := by
  cases hput : d.put key value with
  | error cause => exact ⟨cause, rfl⟩
  | ok e =>
    obtain ⟨hkey, hvalue, -⟩ := put_eq_ok_iff.1 hput
    exact absurd ⟨hkey, hvalue⟩ h

/-- The entries of a draft into which others were written. -/
theorem entries_foldl_putEntry (d : Draft) (entries : List (String × Value)) :
    (entries.foldl putEntry d).entries =
      entries.foldl (fun s entry => s.insert entry.1 entry.2) d.entries := by
  induction entries generalizing d with
  | nil => rfl
  | cons entry rest ih => exact ih (d.putEntry entry)

/-- The keys that count as written after entries were written. -/
theorem mem_touched_foldl_putEntry {d : Draft} {entries : List (String × Value)} {key : String} :
    key ∈ (entries.foldl putEntry d).touched.items ↔
      key ∈ entries.map Prod.fst ∨ key ∈ d.touched.items := by
  induction entries generalizing d with
  | nil => simp
  | cons entry rest ih =>
    rw [List.foldl_cons, ih, putEntry, StringSet.mem_items_add, List.map_cons, List.mem_cons,
      or_assoc, or_left_comm]

private theorem putRow_of_some (d : Draft) {stringToLong : StringSet}
    {row : Except ImportError LegacyRecord} {entry : String × Value}
    (h : rowUsable? stringToLong row = some entry) :
    d.putRow stringToLong row = .ok (d.putEntry entry) := by
  cases row with
  | error cause => cases h
  | ok record =>
    obtain ⟨value, hvalue, hwrite, rfl⟩ := LegacyRecord.usable?_eq_some_iff.1 h
    have hput := d.put_of_writable hwrite
    simp only [putRow, hvalue, hput, bind, Except.bind]
    rfl

private theorem putRow_of_none (d : Draft) {stringToLong : StringSet}
    {row : Except ImportError LegacyRecord} (h : rowUsable? stringToLong row = none) :
    ∃ cause, d.putRow stringToLong row = .error cause := by
  cases row with
  | error cause => exact ⟨cause, rfl⟩
  | ok record =>
    cases hvalue : record.valueWith stringToLong with
    | error cause => exact ⟨cause, by simp only [putRow, hvalue, bind, Except.bind]⟩
    | ok value =>
      have hwrite : ¬ Writable (record.key, value) := by
        intro hwrite
        have hentry := LegacyRecord.usable?_eq_some_iff.2 ⟨value, hvalue, hwrite, rfl⟩
        rw [rowUsable?, hentry] at h
        cases h
      obtain ⟨cause, hput⟩ := d.put_of_not_writable hwrite
      refine ⟨.store cause, ?_⟩
      simp only [putRow, hvalue, hput, bind, Except.bind]
      rfl

/-- A row is put into a draft and counted, as written or as failed. -/
def tally (stringToLong : StringSet) :
    Draft × Nat × Nat → Except ImportError LegacyRecord → Draft × Nat × Nat
  | (draft, written, failed), row =>
    match draft.putRow stringToLong row with
    | .ok next => (next, written + 1, failed)
    | .error _ => (draft, written, failed + 1)

private theorem putRows_eq_foldl (d : Draft) (stringToLong : StringSet)
    (rows : List (Except ImportError LegacyRecord)) :
    d.putRows stringToLong rows = rows.foldl (tally stringToLong) (d, 0, 0) :=
  rfl

private theorem foldl_tally (stringToLong : StringSet)
    (rows : List (Except ImportError LegacyRecord)) (d : Draft) (written failed : Nat) :
    rows.foldl (tally stringToLong) (d, written, failed) =
      let entries := rows.filterMap (rowUsable? stringToLong)
      (entries.foldl putEntry d, written + entries.length,
        failed + (rows.length - entries.length)) := by
  induction rows generalizing d written failed with
  | nil => rfl
  | cons row rest ih =>
    have hle := List.length_filterMap_le (rowUsable? stringToLong) rest
    rw [List.foldl_cons, tally]
    cases hentry : rowUsable? stringToLong row with
    | none =>
      obtain ⟨cause, hput⟩ := d.putRow_of_none hentry
      simp only [hput, ih, List.filterMap_cons_none hentry, List.length_cons]
      have hcount :
          failed + 1 + (rest.length - (rest.filterMap (rowUsable? stringToLong)).length) =
          failed + (rest.length + 1 - (rest.filterMap (rowUsable? stringToLong)).length) := by
        omega
      rw [hcount]
    | some entry =>
      have hput := d.putRow_of_some hentry
      simp only [hput, ih, List.filterMap_cons_some hentry, List.length_cons, List.foldl_cons]
      have hcount : written + 1 + (rest.filterMap (rowUsable? stringToLong)).length =
          written + ((rest.filterMap (rowUsable? stringToLong)).length + 1) := by
        omega
      rw [hcount, Nat.add_sub_add_right]

/-- Rows are put into a draft by writing the entries that they bring in, and each of the other
rows counts as failed. -/
theorem putRows_eq (d : Draft) (stringToLong : StringSet)
    (rows : List (Except ImportError LegacyRecord)) :
    d.putRows stringToLong rows =
      let entries := rows.filterMap (rowUsable? stringToLong)
      (entries.foldl putEntry d, entries.length, rows.length - entries.length) := by
  simp only [putRows_eq_foldl, foldl_tally, Nat.zero_add]

private theorem putRecord_eq (d : Draft) (pair : LegacyRecord) :
    d.putRecord pair = d.putRow Dict.empty (.ok pair) := by
  rw [putRecord, ← pair.valueWith_empty]
  rfl

/-- Pairs are put into a draft as rows are that were read as the pairs. -/
theorem putRecords_eq_putRows (d : Draft) (pairs : List LegacyRecord) :
    d.putRecords pairs =
      ((d.putRows Dict.empty (pairs.map .ok)).1, (d.putRows Dict.empty (pairs.map .ok)).2.1) := by
  rw [putRecords, putRows, List.foldl_map]
  refine @List.foldl_hom _ _ _ (fun counts => (counts.1, counts.2.1)) _ _ pairs (d, 0, 0) ?_
  intro counts pair
  dsimp only
  rw [putRecord_eq]
  cases counts.1.putRow Dict.empty (.ok pair) <;> rfl

/-- Pairs are put into a draft by writing the entries that they bring in. -/
theorem putRecords_eq (d : Draft) (pairs : List LegacyRecord) :
    d.putRecords pairs =
      let entries := pairs.filterMap (·.usable? Dict.empty)
      (entries.foldl putEntry d, entries.length) := by
  have hentries : (pairs.map Except.ok).filterMap (rowUsable? Dict.empty) =
      pairs.filterMap (·.usable? Dict.empty) := List.filterMap_map
  rw [putRecords_eq_putRows, putRows_eq, hentries]

end Draft

end PrefStore
