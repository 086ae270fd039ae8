import PrefStore.Proofs.Backup.Grammar
import PrefStore.Proofs.Legacy.Entries

/-!
# What legacy records say

A record names the kind of its value by a code, and the value stands in the column of that kind;
both kinds of integers are held as longs. At certain keys a string is read as the long that it
writes. Here this is said without the reader, together with what keeps a record from being used.
-/

namespace PrefStore

namespace LegacyRecord

/-- A record holds a value if its code names a kind and the value stands in the column of that
kind. -/
inductive Holds (r : LegacyRecord) : Value → Prop where
  | boolean {b : Bool} (hcode : r.typeCode = 0) (hcolumn : r.boolean = some b) :
      Holds r (.boolean b)
  | float {x : Single} (hcode : r.typeCode = 1) (hcolumn : r.float = some x) : Holds r (.float x)
  | int {i : Int64} (hcode : r.typeCode = 2) (hcolumn : r.long = some i) : Holds r (.long i)
  | long {i : Int64} (hcode : r.typeCode = 3) (hcolumn : r.long = some i) : Holds r (.long i)
  | string {s : String} (hcode : r.typeCode = 4) (hcolumn : r.string = some s) :
      Holds r (.string s)
  | stringSet {s : StringSet} (hcode : r.typeCode = 5) (hcolumn : r.stringSet = some s) :
      Holds r (.stringSet s)

/-- A record reads as the value that it holds, or as the long that its string writes where strings
are read as longs at its key. -/
inductive Reads (stringToLong : StringSet) (r : LegacyRecord) : Value → Prop where
  | plain {v : Value} (h : r.Holds v)
      (hplain : ∀ s, v = .string s → r.key ∉ stringToLong.items) : Reads stringToLong r v
  | parsed {s : String} {i : Int64} (h : r.Holds (.string s)) (hkey : r.key ∈ stringToLong.items)
      (hparse : readInt64? s = some i) : Reads stringToLong r (.long i)

private theorem kind_eq_ok_iff {r : LegacyRecord} {kind : Kind} :
    r.kind = .ok kind ↔ ∃ named : Kind, r.typeCode = Int64.ofNat named.code ∧
      kind = if named = .int then .long else named := by
  simp only [← Kind.ofCode?_toInt_eq_some_iff, LegacyRecord.kind]
  cases Kind.ofCode? r.typeCode.toInt with
  | none => simp
  | some named => cases named <;> simp [eq_comm]

private theorem decode_eq_ok_iff_column {r : LegacyRecord} {v : Value} :
    r.decode = .ok v ↔ ∃ kind, r.kind = .ok kind ∧ r.column kind = some v := by
  rw [decode, bind_eq_ok_iff]
  refine exists_congr fun kind => and_congr_right fun _ => ?_
  cases r.column kind <;> simp

/-- The value of the declared type is the one that the record holds. -/
theorem decode_eq_ok_iff {r : LegacyRecord} {v : Value} : r.decode = .ok v ↔ r.Holds v := by
  rw [decode_eq_ok_iff_column]
  simp only [kind_eq_ok_iff]
  constructor
  · rintro ⟨kind, ⟨named, hcode, rfl⟩, hcolumn⟩
    cases named
    all_goals obtain ⟨x, hx, rfl⟩ := Option.map_eq_some_iff.1 hcolumn
    · exact .boolean hcode hx
    · exact .float hcode hx
    · exact .int hcode hx
    · exact .long hcode hx
    · exact .string hcode hx
    · exact .stringSet hcode hx
  · intro h
    cases h with
    | boolean hcode hcolumn =>
      exact ⟨_, ⟨.boolean, hcode, rfl⟩, congrArg (Option.map _) hcolumn⟩
    | float hcode hcolumn => exact ⟨_, ⟨.float, hcode, rfl⟩, congrArg (Option.map _) hcolumn⟩
    | int hcode hcolumn => exact ⟨_, ⟨.int, hcode, rfl⟩, congrArg (Option.map _) hcolumn⟩
    | long hcode hcolumn => exact ⟨_, ⟨.long, hcode, rfl⟩, congrArg (Option.map _) hcolumn⟩
    | string hcode hcolumn => exact ⟨_, ⟨.string, hcode, rfl⟩, congrArg (Option.map _) hcolumn⟩
    | stringSet hcode hcolumn =>
      exact ⟨_, ⟨.stringSet, hcode, rfl⟩, congrArg (Option.map _) hcolumn⟩

/-- The value that a record is used with is the one that it reads as. -/
theorem valueWith_eq_ok_iff {stringToLong : StringSet} {r : LegacyRecord} {v : Value} :
    r.valueWith stringToLong = .ok v ↔ r.Reads stringToLong v := by
  have hkey : stringToLong.contains r.key = true ↔ r.key ∈ stringToLong.items :=
    Dict.mem_keys_iff.symm
  rw [valueWith, bind_eq_ok_iff]
  simp only [decode_eq_ok_iff]
  constructor
  · rintro ⟨held, hheld, h⟩
    split at h
    · next s =>
      split at h
      · next hin =>
        split at h
        · next i hparse =>
          cases h
          exact .parsed hheld (hkey.1 hin) hparse
        · cases h
      · next hout =>
        cases h
        exact .plain hheld fun _ _ hin => hout (hkey.2 hin)
    · next hother =>
      cases h
      exact .plain hheld fun s hs => absurd hs (hother s)
  · rintro (⟨hheld, hplain⟩ | ⟨hheld, hin, hparse⟩)
    · refine ⟨v, hheld, ?_⟩
      cases v with
      | string s => simp [mt hkey.1 (hplain s rfl)]
      | boolean | float | int | long | stringSet => rfl
    · exact ⟨_, hheld, by simp only [hkey.2 hin, if_true, hparse]⟩

end LegacyRecord

/-- A client may write under any key but the empty one and the two reserved ones, and any value but
a float that is not finite. -/
theorem writable_iff {entry : String × Value} :
    Writable entry ↔ (entry.1 ≠ "" ∧ entry.1 ≠ migrationKey ∧ entry.1 ≠ versionKey) ∧
      ∀ x, entry.2 = .float x → x.isFinite = true := by
  have hkey : isReserved entry.1 = false ↔ entry.1 ≠ migrationKey ∧ entry.1 ≠ versionKey := by
    simp [isReserved]
  have hvalue : entry.2.storable = true ↔ ∀ x, entry.2 = .float x → x.isFinite = true := by
    cases entry.2 <;> simp [Value.storable]
  rw [Writable, hkey, hvalue]

/-- A row is good for an entry if it could be read, its record reads as the value, its key is
neither empty nor reserved, and the value is no float that is not finite. -/
structure GoodRow (stringToLong : StringSet) (row : Except ImportError LegacyRecord)
    (entry : String × Value) : Prop where
  reads : ∃ record, row = .ok record ∧ record.key = entry.1 ∧ record.Reads stringToLong entry.2
  key : entry.1 ≠ "" ∧ entry.1 ≠ migrationKey ∧ entry.1 ≠ versionKey
  finite : ∀ x, entry.2 = .float x → x.isFinite = true

/-- A row brings an entry in exactly if it is good for it. -/
theorem rowUsable?_eq_some_iff {stringToLong : StringSet}
    {row : Except ImportError LegacyRecord} {entry : String × Value} :
    rowUsable? stringToLong row = some entry ↔ GoodRow stringToLong row entry := by
  constructor
  · intro h
    cases row with
    | error cause => cases h
    | ok record =>
      obtain ⟨value, hvalue, hwrite, rfl⟩ := LegacyRecord.usable?_eq_some_iff.1 h
      have ⟨hkey, hfinite⟩ := writable_iff.1 hwrite
      exact ⟨⟨record, rfl, rfl, LegacyRecord.valueWith_eq_ok_iff.1 hvalue⟩, hkey, hfinite⟩
  · rintro ⟨⟨record, rfl, hrecord, hreads⟩, hkey, hfinite⟩
    have hwrite : Writable (record.key, entry.2) := hrecord ▸ writable_iff.2 ⟨hkey, hfinite⟩
    refine LegacyRecord.usable?_eq_some_iff.2
      ⟨entry.2, LegacyRecord.valueWith_eq_ok_iff.2 hreads, hwrite, ?_⟩
    rw [hrecord]

end PrefStore
