import PrefStore.Backup.Transfer
import PrefStore.Dict.Lemmas
import PrefStore.Proofs.Except
import PrefStore.Proofs.Json.Strings
import PrefStore.Proofs.Number.Exact

/-!
# Documents read back what they write

Every storable value is read back from its tree, whatever its kind: a float through the 64-bit
number of the same value, a set through its members. A document without reserved keys is read
back from its wire form, and the document of entries with storable values decodes to them.
-/

namespace PrefStore

@[simp] theorem Kind.ofTag?_code (kind : Kind) :
    ofTag? (.ofInt64 (Int64.ofNat kind.code)) = some kind := by
  cases kind <;> rfl

@[simp] theorem JsonNumber.toInt64?_ofInt64 (w : Int64) :
    (JsonNumber.ofInt64 w).toInt64? = some w :=
  int64?_toInt w

private theorem int64Nearest_toInt (w : Int64) : int64Nearest w.toInt = w := by
  have hlow := w.le_toInt
  have hhigh := w.toInt_lt
  rw [int64Nearest, if_neg (by unfold int64Least; omega), if_neg (by unfold int64Most; omega),
    Int64.ofInt_toInt]

private theorem JsonNumber.toInt64?_ofInt32 (w : Int32) :
    ∃ wide, (JsonNumber.ofInt32 w).toInt64? = some wide ∧ wide.toInt = w.toInt := by
  refine ⟨w.toInt64, ?_, Int32.toInt_toInt64 w⟩
  have hfits := int64?_toInt w.toInt64
  rw [Int32.toInt_toInt64] at hfits
  exact hfits

/-- Every storable value is read back from its tree. -/
theorem Value.ofJson_toJson {v : Value} (h : v.storable = true) :
    ofJson v.kind v.toJson = .ok v := by
  cases v with
  | boolean b => rfl
  | float x =>
    have hfinite : x.isFinite = true := h
    have hwide : x.widen.isFinite = true := (Binary.isFinite_widen x).trans hfinite
    have hjson : (float x).toJson = .num (.real x.widen hwide) := by
      rw [toJson, floatJson, dif_pos hwide]
    rw [hjson]
    simp [ofJson, kind, JsonNumber.toDouble, hfinite]
  | int i =>
    obtain ⟨wide, hwide, hsame⟩ := JsonNumber.toInt64?_ofInt32 i
    simp [ofJson, kind, toJson, hwide, hsame]
  | long i => simp [ofJson, kind, toJson]
  | string s => rfl
  | stringSet s =>
    have hstrings := Json.strings?_ofStrings s.items
    have harr : (stringSet s).toJson = .arr (s.items.map .str) := rfl
    rw [Json.ofStrings] at hstrings
    simp [ofJson, kind, harr, hstrings]

/-- The holder of a storable value decodes to it. -/
theorem Holder.decode_ofValue {v : Value} (h : v.storable = true) (key : String) :
    (ofValue v).decode key = .ok v := by
  rw [decode, ofValue, Value.ofJson_toJson h]
  rfl

/-- The holder of a value can be decoded exactly if the value can be stored. -/
theorem Holder.exists_decode_ofValue_iff {v : Value} {key : String} :
    (∃ w, (ofValue v).decode key = .ok w) ↔ v.storable = true := by
  refine ⟨fun ⟨w, hdecode⟩ => ?_, fun h => ⟨v, decode_ofValue h key⟩⟩
  cases v with
  | float x =>
    by_contra hinfinite
    have hnull : Value.floatJson x.widen = .null :=
      dif_neg (by rwa [Binary.isFinite_widen])
    rw [decode, ofValue, Value.toJson, hnull] at hdecode
    cases hdecode
  | boolean | int | long | string | stringSet => rfl

/-- A holder is read back from its wire form. -/
theorem Holder.ofJson_toJson (key : String) (h : Holder) : ofJson key h.toJson = .ok h := by
  have htype : Assoc.get? "type" [("type", Json.ofInt64 (Int64.ofNat h.kind.code)),
      ("value", h.value)] = some (.ofInt64 (Int64.ofNat h.kind.code)) := rfl
  have hvalue : Assoc.get? "value" [("type", Json.ofInt64 (Int64.ofNat h.kind.code)),
      ("value", h.value)] = some h.value := rfl
  simp only [ofJson, toJson, htype, hvalue, Kind.ofTag?_code]

namespace Document

/-- The field of the version. -/
def versionField (d : Document) : Dict Json :=
  ⟨[(versionKey, .ofInt64 d.version)], List.pairwise_singleton _ _⟩

/-- The fields of the wire form. -/
def fields (d : Document) : Dict Json :=
  d.entries.entries.foldl (fun fields entry => fields.insert entry.1 entry.2.toJson) d.versionField

/-- The wire form is an object with these fields. -/
theorem toJson_eq (d : Document) : d.toJson = .obj d.fields.entries := by
  have hfold (start : Dict Json) (entries : List (String × Holder)) :
      entries.foldl (fun fields entry => Assoc.insert entry.1 entry.2.toJson fields)
          start.entries =
        (entries.foldl (fun fields entry => fields.insert entry.1 entry.2.toJson)
          start).entries := by
    induction entries generalizing start with
    | nil => rfl
    | cons entry rest ih => exact ih (start.insert entry.1 entry.2.toJson)
  exact congrArg Json.obj (hfold d.versionField d.entries.entries)

/-- A field is the wire form of a holder or the version. -/
theorem get?_fields (d : Document) (key : String) :
    d.fields.get? key = ((d.entries.get? key).map Holder.toJson).or
      (if versionKey = key then some (.ofInt64 d.version) else none) := by
  have hmap : d.fields = (d.entries.mapValues Holder.toJson).entries.foldl
      (fun fields entry => fields.insert entry.1 entry.2) d.versionField := by
    rw [fields, Dict.mapValues, List.foldl_map]
  rw [hmap, Dict.get?_foldl_insert, ← Dict.get?_ofList, Dict.ofList_entries, Dict.get?_mapValues]
  rfl

/-- No key of the document is reserved. -/
def Unreserved (d : Document) : Prop := ∀ key, isReserved key = true → d.entries.get? key = none

private theorem version?_fields {d : Document} (h : d.Unreserved) :
    version? (Assoc.get? versionKey d.fields.entries) = some d.version := by
  have hversion : d.fields.get? versionKey = some (.ofInt64 d.version) := by
    rw [get?_fields, h versionKey (by simp [isReserved])]
    simp
  have hget : Assoc.get? versionKey d.fields.entries = some (.ofInt64 d.version) := hversion
  rw [hget]
  exact congrArg some (int64Nearest_toInt d.version)

private theorem filter_fields {d : Document} (h : d.Unreserved) :
    (d.fields.entries.filter fun field => !isReserved field.1) =
      d.entries.entries.map fun entry => (entry.1, entry.2.toJson) := by
  have hdict : d.fields.filterKeys (fun key => !isReserved key) =
      d.entries.mapValues Holder.toJson := by
    refine Dict.ext_get? fun key => ?_
    rw [Dict.get?_filterKeys, Dict.get?_mapValues, get?_fields]
    cases hkey : isReserved key with
    | true => simp [h key hkey]
    | false =>
      have hne : versionKey ≠ key := by
        rintro rfl
        simp [isReserved] at hkey
      simp [hne]
  exact congrArg Dict.entries hdict

/-- A document without reserved keys is read back from its wire form. -/
theorem ofJson_toJson {d : Document} (h : d.Unreserved) : ofJson d.toJson = .ok d := by
  have hholders : holders d.fields.entries = .ok d.entries.entries := by
    rw [holders, filter_fields h]
    refine mapM_map_eq_ok fun entry _ => ?_
    show (Holder.ofJson entry.1 entry.2.toJson >>= fun holder => pure (entry.1, holder)) = _
    rw [Holder.ofJson_toJson]
    rfl
  have hroot : root d.toJson = .ok d.fields.entries := by rw [toJson_eq, root]
  simp only [ofJson, hroot, hholders, version?_fields h, bind, Except.bind, pure, Except.pure]
  rw [Dict.ofList_entries]

/-- The document of entries. -/
def ofValues (values : List (String × Value)) : Document :=
  .ofEntries (Dict.ofList (values.map fun (key, value) => (key, Holder.ofValue value)))

/-- The document of ascending entries has their holders. -/
theorem entries_ofValues {values : List (String × Value)} (h : Assoc.Ascending values) :
    (ofValues values).entries.entries =
      values.map fun entry => (entry.1, Holder.ofValue entry.2) := by
  have hdict := Dict.ofList_entries
    ((⟨values, h⟩ : Dict Value).mapValues Holder.ofValue)
  exact congrArg Dict.entries hdict

/-- The document of ascending entries decodes to them, if their values can be stored. -/
theorem decode_ofValues {values : List (String × Value)} (h : Assoc.Ascending values)
    (hvalues : ∀ entry ∈ values, entry.2.storable = true) :
    (ofValues values).decode = .ok values := by
  rw [decode, entries_ofValues h]
  refine mapM_map_eq_ok fun entry hentry => ?_
  show ((Holder.ofValue entry.2).decode entry.1 >>= fun value => pure (entry.1, value)) = _
  rw [Holder.decode_ofValue (hvalues entry hentry)]
  rfl

end Document

end PrefStore
