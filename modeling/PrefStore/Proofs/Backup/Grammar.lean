import PrefStore.Backup.Document
import PrefStore.Proofs.Backup.Codec
import PrefStore.Proofs.Except
import PrefStore.Proofs.Number.Value

/-!
# The grammar of backups

Which trees stand for a kind, for a value, for a version and for a holder, each as a relation
that says nothing about how it is decided. A reader accepts exactly the trees of its relation,
and what it reports about any other tree is told by the form of the tree.
-/

namespace PrefStore

namespace Kind

/-- A tag stands for a kind: a number by its integer part, a string by the name. -/
inductive TaggedBy (kind : Kind) : Json → Prop where
  | code {n : JsonNumber} (h : towardZero n.value = kind.code) : TaggedBy kind (.num n)
  | name : TaggedBy kind (.str kind.name)

private theorem ofCode?_eq_some_iff {code : ℤ} {kind : Kind} :
    ofCode? code = some kind ↔ code = kind.code := by
  constructor
  · intro h
    have hcode := List.find?_some h
    exact (of_decide_eq_true hcode).symm
  · rintro rfl
    exact ofCode?_code kind

/-- A code of 64 bits is found where it is the code of a kind. -/
theorem ofCode?_toInt_eq_some_iff {code : Int64} {kind : Kind} :
    ofCode? code.toInt = some kind ↔ code = Int64.ofNat kind.code := by
  have hcode : (Int64.ofNat kind.code).toInt = kind.code := by cases kind <;> rfl
  rw [ofCode?_eq_some_iff, ← hcode, Int64.toInt_inj]

private theorem ofName?_eq_some_iff {name : String} {kind : Kind} :
    ofName? name = some kind ↔ name = kind.name := by
  constructor
  · intro h
    have hname := List.find?_some h
    exact (of_decide_eq_true hname).symm
  · rintro rfl
    exact ofName?_name kind

private theorem saturated_eq_code_iff {i : ℤ} {kind : Kind} :
    saturated i = kind.code ↔ i = kind.code := by
  have hcode : kind.code ≤ 5 := by cases kind <;> decide
  unfold saturated int64Least int64Most
  omega

/-- A tag resolves to the kind that it stands for. -/
theorem ofTag?_eq_some_iff {tag : Json} {kind : Kind} :
    ofTag? tag = some kind ↔ kind.TaggedBy tag := by
  cases tag with
  | num n =>
    have hcode : ofTag? (.num n) = some kind ↔ towardZero n.value = kind.code := by
      rw [ofTag?, ofCode?_eq_some_iff, JsonNumber.toInt_truncate, saturated_eq_code_iff]
    rw [hcode]
    constructor
    · exact .code
    · rintro ⟨h⟩
      exact h
  | str name =>
    rw [ofTag?, ofName?_eq_some_iff]
    constructor
    · rintro rfl
      exact .name
    · rintro ⟨⟩
      rfl
  | null | bool | arr | obj => exact ⟨nofun, nofun⟩

end Kind

/-- A number is a 64-bit word where it is the number of that word. -/
theorem JsonNumber.toInt64?_eq_some_iff {n : JsonNumber} {w : Int64} :
    n.toInt64? = some w ↔ n = .ofInt64 w := by
  cases n with
  | int i fits => simp [toInt64?, ofInt64, int64?_eq_some_iff]
  | real x finite => simp [toInt64?, ofInt64]

namespace Value

/-- A tree stands for a value. -/
inductive Encoded : Value → Json → Prop where
  | boolean (b : Bool) : Encoded (.boolean b) (.bool b)
  /-- Any number will do that is not too large for 32 bits. -/
  | float {n : JsonNumber} (h : n.toDouble.narrow.isFinite = true) :
      Encoded (.float n.toDouble.narrow) (.num n)
  | int (i : Int32) : Encoded (.int i) (.num (.ofInt32 i))
  | long (i : Int64) : Encoded (.long i) (.num (.ofInt64 i))
  | string (s : String) : Encoded (.string s) (.str s)
  | stringSet (items : List String) : Encoded (.stringSet (.ofList items)) (.ofStrings items)

/-- A value is read as a kind exactly from the trees that stand for a value of this kind. -/
theorem ofJson_eq_ok_iff {kind : Kind} {json : Json} {v : Value} :
    ofJson kind json = .ok v ↔ v.kind = kind ∧ v.Encoded json := by
  constructor
  · intro h
    unfold ofJson at h
    split at h
    · cases h
      exact ⟨rfl, .boolean _⟩
    · dsimp only at h
      split at h
      · next hfinite =>
        cases h
        exact ⟨rfl, .float hfinite⟩
      · cases h
    · split at h
      · cases h
      · next wide hwide =>
        split at h
        · cases h
        · next i hi =>
          cases h
          have hsame := int32?_eq_some_iff.1 hi
          have hsmall : JsonNumber.ofInt64 wide = .ofInt32 i := by
            simp [JsonNumber.ofInt64, JsonNumber.ofInt32, hsame]
          rw [JsonNumber.toInt64?_eq_some_iff.1 hwide, hsmall]
          exact ⟨rfl, .int i⟩
    · split at h
      · cases h
      · next i hi =>
        cases h
        rw [JsonNumber.toInt64?_eq_some_iff.1 hi]
        exact ⟨rfl, .long i⟩
    · cases h
      exact ⟨rfl, .string _⟩
    · split at h
      · cases h
      · next items hitems =>
        cases h
        rw [Json.strings?_eq_some_iff.1 hitems]
        exact ⟨rfl, .stringSet items⟩
    · cases h
  · rintro ⟨rfl, h⟩
    cases h with
    | boolean | string => rfl
    | float hfinite => simp [ofJson, kind, hfinite]
    | int i => exact ofJson_toJson (v := .int i) rfl
    | long i => exact ofJson_toJson (v := .long i) rfl
    | stringSet items =>
      have hstrings := Json.strings?_ofStrings items
      rw [Json.ofStrings] at hstrings ⊢
      simp [ofJson, kind, hstrings]

/-- What is read can be stored. -/
theorem Encoded.storable {v : Value} {json : Json} (h : v.Encoded json) : v.storable = true := by
  cases h with
  | float hfinite => exact hfinite
  | boolean | int | long | string | stringSet => rfl

/-- A tree has the form of a kind. -/
inductive Form : Kind → Json → Prop where
  | boolean (b : Bool) : Form .boolean (.bool b)
  | float (n : JsonNumber) : Form .float (.num n)
  | int (i : Int64) : Form .int (.num (.ofInt64 i))
  | long (i : Int64) : Form .long (.num (.ofInt64 i))
  | string (s : String) : Form .string (.str s)
  | stringSet (items : List String) : Form .stringSet (.ofStrings items)

/-- What is wrong with a tree that stands for no value of a kind. -/
inductive Fault : Kind → Json → ValueError → Prop where
  | mismatch {kind : Kind} {json : Json} (h : ¬ Form kind json) :
      Fault kind json (.mismatch kind json.shape)
  | float {n : JsonNumber} (h : n.toDouble.narrow.isFinite = false) :
      Fault .float (.num n) (.outOfRange .float (Json.num n).text)
  | int {i : Int64} (h : ∀ w : Int32, w.toInt ≠ i.toInt) :
      Fault .int (.num (.ofInt64 i)) (.outOfRange .int (toString i.toInt))

/-- Every other tree is refused for what is wrong with it. -/
theorem ofJson_eq_error_iff {kind : Kind} {json : Json} {e : ValueError} :
    ofJson kind json = .error e ↔ Fault kind json e := by
  constructor
  · intro h
    unfold ofJson at h
    split at h
    · cases h
    · dsimp only at h
      split at h
      · cases h
      · next hfinite =>
        cases h
        exact .float (by simpa using hfinite)
    · split at h
      · next hnone =>
        cases h
        refine .mismatch fun hform => ?_
        cases hform
        simp at hnone
      · next wide hwide =>
        split at h
        · next hnone =>
          cases h
          rw [JsonNumber.toInt64?_eq_some_iff.1 hwide]
          refine .int fun w hw => ?_
          rw [int32?_eq_some_iff.2 hw.symm] at hnone
          cases hnone
        · cases h
    · split at h
      · next hnone =>
        cases h
        refine .mismatch fun hform => ?_
        cases hform
        simp at hnone
      · cases h
    · cases h
    · split at h
      · next hnone =>
        cases h
        refine .mismatch fun hform => ?_
        generalize hjson : Json.arr _ = json at hform hnone
        cases hform
        rw [Json.strings?_ofStrings] at hnone
        cases hnone
      · cases h
    · cases h
      refine .mismatch fun hform => ?_
      cases hform <;> simp_all [Json.ofStrings]
  · intro h
    cases h with
    | mismatch hform =>
      unfold ofJson
      split
      · exact absurd (.boolean _) hform
      · exact absurd (.float _) hform
      · split
        · rfl
        · next wide hwide =>
          rw [JsonNumber.toInt64?_eq_some_iff.1 hwide] at hform
          exact absurd (.int wide) hform
      · split
        · rfl
        · next i hi =>
          rw [JsonNumber.toInt64?_eq_some_iff.1 hi] at hform
          exact absurd (.long i) hform
      · exact absurd (.string _) hform
      · split
        · rfl
        · next items hitems =>
          rw [Json.strings?_eq_some_iff.1 hitems] at hform
          exact absurd (.stringSet items) hform
      · rfl
    | float hfinite => simp [ofJson, hfinite]
    | @int i hw =>
      have hnone : int32? i.toInt = none :=
        Option.eq_none_iff_forall_ne_some.2 fun w h => hw w (int32?_eq_some_iff.1 h).symm
      simp [ofJson, hnone]

end Value

namespace Holder

/-- A tree is the wire form of a holder, whatever else stands in it. -/
inductive Written : Json → Holder → Prop where
  | intro {fields : List (String × Json)} {tag value : Json} {kind : Kind}
      (htype : Assoc.get? "type" fields = some tag) (hkind : kind.TaggedBy tag)
      (hvalue : Assoc.get? "value" fields = some value) : Written (.obj fields) ⟨kind, value⟩

/-- What is wrong with a tree that is not the wire form of a holder. -/
inductive Fault (key : String) : Json → ImportError → Prop where
  | notObject {json : Json} (h : ∀ fields, json ≠ .obj fields) :
      Fault key json (.invalidHolder key "not an object")
  | noType {fields : List (String × Json)} (h : Assoc.get? "type" fields = none) :
      Fault key (.obj fields) (.invalidHolder key "missing type")
  | unknownType {fields : List (String × Json)} {tag : Json}
      (htype : Assoc.get? "type" fields = some tag) (h : ∀ kind : Kind, ¬ kind.TaggedBy tag) :
      Fault key (.obj fields) (.unknownType key tag.text)
  | noValue {fields : List (String × Json)} {tag : Json} {kind : Kind}
      (htype : Assoc.get? "type" fields = some tag) (hkind : kind.TaggedBy tag)
      (h : Assoc.get? "value" fields = none) :
      Fault key (.obj fields) (.invalidHolder key "missing value")

/-- A holder is read from its wire form, whatever the key. -/
theorem ofJson_eq_ok_iff {key : String} {json : Json} {holder : Holder} :
    ofJson key json = .ok holder ↔ Written json holder := by
  constructor
  · intro h
    unfold ofJson at h
    split at h
    · split at h
      · cases h
      · next tag htype =>
        split at h
        · cases h
        · next kind hkind =>
          split at h
          · cases h
          · next value hvalue =>
            cases h
            exact .intro htype (Kind.ofTag?_eq_some_iff.1 hkind) hvalue
    · cases h
  · rintro ⟨htype, hkind, hvalue⟩
    simp only [ofJson, htype, Kind.ofTag?_eq_some_iff.2 hkind, hvalue]

/-- A tree is refused for what is wrong with it. -/
theorem ofJson_eq_error_iff {key : String} {json : Json} {cause : ImportError} :
    ofJson key json = .error cause ↔ Fault key json cause := by
  constructor
  · intro h
    unfold ofJson at h
    split at h
    · split at h
      · next htype =>
        cases h
        exact .noType htype
      · next tag htype =>
        split at h
        · next hkind =>
          cases h
          refine .unknownType htype fun kind htagged => ?_
          rw [Kind.ofTag?_eq_some_iff.2 htagged] at hkind
          cases hkind
        · next kind hkind =>
          split at h
          · next hvalue =>
            cases h
            exact .noValue htype (Kind.ofTag?_eq_some_iff.1 hkind) hvalue
          · cases h
    · next hobject =>
      cases h
      exact .notObject hobject
  · intro h
    cases h with
    | notObject h =>
      cases json with
      | obj fields => exact absurd rfl (h fields)
      | null | bool | num | str | arr => rfl
    | noType h => simp only [ofJson, h]
    | @unknownType _ tag htype h =>
      have hkind : Kind.ofTag? tag = none := by
        refine Option.eq_none_iff_forall_ne_some.2 fun kind hkind => ?_
        exact h kind (Kind.ofTag?_eq_some_iff.1 hkind)
      simp only [ofJson, htype, hkind]
    | noValue htype hkind h => simp only [ofJson, htype, Kind.ofTag?_eq_some_iff.2 hkind, h]

/-- The tree of a holder stands for a value of its kind. -/
def Holds (h : Holder) (v : Value) : Prop := v.kind = h.kind ∧ v.Encoded h.value

/-- A holder decodes to the value that its tree stands for. -/
theorem decode_eq_ok_iff {holder : Holder} {key : String} {v : Value} :
    holder.decode key = .ok v ↔ holder.Holds v := by
  rw [decode, mapError_eq_ok_iff]
  exact Value.ofJson_eq_ok_iff

/-- A holder is refused for what is wrong with its tree, with the key. -/
theorem decode_eq_error_iff {holder : Holder} {key : String} {cause : ImportError} :
    holder.decode key = .error cause ↔
      ∃ e, Value.Fault holder.kind holder.value e ∧ cause = .invalidHolder key e.message := by
  simp only [decode, mapError_eq_error_iff, Value.ofJson_eq_error_iff]

end Holder

/-- A number that is read from a string is finite. -/
theorem isFinite_of_readFinite? {s : String} {x : Double} (h : readFinite? s = some x) :
    x.isFinite = true := by
  obtain ⟨n, -, hn⟩ := Option.bind_eq_some_iff.1 h
  split at hn
  · next hfinite =>
    cases hn
    exact hfinite
  · cases hn

namespace Document

/-- A tree states a number. -/
inductive States : Json → ℚ → Prop where
  | number (n : JsonNumber) : States (.num n) n.value
  | whole {s : String} {i : Int64} (h : readInt64? (trimBlank s) = some i) :
      States (.str s) i.toInt
  /-- A string that spells an integer of 64 bits is not read as a floating-point number. -/
  | decimal {s : String} {x : Double} (hwhole : readInt64? (trimBlank s) = none)
      (h : readFinite? (trimBlank s) = some x) : States (.str s) x.value

/-- The version that a field states is the integer part of its number, as far as it fits. -/
theorem version?_eq_some_iff {field : Option Json} {version : Int64} :
    version? field = some version ↔
      ∃ json x, field = some json ∧ States json x ∧
        version.toInt = saturated (towardZero x) := by
  constructor
  · intro h
    cases field with
    | none => cases h
    | some json =>
      cases json with
      | num n =>
        cases h
        exact ⟨_, _, rfl, .number n, n.toInt_truncate⟩
      | str s =>
        simp only [version?] at h
        split at h
        · next i hi =>
          cases h
          refine ⟨_, _, rfl, .whole hi, ?_⟩
          rw [towardZero_intCast, saturated_toInt]
        · next hwhole =>
          obtain ⟨x, hx, rfl⟩ := Option.map_eq_some_iff.1 h
          exact ⟨_, _, rfl, .decimal hwhole hx, Binary.toInt_toInt64 (isFinite_of_readFinite? hx)⟩
      | null | bool | arr | obj => cases h
  · rintro ⟨json, x, rfl, hstates, hversion⟩
    cases hstates with
    | number n =>
      rw [← n.toInt_truncate] at hversion
      rw [version?, Int64.toInt_inj.1 hversion]
    | whole h =>
      rw [towardZero_intCast, saturated_toInt] at hversion
      simp only [version?, h, Int64.toInt_inj.1 hversion]
    | decimal hwhole h =>
      rw [← Binary.toInt_toInt64 (isFinite_of_readFinite? h)] at hversion
      simp only [version?, hwhole, h, Option.map_some, Int64.toInt_inj.1 hversion]

/-- The version of an object, or none if no number is stated where it belongs. -/
inductive Version (fields : List (String × Json)) : Option Int64 → Prop where
  | stated {json : Json} {x : ℚ} {version : Int64}
      (hfield : Assoc.get? versionKey fields = some json) (hstates : States json x)
      (hversion : version.toInt = saturated (towardZero x)) : Version fields (some version)
  | unstated (h : ∀ json x, Assoc.get? versionKey fields = some json → ¬ States json x) :
      Version fields none

/-- The version that is read is the version of the object. -/
theorem version?_eq_iff {fields : List (String × Json)} {found : Option Int64} :
    version? (Assoc.get? versionKey fields) = found ↔ Version fields found := by
  cases found with
  | some version =>
    rw [version?_eq_some_iff]
    constructor
    · rintro ⟨json, x, hfield, hstates, hversion⟩
      exact .stated hfield hstates hversion
    · rintro ⟨hfield, hstates, hversion⟩
      exact ⟨_, _, hfield, hstates, hversion⟩
  | none =>
    constructor
    · intro h
      refine .unstated fun json x hfield hstates => ?_
      have hsome := version?_eq_some_iff.2 ⟨json, x, hfield, hstates, toInt_int64Nearest _⟩
      rw [h] at hsome
      cases hsome
    · intro h
      cases h with
      | unstated h =>
        refine Option.eq_none_iff_forall_ne_some.2 fun version hversion => ?_
        obtain ⟨json, x, hfield, hstates, -⟩ := version?_eq_some_iff.1 hversion
        exact h json x hfield hstates

/-- A tree stands under a key that is not reserved. -/
def HasField (fields : List (String × Json)) (key : String) (json : Json) : Prop :=
  isReserved key = false ∧ Assoc.get? key fields = some json

/-- The fields of an object that is imported. -/
structure Accepted (fields : List (String × Json)) : Prop where
  version : Version fields (some backupVersion)
  holds : ∀ key json, HasField fields key json →
    ∃ holder v, Holder.Written json holder ∧ holder.Holds v
  key_ne_empty : ∀ key json, HasField fields key json → key ≠ ""

/-- Why a tree is not imported. The reasons are in the order in which they are looked for: each
one supposes that those above do not apply, and names the least key to which it does. -/
inductive Refused : Json → ImportError → Prop where
  | notObject {json : Json} (h : ∀ fields, json ≠ .obj fields) :
      Refused json (.invalidDocument ("expected an object, got " ++ json.text))
  | version {fields : List (String × Json)} {found : Option Int64}
      (hversion : Version fields found) (h : found ≠ some backupVersion) :
      Refused (.obj fields) (.versionMismatch found)
  | fault {fields : List (String × Json)} {key : String} {json : Json} {cause : ImportError}
      (hversion : Version fields (some backupVersion)) (hfield : HasField fields key json)
      (h : Holder.Fault key json cause)
      (hleast : ∀ other json', other < key → HasField fields other json' →
        ∃ holder, Holder.Written json' holder) :
      Refused (.obj fields) cause
  | value {fields : List (String × Json)} {key : String} {json : Json} {holder : Holder}
      {e : ValueError} (hversion : Version fields (some backupVersion))
      (hwritten : ∀ other json', HasField fields other json' →
        ∃ holder', Holder.Written json' holder')
      (hfield : HasField fields key json) (hholder : Holder.Written json holder)
      (h : Value.Fault holder.kind holder.value e)
      (hleast : ∀ other json' holder', other < key → HasField fields other json' →
        Holder.Written json' holder' → ∃ v, holder'.Holds v) :
      Refused (.obj fields) (.invalidHolder key e.message)
  | emptyKey {fields : List (String × Json)} {json : Json}
      (hversion : Version fields (some backupVersion))
      (hholds : ∀ key json', HasField fields key json' →
        ∃ holder v, Holder.Written json' holder ∧ holder.Holds v)
      (hfield : HasField fields "" json) :
      Refused (.obj fields) (.store (.invalidKey ""))

end Document

end PrefStore
