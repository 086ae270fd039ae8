import PrefStore.Proofs.Backup.Grammar
import PrefStore.Proofs.Database.Rows

/-!
# The encodings of a value

A value is encoded as a tree, which is read with the kind of the value, and as a cell, which is read
with the code of that kind. Exactly the values that can be stored are read back from both, the sign
of a zero included. A tree may stand for a value without being its encoding: its number may have to
be rounded, its items may be repeated or out of order. What is read from it can be stored all the
same, and so reads back from its own encodings.
-/

namespace PrefStore

namespace Value

/-- A value reads back if each of its encodings is read as that value. -/
structure ReadsBack (v : Value) : Prop where
  /-- The tree is read with the kind of the value. -/
  tree : ofJson v.kind v.toJson = .ok v
  /-- The cell is read with the code of the kind. -/
  cell : (Kind.ofCode? v.kind.code).bind (fun kind => ofCell? kind v.toCell) = some v
  /-- So is the row of the value, whatever its key. -/
  row (key : String) : (PreferenceRow.ofEntry key v).preference? = some (key, v)
  /-- The cell of a set holds the text of its tree, and that text spells the tree. -/
  text (s : StringSet) : v = .stringSet s →
    v.toCell = .text v.toJson.text ∧ Json.read? v.toJson.text = some v.toJson

/-- What is read from a tree has the kind that was asked for and can be stored. -/
theorem storable_of_ofJson {kind : Kind} {json : Json} {v : Value} (h : ofJson kind json = .ok v) :
    v.kind = kind ∧ v.storable = true := by
  obtain ⟨hkind, hencoded⟩ := ofJson_eq_ok_iff.1 h
  exact ⟨hkind, hencoded.storable⟩

/-- A value that can be stored reads back. -/
theorem readsBack_of_storable {v : Value} (h : v.storable = true) : v.ReadsBack := by
  -- The cell asks for less than the tree: an infinite float is read back from it.
  have hsame : v.same v = true := same_self_of_storable h
  refine ⟨ofJson_toJson h, ?cell, PreferenceRow.preference?_ofEntry hsame, ?text⟩
  case cell =>
    rw [Kind.ofCode?_code, Option.bind_some]
    exact ofCell?_toCell hsame
  case text =>
    rintro s rfl
    exact ⟨rfl, Json.read?_ofStrings s.items⟩

/-- Exactly the values that can be stored read back. -/
theorem readsBack_iff {v : Value} : v.ReadsBack ↔ v.storable = true :=
  ⟨fun h => (storable_of_ofJson h.tree).2, readsBack_of_storable⟩

/-- The encodings keep what can be stored and let in nothing else. A value passes the check for what
can be stored exactly if it reads back from its tree and its cell, where a set passes through its
text. And whatever tree is read as a kind gives a value of that kind that passes the check, so
writing it in either encoding and reading it again gives it again. -/
theorem encodings_keep_storable_values :
    (∀ v : Value, v.validate = .ok () ↔ v.ReadsBack) ∧
    ∀ (kind : Kind) (json : Json) (v : Value), ofJson kind json = .ok v →
      v.kind = kind ∧ v.validate = .ok () ∧ v.ReadsBack := by
  have hvalid (v : Value) : v.validate = .ok () ↔ v.ReadsBack := by
    rw [validate_eq_ok_iff, readsBack_iff]
  refine ⟨hvalid, fun kind json v h => ?_⟩
  obtain ⟨hkind, hstorable⟩ := storable_of_ofJson h
  have hback := readsBack_of_storable hstorable
  exact ⟨hkind, (hvalid v).2 hback, hback⟩

/-- A set whose items hold a quote, a backslash, control characters and a character of four bytes
reads back; it is read from an array that repeats an item. So does the float that is read from the
least integer without a float of 32 bits. -/
theorem encodings_keep_odd_values :
    let items := ["😀", "\"\\", "\x00\n", "😀", ""]
    let set : Value := .stringSet (.ofList items)
    let number : JsonNumber := .int 16777217 (by decide)
    let rounded : Value := .float (.finite false 1 24 (by decide))
    set.validate = .ok () ∧ set.ReadsBack ∧
      set.toCell = .text "[\"\",\"\\u0000\\n\",\"\\\"\\\\\",\"😀\"]" ∧
      ofJson .stringSet (.ofStrings items) = .ok set ∧ set.kind = .stringSet ∧
      ofJson .float (.num number) = .ok rounded ∧ rounded.kind = .float ∧
      rounded.validate = .ok () ∧ rounded.ReadsBack := by
  intro items set number rounded
  have hset : set.validate = .ok () := rfl
  have hitems : ofJson .stringSet (.ofStrings items) = .ok set := rfl
  have hnumber : ofJson .float (.num number) = .ok rounded := rfl
  have hback : set.ReadsBack := (encodings_keep_storable_values.1 set).1 hset
  obtain ⟨hkind, -, -⟩ := encodings_keep_storable_values.2 _ _ _ hitems
  obtain ⟨hfloat, hvalid, hrounded⟩ := encodings_keep_storable_values.2 _ _ _ hnumber
  exact ⟨hset, hback, by decide, hitems, hkind, hnumber, hfloat, hvalid, hrounded⟩

end Value

end PrefStore
