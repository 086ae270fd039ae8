import PrefStore.Error
import PrefStore.Number.Numeral
import PrefStore.Snapshot
import PrefStore.Text.Blank
import PrefStore.Value.Json

/-!
# Backup documents

A document has a version and, for each key, a holder: the kind of a value and the tree that
encodes it. On the wire it is an object with the version under its reserved key. Reading is
lenient about the form of the version and of the tags and drops reserved keys; the trees in
the holders are kept as they are until the document is decoded.
-/

namespace PrefStore

/-- One exported value: its kind and its tree. -/
structure Holder where
  kind : Kind
  value : Json

namespace Holder

/-- The holder of a value. -/
def ofValue (value : Value) : Holder := ⟨value.kind, value.toJson⟩

/-- Decodes the tree strictly as the kind. -/
def decode (h : Holder) (key : String) : Except ImportError Value :=
  (Value.ofJson h.kind h.value).mapError fun e => .invalidHolder key e.message

/-- The wire form. -/
def toJson (h : Holder) : Json :=
  .obj [("type", .ofInt64 (Int64.ofNat h.kind.code)), ("value", h.value)]

/-- Reads the wire form of the holder at a key. -/
def ofJson (key : String) : Json → Except ImportError Holder
  | .obj fields =>
    match Assoc.get? "type" fields with
    | none => .error (.invalidHolder key "missing type")
    | some tag =>
      match Kind.ofTag? tag with
      | none => .error (.unknownType key tag.text)
      | some kind =>
        match Assoc.get? "value" fields with
        | none => .error (.invalidHolder key "missing value")
        | some value => .ok ⟨kind, value⟩
  | _ => .error (.invalidHolder key "not an object")

end Holder

/-- A backup. -/
structure Document where
  version : Int64
  entries : Dict Holder

namespace Document

/-- A document of the current version. -/
def ofEntries (entries : Dict Holder) : Document := ⟨backupVersion, entries⟩

/-- The wire form. -/
def toJson (d : Document) : Json :=
  .obj (d.entries.entries.foldl
    (fun fields entry => Assoc.insert entry.1 entry.2.toJson fields)
    [(versionKey, .ofInt64 d.version)])

/-- The version that a tree states: a number toward zero, or a string that spells one. -/
def version? : Option Json → Option Int64
  | some (.num n) => some n.truncate
  | some (.str s) =>
    let s := trimBlank s
    match readInt64? s with
    | some i => some i
    | none => (readFinite? s).map Binary.toInt64
  | _ => none

/-- Requires the current version. -/
def checkVersion (found : Option Int64) : Except ImportError Unit :=
  if found = some backupVersion then .ok () else .error (.versionMismatch found)

/-- The fields of a tree that must be an object. -/
def root (json : Json) : Except ImportError (List (String × Json)) :=
  match json with
  | .obj fields => .ok fields
  | other => .error (.invalidDocument ("expected an object, got " ++ other.text))

/-- Reads the holders of the fields that are not reserved, in order. -/
def holders (fields : List (String × Json)) : Except ImportError (List (String × Holder)) :=
  (fields.filter fun field => !isReserved field.1).mapM fun (key, json) => do
    return (key, ← Holder.ofJson key json)

/-- Reads the wire form. The version must be there but may be any. -/
def ofJson (json : Json) : Except ImportError Document := do
  let fields ← root json
  match version? (Assoc.get? versionKey fields) with
  | none => .error (.versionMismatch none)
  | some version => return ⟨version, Dict.ofList (← holders fields)⟩

/-- Checks the version and decodes every holder, by ascending key. -/
def decode (d : Document) : Except ImportError (List (String × Value)) := do
  checkVersion (some d.version)
  d.entries.entries.mapM fun (key, holder) => do return (key, ← holder.decode key)

end Document

end PrefStore
