import PrefStore.Backup.Document
import PrefStore.Legacy.Record
import PrefStore.Store.Observed

/-!
# Export and import

An export holds every entry that clients see. An import replaces all of them in one edit; it
reports whatever is wrong with the document before it writes anything, and a write that is
refused undoes the whole import. Pairs from before documents had versions are imported
leniently: a pair that has no storable value is skipped.
-/

namespace PrefStore

variable {β ρ : Type}

/-- The document of the entries that clients see. -/
def Store.exportDocument (s : Store β) : Document :=
  .ofEntries (Dict.ofList (s.entries.map fun (key, value) => (key, Holder.ofValue value)))

/-- The wire form of the export. -/
def Store.exportJson (s : Store β) : Json := s.exportDocument.toJson

/-- A line of key and value for each entry, for diagnostics. -/
def Store.exportDisplay (s : Store β) : String :=
  String.join (s.entries.map fun (key, value) => key ++ ": " ++ value.display ++ "\n")

/-- Puts entries into a draft, one after another. -/
def Draft.putAll (draft : Draft) (entries : List (String × Value)) :
    Except ImportError Draft :=
  entries.foldlM (fun draft (key, value) => (draft.put key value).mapError .store) draft

/-- Puts a legacy pair into a draft. -/
def Draft.putRecord (draft : Draft) (pair : LegacyRecord) : Except ImportError Draft := do
  let value ← pair.decode
  (draft.put pair.key value).mapError .store

/-- Puts every legacy pair that has a storable value into a draft and counts them. -/
def Draft.putRecords (draft : Draft) (pairs : List LegacyRecord) : Draft × Nat :=
  pairs.foldl
    (fun (draft, imported) pair =>
      match draft.putRecord pair with
      | .ok next => (next, imported + 1)
      | .error _ => (draft, imported))
    (draft, 0)

/-- The version stated by the pairs under the version key is the current one wherever it is
a long. -/
def checkPairs (pairs : List LegacyRecord) : Except ImportError Unit :=
  (pairs.filter fun pair => pair.key = versionKey).forM fun pair =>
    match pair.long with
    | some version => Document.checkVersion (some version)
    | none => .ok ()

namespace Observed

/-- Replaces the entries by those of a document. -/
def importDocument [Backend β] [Conduct ρ] (o : Observed β ρ) (document : Document) :
    Except (Halt ImportError) Unit × Observed β ρ :=
  match document.decode with
  | .error e => (.error (.error e), o)
  | .ok values => o.editStep (·.clear.putAll values)

/-- Replaces the entries by those of a document in wire form. The version is checked before
the holders are read. -/
def importJson [Backend β] [Conduct ρ] (o : Observed β ρ) (json : Json) :
    Except (Halt ImportError) Unit × Observed β ρ :=
  let document : Except ImportError Document := do
    let fields ← Document.root json
    Document.checkVersion (Document.version? (Assoc.get? versionKey fields))
    Document.ofJson json
  match document with
  | .error e => (.error (.error e), o)
  | .ok document => o.importDocument document

/-- The body of an import of pairs; its notes are the number of pairs imported. -/
def pairsBody (pairs : List LegacyRecord) : EditBody Nat ImportError :=
  fun draft _ =>
    let (draft, imported) :=
      draft.clear.putRecords (pairs.filter fun pair => !isReserved pair.key)
    (.ok draft, imported)

/-- Replaces the entries by legacy pairs. -/
def importPairs [Backend β] [Conduct ρ] (o : Observed β ρ) (pairs : List LegacyRecord) :
    Except (Halt ImportError) Unit × Observed β ρ :=
  match checkPairs pairs with
  | .error e => (.error (.error e), o)
  | .ok () =>
    let (outcome, _, o) := o.edit (pairsBody pairs) 0
    (outcome, o)

end Observed

end PrefStore
