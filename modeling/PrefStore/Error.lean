import PrefStore.Key
import PrefStore.Text.Visible
import PrefStore.Value.Basic

/-!
# Failures

`StoreError` is why an operation on a store fails; `ImportError` is why a backup, a legacy
record or a legacy database is refused, and includes the failures of the store underneath.
A failure is named by its cause. `text?` gives its wording, and nothing where the wording is
left to the database engine or the operating system.
-/

namespace PrefStore

/-- Why input or output failed. -/
inductive IoCause where
  /-- The backend was told to fail. -/
  | injected
  /-- A file or directory is in the way. -/
  | blocked
  deriving DecidableEq, Repr

/-- Why an operation on a store fails. -/
inductive StoreError where
  | database
  | invalidKey (key : String)
  | reservedKey (key : String)
  | invalidValue (key : String) (source : ValueError)
  | corrupt (reason : String)
  | aborted
  | io (cause : IoCause)
  deriving DecidableEq

/-- The wording of a store's failure. -/
def StoreError.text? : StoreError → Option String
  | database => none
  | invalidKey key => some ("invalid key: " ++ visible key)
  | reservedKey key => some ("reserved key: " ++ key)
  | invalidValue key source => some ("invalid value for key " ++ key ++ ": " ++ source.message)
  | corrupt reason => some ("corrupt store: " ++ reason)
  | aborted => some "edit aborted"
  | io .injected => some "I/O error: injected"
  | io .blocked => none

/-- The version of backup documents. -/
def backupVersion : Int64 := 2

/-- Why an import, an export or a legacy record is refused. -/
inductive ImportError where
  | store (source : StoreError)
  /-- The document has another version, or none. -/
  | versionMismatch (found : Option Int64)
  | invalidDocument (reason : String)
  | invalidHolder (key : String) (reason : String)
  | unknownType (key : String) (tag : String)
  | unknownLegacyType (key : String) (code : Int64)
  | missingLegacyValue (key : String) (kind : Kind)
  | notALong (key : String) (value : String)
  /-- A column that should hold JSON holds something else. -/
  | json
  /-- The legacy database, or a column of it, cannot be read. -/
  | legacy
  deriving DecidableEq

/-- The wording of a refusal. -/
def ImportError.text? : ImportError → Option String
  | store source => source.text?.map ("storage error: " ++ ·)
  | versionMismatch found =>
    let shown := match found with
      | none => "None"
      | some version => "Some(" ++ toString version.toInt ++ ")"
    some ("backup version mismatch: expected " ++ toString backupVersion.toInt ++
      ", found " ++ shown)
  | invalidDocument reason => some ("invalid backup document: " ++ reason)
  | invalidHolder key reason =>
    some ("invalid value holder for key " ++ key ++ ": " ++ reason)
  | unknownType key tag => some ("unknown value type " ++ tag ++ " for key " ++ key)
  | unknownLegacyType key code =>
    some ("unknown legacy value type " ++ toString code.toInt ++ " for key " ++ key)
  | missingLegacyValue key kind =>
    some ("legacy record " ++ key ++ " has no " ++ kind.name ++ " value")
  | notALong key value =>
    some ("legacy value " ++ visible value ++ " for key " ++ key ++ " is not a long")
  | json => none
  | legacy => none

end PrefStore
