import PrefStore.Json.Basic

/-!
# Configuration

Where a store and the legacy database lie and how often others' commits are looked for. In
JSON a configuration is an object, or the list of its fields in order; what is left out takes
its default, and unknown fields of an object are ignored.
-/

namespace PrefStore

/-- How a store is opened. -/
structure StoreConfig where
  path : String := "configuration.db"
  /-- The interval in milliseconds at which others' commits are looked for, or never. -/
  pollIntervalMs : Option UInt64 := some 200
  /-- How long a writer waits for another one, in milliseconds. -/
  busyTimeoutMs : UInt64 := 5000
  deriving DecidableEq, Repr

/-- Where the legacy database lies, and which of its strings hold numbers. -/
structure LegacyConfig where
  path : String
  stringToLongKeys : StringSet := Dict.empty
  deriving DecidableEq

/-- A whole configuration. -/
structure Config where
  store : StoreConfig := {}
  legacy : Option LegacyConfig := none
  deriving DecidableEq

namespace Config

/-- The given fields of a structure with these field names: from an object by name, from a
list by position. A list that is too long is refused. -/
def fields? (names : List String) : Json → Option (List (Option Json))
  | .obj fields => some (names.map fun name => Assoc.get? name fields)
  | .arr items =>
    if names.length < items.length then none
    else some ((List.range names.length).map fun i => items[i]?)
  | _ => none

/-- Reads a field that is given, and leaves the default where it is not. -/
def field? {α : Type} (default : α) (read : Json → Option α) : Option Json → Option α
  | none => some default
  | some json => read json

/-- Reads a string. -/
def string? : Json → Option String
  | .str s => some s
  | _ => none

/-- Reads an integer of 64 bits without sign. -/
def uint64? : Json → Option UInt64
  | .num (.int i _) => if 0 ≤ i then some (UInt64.ofNat i.toNat) else none
  | _ => none

/-- Reads a set of strings. -/
def stringSet? (json : Json) : Option StringSet := json.strings?.map StringSet.ofList

/-- Reads null as nothing. -/
def nullable? {α : Type} (read : Json → Option α) : Json → Option (Option α)
  | .null => some none
  | json => (read json).map some

/-- The tree of an integer without sign. -/
def ofUInt64 (n : UInt64) : Json :=
  .num (.int n.toNat (by
    have high := n.toNat_lt
    unfold int64Least uint64Most
    omega))

end Config

namespace StoreConfig

open Config in
/-- Reads the configuration of a store. -/
def ofJson? (json : Json) : Option StoreConfig := do
  let default : StoreConfig := {}
  match ← fields? ["path", "poll_interval_ms", "busy_timeout_ms"] json with
  | [path, interval, timeout] =>
    return {
      path := ← field? default.path string? path
      pollIntervalMs := ← field? default.pollIntervalMs (nullable? uint64?) interval
      busyTimeoutMs := ← field? default.busyTimeoutMs uint64? timeout }
  | _ => none

/-- The tree of a configuration of a store. -/
def toJson (c : StoreConfig) : Json :=
  .obj [("busy_timeout_ms", Config.ofUInt64 c.busyTimeoutMs), ("path", .str c.path),
    ("poll_interval_ms", (c.pollIntervalMs.map Config.ofUInt64).getD .null)]

/-- Whole milliseconds of an interval, at least one and at most what 64 bits hold; the whole
seconds have to fit 64 bits too. -/
def milliseconds? (seconds nanoseconds : Nat) : Option UInt64 :=
  let whole := seconds * 1000 + nanoseconds / 1000000
  if uint64Most < seconds + nanoseconds / 1000000000 then none
  else if whole = 0 then some 1
  else if whole < uint64Most then some (UInt64.ofNat whole)
  else some (UInt64.ofNat uint64Most.toNat)

end StoreConfig

namespace LegacyConfig

open Config in
/-- Reads the configuration of the legacy database, whose path has no default. -/
def ofJson? (json : Json) : Option LegacyConfig := do
  match ← fields? ["path", "string_to_long_keys"] json with
  | [some path, keys] =>
    return ⟨← string? path, ← field? Dict.empty stringSet? keys⟩
  | _ => none

/-- The tree of a configuration of the legacy database. -/
def toJson (c : LegacyConfig) : Json :=
  .obj [("path", .str c.path), ("string_to_long_keys", .ofStrings c.stringToLongKeys.items)]

end LegacyConfig

namespace Config

/-- Reads a whole configuration. -/
def ofJson? (json : Json) : Option Config := do
  match ← fields? ["store", "legacy"] json with
  | [store, legacy] =>
    return ⟨← field? {} StoreConfig.ofJson? store,
      ← field? none (nullable? LegacyConfig.ofJson?) legacy⟩
  | _ => none

/-- The tree of a whole configuration. -/
def toJson (c : Config) : Json :=
  .obj [("legacy", (c.legacy.map LegacyConfig.toJson).getD .null), ("store", c.store.toJson)]

end Config

end PrefStore
