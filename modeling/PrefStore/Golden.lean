import PrefStore.Backup.Document
import PrefStore.Json.Read

/-!
# Golden backups

Backup texts as other installations write them: those that must import, with the entries that
a store then holds, and those that must be refused, with the reason.
-/

namespace PrefStore.Golden

/-- A backup text that must import, and the entries afterwards by ascending key. -/
structure Accepted where
  name : String
  text : String
  entries : List (String × Value)

/-- Why a backup text is refused. -/
inductive Rejection where
  | versionMismatch
  | invalidHolder
  | unknownType
  | invalidDocument
  deriving DecidableEq, Repr

/-- The word for a reason. -/
def Rejection.name : Rejection → String
  | versionMismatch => "VersionMismatch"
  | invalidHolder => "InvalidHolder"
  | unknownType => "UnknownType"
  | invalidDocument => "InvalidDocument"

/-- A backup text that must be refused. -/
structure Rejected where
  name : String
  text : String
  reason : Rejection

private def braced (s : String) : String := "\x7b" ++ s ++ "\x7d"

/-- A field of an object, its value given as text. -/
private def field (key text : String) : String := "\"" ++ key ++ "\": " ++ text

/-- An object on one line. -/
private def object (fields : List String) : String := braced (String.intercalate ", " fields)

/-- An object with a line for each field, indented by sixteen blanks. -/
private def page (fields : List String) : String :=
  braced ("\n" ++ String.intercalate ",\n" (fields.map ("                " ++ ·)) ++
    "\n            ")

/-- The field of a holder. -/
private def holder (key tag value : String) : String :=
  field key (object [field "type" tag, field "value" value])

/-- The field of the version. -/
private def version (text : String) : String := field "__version" text

/-- The float one half. -/
private def half : Single := Binary.ofDecimal .single false 5 (-1)

/-- The texts that must import. -/
def accepted : List Accepted :=
  [⟨"every kind",
      page [version "2", holder "service_mode" "4" "\"vpn\"", holder "ipv6" "0" "true",
        holder "speed" "1" "0.5", holder "mtu" "2" "9000",
        holder "traffic_up" "3" "1099511627776",
        holder "bypass_apps" "5" "[\"com.b\", \"com.a\", \"com.a\"]"],
      [("bypass_apps", .stringSet (StringSet.ofList ["com.a", "com.b"])),
        ("ipv6", .boolean true), ("mtu", .int 9000), ("service_mode", .string "vpn"),
        ("speed", .float half), ("traffic_up", .long 1099511627776)]⟩,
    ⟨"symbolic and fractional type tags",
      page [version "2", holder "log_level" "\"LONG\"" "3",
        holder "remote_dns" "4.0" "\"1.1.1.1\""],
      [("log_level", .long 3), ("remote_dns", .string "1.1.1.1")]⟩,
    ⟨"migration flag is ignored",
      page [version "2", holder migrationKey "0" "false", holder "proxy_apps" "0" "false"],
      [("proxy_apps", .boolean false)]⟩,
    ⟨"version as string", object [version "\"2\"", holder "ipv6" "0" "false"],
      [("ipv6", .boolean false)]⟩,
    ⟨"version as double", object [version "2.0", holder "mtu" "2" "1500"],
      [("mtu", .int 1500)]⟩,
    ⟨"empty backup", object [version "2"], []⟩]

/-- The texts that must be refused. -/
def rejected : List Rejected :=
  [⟨"older version", object [version "1", holder "a" "0" "true"], .versionMismatch⟩,
    ⟨"missing version", object [holder "a" "0" "true"], .versionMismatch⟩,
    ⟨"newer version as string", object [version "\"3\""], .versionMismatch⟩,
    ⟨"non-numeric version", object [version "\"two\"", holder "a" "0" "true"],
      .versionMismatch⟩,
    ⟨"holder without type",
      object [version "2", field "a" (object [field "value" "true"])], .invalidHolder⟩,
    ⟨"holder without value",
      object [version "2", field "a" (object [field "type" "0"])], .invalidHolder⟩,
    ⟨"value does not match type", object [version "2", holder "a" "5" "\"x\""],
      .invalidHolder⟩,
    ⟨"unknown type code", object [version "2", holder "a" "6" "1"], .unknownType⟩,
    ⟨"unknown type name", object [version "2", holder "a" "\"DOUBLE\"" "1.0"], .unknownType⟩,
    ⟨"not an object", "[2]", .invalidDocument⟩]

end PrefStore.Golden
