/-!
# Keys

Preferences live in one flat space of keys. Two keys of it belong to the store itself: the
migration flag, and the version of a backup document. Clients neither see nor write them.
-/

namespace PrefStore

/-- Holds `true` once the legacy database has been migrated. -/
def migrationKey : String := "__datastore_migrated_from_room__"

/-- The version field of a backup document. -/
def versionKey : String := "__version"

/-- The keys that belong to the store. -/
def isReserved (key : String) : Bool := key = migrationKey || key = versionKey

end PrefStore
