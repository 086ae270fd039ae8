import PrefStore.Dict.Lemmas
import PrefStore.Golden
import PrefStore.Merge
import PrefStore.Workspace
import PrefStore.Proofs.Except
import PrefStore.Proofs.Dict.Traverse
import PrefStore.Proofs.Dict.Last
import PrefStore.Proofs.Json.Strings
import PrefStore.Proofs.Number.Exact
import PrefStore.Proofs.Number.Value
import PrefStore.Proofs.Number.Narrowing
import PrefStore.Proofs.Merge.Lookup
import PrefStore.Proofs.Merge.KeyByKey
import PrefStore.Proofs.Merge.Edits
import PrefStore.Proofs.Merge.Normal
import PrefStore.Proofs.Merge.Renaming
import PrefStore.Proofs.Merge.Spelling
import PrefStore.Proofs.Snapshot.Agreement
import PrefStore.Proofs.Snapshot.WellFormed
import PrefStore.Proofs.Database.Rows
import PrefStore.Proofs.Database.Schema
import PrefStore.Proofs.Database.Connection
import PrefStore.Proofs.Database.Transaction
import PrefStore.Proofs.Disk.Places
import PrefStore.Proofs.Disk.Removal
import PrefStore.Proofs.Disk.Legacy
import PrefStore.Proofs.Edit.Lawful
import PrefStore.Proofs.Edit.Agreement
import PrefStore.Proofs.Edit.MapProgram
import PrefStore.Proofs.Backend.Transactional
import PrefStore.Proofs.Store.Registry
import PrefStore.Proofs.Store.Acts
import PrefStore.Proofs.Store.Commit
import PrefStore.Proofs.Store.AllOrNothing
import PrefStore.Proofs.Store.Notify
import PrefStore.Proofs.Store.Working
import PrefStore.Proofs.Store.Dispatch
import PrefStore.Proofs.Store.Refinement
import PrefStore.Proofs.Store.Scripts
import PrefStore.Proofs.Store.Following
import PrefStore.Proofs.Backup.Codec
import PrefStore.Proofs.Backup.Exportable
import PrefStore.Proofs.Backup.Grammar
import PrefStore.Proofs.Backup.Import
import PrefStore.Proofs.Backup.Pairs
import PrefStore.Proofs.Backup.RoundTrip
import PrefStore.Proofs.Backup.Verdict
import PrefStore.Proofs.Client.Reserved
import PrefStore.Proofs.Client.Blind
import PrefStore.Proofs.Client.Session
import PrefStore.Proofs.Fleet.Basic
import PrefStore.Proofs.Fleet.WellFormed
import PrefStore.Proofs.Fleet.Isolation
import PrefStore.Proofs.Legacy.Rows
import PrefStore.Proofs.Legacy.Entries
import PrefStore.Proofs.Legacy.Reading
import PrefStore.Proofs.Legacy.Faults
import PrefStore.Proofs.Legacy.TwoPaths
import PrefStore.Proofs.Legacy.Transactions
import PrefStore.Proofs.Legacy.World
import PrefStore.Proofs.Legacy.OneShot
import PrefStore.Proofs.Legacy.Cleanup
import PrefStore.Proofs.Legacy.WellFormed
import PrefStore.Proofs.Backup.Wire
import PrefStore.Proofs.Backend.Trial
import PrefStore.Proofs.Store.Lockstep
import PrefStore.Proofs.Store.Trial
import PrefStore.Proofs.Legacy.Trial
import PrefStore.Proofs.Store.Drain
import PrefStore.Proofs.Store.Durable
import PrefStore.Proofs.Database.Reading
import PrefStore.Proofs.Database.Recovery
import PrefStore.Proofs.Database.Overflow
import PrefStore.Proofs.Disk.Opening
import PrefStore.Proofs.Legacy.ReadBack
import PrefStore.Proofs.Value.Encodings
