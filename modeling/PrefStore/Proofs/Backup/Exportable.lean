import PrefStore.Proofs.Fleet.WellFormed

/-!
# What stores come to export

Clients see all of a well-formed snapshot but the migration flag. So whatever is done to a store
that was empty at first, alone or as one of many handles on a database, every entry that clients
see is one that may be written again.
-/

namespace PrefStore

variable {β ρ : Type}

namespace Snapshot

/-- Every entry that clients see is one that they may write. -/
def Exportable (s : Snapshot) : Prop :=
  ∀ key v, s.get? key = some v → isReserved key = false → Writable (key, v)

/-- The entries that clients see may be written. -/
theorem Exportable.visible {s : Snapshot} (h : s.Exportable) :
    ∀ entry ∈ s.visible, Writable entry := by
  rintro ⟨key, v⟩ hentry
  obtain ⟨hmem, hkey⟩ := List.mem_filter.1 hentry
  exact h key v (Dict.mem_entries_iff.1 hmem) (by simpa using hkey)

/-- A well-formed snapshot is exportable. -/
theorem WellFormed.exportable {s : Snapshot} (h : s.WellFormed) : s.Exportable :=
  fun key v hv hkey => (wellFormed_iff.1 h key v hv).writable hkey

end Snapshot

/-- What a store holds and what it publishes is exportable. -/
structure Store.Exportable [Backend β] [Transactional β] (s : Store β) : Prop where
  contents : s.contents.Exportable
  published : s.published.Exportable

/-- Every reachable store is exportable. -/
theorem Observed.Reachable.exportable [Backend β] [Transactional β] {o : Observed β ρ}
    (h : o.Reachable) : o.store.Exportable :=
  ⟨h.wellFormed.contents.exportable, h.wellFormed.published.exportable⟩

end PrefStore
