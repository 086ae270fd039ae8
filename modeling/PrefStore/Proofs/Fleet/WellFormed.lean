import PrefStore.Proofs.Fleet.Basic
import PrefStore.Proofs.Snapshot.WellFormed

/-!
# Snapshots stay well formed

What a store holds and what it publishes is well formed at first, when both are empty, and every
act keeps it so. The same is true of many handles on a database. So it holds of every store that
operations can make of an empty one.
-/

namespace PrefStore

variable {β ρ : Type}

/-- What a store holds and what it publishes is well formed. -/
structure Store.WellFormed [Backend β] [Transactional β] (s : Store β) : Prop where
  contents : s.contents.WellFormed
  published : s.published.WellFormed

/-- A store stays well formed while its contents are kept. -/
theorem Store.WellFormed.keep [Backend β] [Transactional β] {s : Store β} (h : s.WellFormed)
    {b : β} (hkept : Transactional.contents b = s.contents) :
    WellFormed { s with backend := b } where
  contents := by
    rw [Store.contents, hkept]
    exact h.contents
  published := h.published

/-- One act keeps a store well formed. -/
theorem Observed.Act.wellFormed [Backend β] [Transactional β] {o o' : Observed β ρ}
    (h : o.Act o') (ho : o.store.WellFormed) : o'.store.WellFormed := by
  cases h with
  | @commit ν ε _ edit notes =>
    have houtcome := o.store.commit_outcome edit.body notes
    generalize o.store.commit edit.body notes = result at houtcome
    cases houtcome with
    | refused _ hkept | halted _ _ _ hkept | lost _ _ _ _ hkept => exact ho.keep hkept
    | committed _ _ _ hrun hagrees _ =>
      have hentries := (edit.leads hrun).wellFormed ho.contents
      exact ⟨hentries.of_agrees hagrees, hentries⟩
  | refresh =>
    have hrefreshed := o.store.refresh_refreshed
    unfold Observed.refresh
    generalize o.store.refresh = result at hrefreshed
    cases hrefreshed with
    | unchanged _ hkept => exact ho.keep hkept
    | renewed _ hkept =>
      refine ⟨?_, ho.contents⟩
      rw [Store.contents, hkept]
      exact ho.contents
  | listen hbackend hpublished =>
    refine ⟨?_, hpublished ▸ ho.published⟩
    rw [Store.contents, hbackend]
    exact ho.contents

namespace Fleet

variable [Backend β] [Transactional β] [Connected β]

/-- What a fleet holds and what its handles publish is well formed. -/
structure WellFormed (f : Fleet β ρ) : Prop where
  contents : f.contents.WellFormed
  published : ∀ o ∈ f.handles, o.store.published.WellFormed

/-- A handle of a well-formed fleet is well formed. -/
theorem WellFormed.handle {f : Fleet β ρ} (h : f.WellFormed) {i : Nat} {o : Observed β ρ}
    (ho : f.handle? i = some o) : o.store.WellFormed := by
  have hcontents := contents_of_handle? ho
  obtain ⟨stored, hstored, rfl⟩ := Option.map_eq_some_iff.1 ho
  exact ⟨hcontents ▸ h.contents, h.published stored (List.mem_of_getElem? hstored)⟩

/-- One step keeps a fleet well formed. -/
theorem Step.wellFormed {f g : Fleet β ρ} (hstep : f.Step g) (h : f.WellFormed) :
    g.WellFormed := by
  cases hstep with
  | @opens b hopen conduct =>
    refine ⟨by rw [contents_add hopen]; exact h.contents, ?_⟩
    have hcontents : Transactional.contents b = f.contents := by
      rw [Connected.contents_eq, Connection.contents_open? hopen, contents]
    have hloaded := @Transactional.eq_contents_of_load _ _ _ b
    unfold add Store.ofBackend?
    generalize Backend.load b = loaded at hloaded
    obtain ⟨answer, b'⟩ := loaded
    cases answer with
    | error cause => exact h.published
    | ok published =>
      intro o ho
      rcases List.mem_append.1 ho with ho | ho
      · exact h.published o ho
      · obtain rfl := List.mem_singleton.1 ho
        have hpublished : published = f.contents := (hloaded rfl).trans hcontents
        exact hpublished ▸ h.contents
  | @acts i o o' hhandle hact =>
    have ho' := hact.wellFormed (h.handle hhandle)
    refine ⟨by rw [contents_keep]; exact ho'.contents, fun p hp => ?_⟩
    rcases List.mem_or_eq_of_mem_set hp with hp | rfl
    · exact h.published p hp
    · exact ho'.published

/-- Every fleet that is reached from an empty database is well formed. -/
theorem Reaches.wellFormed {d : Database} (hd : d.contents = Dict.empty) {f : Fleet β ρ}
    (h : (start d).Reaches f) : f.WellFormed := by
  induction h with
  | refl =>
    refine ⟨?_, fun o ho => (List.not_mem_nil ho).elim⟩
    rw [contents, start, hd]
    exact .empty
  | tail _ hstep ih => exact hstep.wellFormed ih

end Fleet

namespace Observed

/-- The stores that operations make of an empty one: of a store on its own, or of any of the
handles on a database. -/
inductive Reachable [Backend β] [Transactional β] : Observed β ρ → Prop where
  | alone {o o' : Observed β ρ} (hcontents : o.store.contents = Dict.empty)
      (hpublished : o.store.published = Dict.empty) (hacts : o.Acts o') : Reachable o'
  | handle [Connected β] {d : Database} (hcontents : d.contents = Dict.empty) {f : Fleet β ρ}
      (hreaches : (Fleet.start d).Reaches f) {i : Nat} {o : Observed β ρ}
      (hhandle : f.handle? i = some o) : Reachable o

variable [Backend β] [Transactional β] {o o' : Observed β ρ}

/-- Every reachable store is well formed. -/
theorem Reachable.wellFormed (h : o.Reachable) : o.store.WellFormed := by
  cases h with
  | alone hcontents hpublished hacts =>
    refine hacts.preserves (P := fun o => o.store.WellFormed) (fun hact ho => hact.wellFormed ho) ?_
    exact ⟨hcontents ▸ .empty, hpublished ▸ .empty⟩
  | handle hcontents hreaches hhandle => exact (hreaches.wellFormed hcontents).handle hhandle

/-- What acts make of a reachable store is reachable. -/
theorem Reachable.acts (h : o.Reachable) (hacts : o.Acts o') : o'.Reachable := by
  cases h with
  | alone hcontents hpublished hbefore => exact .alone hcontents hpublished (hbefore.trans hacts)
  | handle hcontents hreaches hhandle =>
    have hkept := Fleet.handle?_keep_self hhandle o'
    exact .handle hcontents (hreaches.trans (Fleet.reaches_of_acts hhandle hacts)) hkept

end Observed

end PrefStore
