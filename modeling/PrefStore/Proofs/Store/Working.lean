import PrefStore.Proofs.Store.AllOrNothing

/-!
# Stores that work

A store works if its backend is due to fail neither before the next edit nor when it commits. An
edit of such a store is committed if its body completes. Quiet listeners leave what it wrote
alone, and each of them is called once for each key that was written.
-/

namespace PrefStore

variable {β ρ ν ε : Type} [Backend β] [Transactional β]

/-- A store whose backend is due to fail neither before the next edit nor when it commits: it would
commit what it holds, and so everything that follows it carefully. -/
structure Store.Works (s : Store β) : Prop where
  begins : Transactional.refusal s.backend = none
  commits : Transactional.loss s.backend s.contents = none

/-- An edit of a store that works is committed if its body completes with the same draft whatever
notes it finds. -/
theorem Store.commit_of_completes [IncludesStore ε] {s : Store β} (hworks : s.Works)
    (edit : Edit ν ε) (notes : ν) {notes' : ν} {e : Draft}
    (hrun : ∀ found, edit.body s.draft found = (.ok e, notes')) :
    ∃ b, s.commit edit.body notes = (.ok e.touched, notes', ⟨b, e.entries, s.listeners⟩) ∧
      (Transactional.contents b).Agrees e.entries := by
  have houtcome := s.commit_outcome edit.body notes
  generalize s.commit edit.body notes = result at houtcome ⊢
  cases houtcome with
  | refused hrefusal => simp [hworks.begins] at hrefusal
  | halted _ _ hstop =>
    rw [hrun] at hstop
    cases hstop
  | lost _ hloss _ hended =>
    rw [Transactional.loss_of_careful (edit.leads hended).careful] at hloss
    cases hworks.commits.symm.trans hloss
  | committed _ _ _ hended hagrees =>
    rw [hrun] at hended
    cases hended
    exact ⟨_, rfl, hagrees⟩

namespace Observed

/-- One store comes from another by an edit that ended with a certain draft. -/
structure Wrote (o o' : Observed β ρ) (e : Draft) : Prop where
  published : o'.store.published = e.entries
  contents : o'.store.contents.Agrees e.entries
  calls : o'.calls = o.calls ++ callsFor e.touched o.store.listeners.active e.entries

/-- The listeners were called for the keys that meet a condition and for no others: by ascending
key, and for each key every one of them once, with what is published in the end before it. -/
def Notified (o o' : Observed β ρ) (condition : String → Prop) : Prop :=
  ∃ keys : List String, keys.Pairwise (· < ·) ∧ (∀ key, key ∈ keys ↔ condition key) ∧
    o'.calls = o.calls ++ keys.flatMap fun key =>
      o.store.listeners.active.map fun listener => ⟨0, listener, key, o'.store.published⟩

/-- Stores that cannot be told apart: one snapshot is published, the contents agree, and the same
calls were made. -/
structure Alike (o o' : Observed β ρ) : Prop where
  published : o.store.published = o'.store.published
  contents : o.store.contents.Agrees o'.store.contents
  calls : o.calls = o'.calls

omit [Backend β] [Transactional β] in
/-- Who was called does not depend on how the condition is put. -/
theorem Notified.congr {o o' : Observed β ρ} {condition condition' : String → Prop}
    (h : o.Notified o' condition) (hiff : ∀ key, condition key ↔ condition' key) :
    o.Notified o' condition' := by
  obtain ⟨keys, hsorted, hkeys, hcalls⟩ := h
  exact ⟨keys, hsorted, fun key => (hkeys key).trans (hiff key), hcalls⟩

/-- The listeners are called for the keys that a draft counts as written. -/
theorem Wrote.notified {o o' : Observed β ρ} {e : Draft} (h : o.Wrote o' e) :
    o.Notified o' (· ∈ e.touched.items) := by
  refine ⟨e.touched.items, StringSet.ascending_items e.touched, fun _ => Iff.rfl, ?_⟩
  rw [h.published, h.calls]
  rfl

/-- What a store published is what it committed, up to agreement. -/
theorem Wrote.agrees {o o' : Observed β ρ} {e : Draft} (h : o.Wrote o' e) :
    o'.store.contents.Agrees o'.store.published := by
  rw [h.published]
  exact h.contents

/-- Edits of one store that ended with one draft leave stores that cannot be told apart. -/
theorem Wrote.alike {o o₁ o₂ : Observed β ρ} {e : Draft} (h₁ : o.Wrote o₁ e)
    (h₂ : o.Wrote o₂ e) : o₁.Alike o₂ where
  published := h₁.published.trans h₂.published.symm
  contents := h₁.contents.trans h₂.contents.symm
  calls := h₁.calls.trans h₂.calls.symm

/-- An edit that is committed, of a store whose listeners are quiet, is written: its body completed
with a draft, and that is what is published and who is called. -/
theorem exists_wrote_of_edit [Conduct ρ] [IncludesStore ε] {o o' : Observed β ρ}
    (hquiet : Conduct.Quiet o.conduct) (edit : Edit ν ε) {notes notes' : ν}
    (h : o.edit edit.body notes = (.ok (), notes', o')) :
    ∃ found e, edit.body o.store.draft found = (.ok e, notes') ∧ o.Wrote o' e := by
  obtain ⟨_, s, hcommit, rfl⟩ := edit_eq_ok_iff.1 h
  obtain ⟨found, e, hrun, rfl, hs, hagrees⟩ := Store.exists_draft_of_commit hcommit
  have hhears := notify_hears (Conduct.depth o.conduct) e.touched
    (o := { o with store := s }) hquiet
  have hpublished : s.published = e.entries := by rw [hs]
  have hlisteners : s.listeners = o.store.listeners := by rw [hs]
  refine ⟨found, e, hrun, hhears.published.trans hpublished, ?_, ?_⟩
  · rw [Store.contents, hhears.backend]
    exact hagrees
  · rw [hhears.calls, hlisteners, hpublished]

/-- An edit of a store that works and whose listeners are quiet is written if its body completes
with the same draft whatever notes it finds. -/
theorem edit_of_completes [Conduct ρ] [IncludesStore ε] {o : Observed β ρ}
    (hworks : o.store.Works) (hquiet : Conduct.Quiet o.conduct) (edit : Edit ν ε) (notes : ν)
    {notes' : ν} {e : Draft}
    (hrun : ∀ found, edit.body o.store.draft found = (.ok e, notes')) :
    ∃ o', o.edit edit.body notes = (.ok (), notes', o') ∧ o.Wrote o' e := by
  obtain ⟨b, hcommit, -⟩ := Store.commit_of_completes hworks edit notes hrun
  have hedit := edit_eq_ok_iff.2 ⟨_, _, hcommit, rfl⟩
  obtain ⟨found, e', hrun', hwrote⟩ := exists_wrote_of_edit hquiet edit hedit
  rw [hrun found] at hrun'
  cases hrun'
  exact ⟨_, hedit, hwrote⟩

/-- An edit of a store that does not work fails and leaves the store alone, even if its body
completes. -/
theorem edit_of_not_works [Conduct ρ] [IncludesStore ε] {o : Observed β ρ}
    (hfails : ¬ o.store.Works) (edit : Edit ν ε) (notes : ν)
    (hrun : ∀ found, ∃ e notes', edit.body o.store.draft found = (.ok e, notes')) :
    ∃ cause notes' o', o.edit edit.body notes = (.error cause, notes', o') ∧
      Untouched o o' := by
  have hblame : ∃ cause notes' o', o.edit edit.body notes = (.error cause, notes', o') := by
    cases hrefusal : Transactional.refusal o.store.backend with
    | some cause =>
      obtain ⟨o', h⟩ := edit_of_refusal o edit.body notes hrefusal
      exact ⟨_, _, o', h⟩
    | none =>
      cases hloss : Transactional.loss o.store.backend o.store.contents with
      | none => exact absurd ⟨hrefusal, hloss⟩ hfails
      | some cause =>
        obtain ⟨notes', o', h⟩ := edit_of_loss o edit.body notes hrefusal fun found _ => by
          obtain ⟨e, notes', hcompletes⟩ := hrun found
          refine ⟨e, notes', hcompletes, ?_⟩
          rw [Transactional.loss_of_careful (edit.leads hcompletes).careful]
          exact hloss
        exact ⟨_, notes', o', h⟩
  obtain ⟨cause, notes', o', h⟩ := hblame
  exact ⟨cause, notes', o', h, failures_untouched.of_edit_error h⟩

/-- An edit without notes of a store that works comes to what its step comes to. -/
theorem editStep_outcome [Conduct ρ] [IncludesStore ε] {o : Observed β ρ}
    (hworks : o.store.Works) {step : Draft → Except ε Draft}
    (hleads : ∀ {d e}, step d = .ok e → d.Leads e) :
    (o.editStep step).1 = (step o.store.draft).mapError .error >>= fun _ => .ok () := by
  let edit := Edit.ofStep step hleads
  cases hstep : step o.store.draft with
  | ok e =>
    have hrun (found : Unit) : edit.body o.store.draft found = (.ok e, ()) := by
      simp only [edit, Edit.ofStep, EditBody.ofStep, hstep]
      rfl
    obtain ⟨b, hcommit, -⟩ := Store.commit_of_completes hworks edit () hrun
    exact congrArg Prod.fst (editStep_eq_iff.2 (edit_eq_ok_iff.2 ⟨_, _, hcommit, rfl⟩))
  | error cause =>
    have hrun : edit.body o.store.draft () = (.error (.error cause), ()) := by
      simp only [edit, Edit.ofStep, EditBody.ofStep, hstep]
      rfl
    obtain ⟨o', ho'⟩ := edit_of_halt o edit.body () hworks.begins hrun
    exact congrArg Prod.fst (editStep_eq_iff.2 ho')

end Observed

end PrefStore
