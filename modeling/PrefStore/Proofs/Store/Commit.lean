import PrefStore.Proofs.Backend.Transactional
import PrefStore.Proofs.Edit.Lawful
import PrefStore.Store.Basic

/-!
# Commits and refreshes of a store

An edit that is committed takes the contents from what its body was given to what the body made
of it, and publishes that. An edit that fails for whatever reason leaves the contents and the
published snapshot as they were. A refresh publishes the contents or leaves the published
snapshot as it was.
-/

namespace PrefStore

variable {β ν ε : Type}

/-- Notes that a body has after any number of completed runs on the same draft. -/
def EditBody.Rerun (body : EditBody ν ε) (draft : Draft) : ν → ν → Prop :=
  Relation.ReflTransGen fun notes notes' => ∃ e, body draft notes = (.ok e, notes')

namespace Store

/-- The transform of a body completes where the body does. -/
theorem transform_eq_ok_iff {body : EditBody ν ε} {s next : Snapshot} {notes notes' : ν}
    {touched touched' : StringSet} :
    transform body s (notes, touched) = (.ok next, notes', touched') ↔
      body (.ofSnapshot s) notes = (.ok ⟨next, touched'⟩, notes') := by
  cases hbody : body (.ofSnapshot s) notes with
  | mk outcome found =>
    cases outcome with
    | error cause => simp [transform, hbody]
    | ok draft =>
      obtain ⟨entries, keys⟩ := draft
      simp only [transform, hbody, Prod.mk.injEq, Except.ok.injEq, Draft.mk.injEq]
      rw [and_assoc, and_comm (a := found = notes')]

/-- The transform of a body stops where the body does. -/
theorem transform_eq_error_iff {body : EditBody ν ε} {s : Snapshot} {notes notes' : ν}
    {touched touched' : StringSet} {cause : Halt ε} :
    transform body s (notes, touched) = (.error cause, notes', touched') ↔
      body (.ofSnapshot s) notes = (.error cause, notes') ∧ touched = touched' := by
  cases hbody : body (.ofSnapshot s) notes with
  | mk outcome found => cases outcome <;> simp [transform, hbody, and_assoc]

private theorem rerun_of_transform {body : EditBody ν ε} {s : Snapshot}
    {before after : ν × StringSet} (h : (transform body).Rerun s before after) :
    body.Rerun (.ofSnapshot s) before.1 after.1 := by
  refine Relation.ReflTransGen.lift Prod.fst ?_ _ _ h
  rintro _ _ ⟨next, hrun⟩
  exact ⟨_, transform_eq_ok_iff.1 hrun⟩

variable [Backend β] [Transactional β]

/-- The committed contents of a store. -/
def contents (s : Store β) : Snapshot := Transactional.contents s.backend

/-- The draft that an edit of a store begins with. -/
def draft (s : Store β) : Draft := .ofSnapshot s.contents

variable [IncludesStore ε]

/-- What may come of an edit. -/
inductive Outcome (s : Store β) (body : EditBody ν ε) (notes : ν) :
    Except (Halt ε) StringSet × ν × Store β → Prop where
  /-- The backend fails before the body runs. -/
  | refused {cause : StoreError} {b : β} (hrefusal : Transactional.refusal s.backend = some cause)
      (hkept : Transactional.contents b = s.contents) :
      Outcome s body notes
        (.error (.error (IncludesStore.ofStore cause)), notes, { s with backend := b })
  /-- The last run of the body stops. -/
  | halted {cause : Halt ε} {found notes' : ν} {b : β}
      (hrefusal : Transactional.refusal s.backend = none) (hrerun : body.Rerun s.draft notes found)
      (hrun : body s.draft found = (.error cause, notes'))
      (hkept : Transactional.contents b = s.contents) :
      Outcome s body notes (.error cause, notes', { s with backend := b })
  /-- The backend fails when it should write or commit the draft. -/
  | lost {cause : StoreError} {found notes' : ν} {e : Draft} {b : β}
      (hrefusal : Transactional.refusal s.backend = none)
      (hloss : Transactional.loss s.backend e.entries = some cause)
      (hrerun : body.Rerun s.draft notes found)
      (hrun : body s.draft found = (.ok e, notes'))
      (hkept : Transactional.contents b = s.contents) :
      Outcome s body notes
        (.error (.error (IncludesStore.ofStore cause)), notes', { s with backend := b })
  /-- The draft of the last run is committed and published. -/
  | committed {found notes' : ν} {e : Draft} {b : β}
      (hrefusal : Transactional.refusal s.backend = none)
      (hloss : Transactional.loss s.backend e.entries = none)
      (hrerun : body.Rerun s.draft notes found) (hrun : body s.draft found = (.ok e, notes'))
      (hagrees : (Transactional.contents b).Agrees e.entries)
      (hsame : e.entries = s.contents → Transactional.contents b = s.contents) :
      Outcome s body notes (.ok e.touched, notes', ⟨b, e.entries, s.listeners⟩)

/-- Every edit comes to one of these outcomes. -/
theorem commit_outcome (s : Store β) (body : EditBody ν ε) (notes : ν) :
    Outcome s body notes (s.commit body notes) := by
  have hending := Transactional.ending s.backend (transform body) (notes, Dict.empty)
  unfold commit
  generalize Backend.transact s.backend (transform body) (notes, Dict.empty) = result
    at hending ⊢
  cases hending with
  | refused hrefusal hkept => exact .refused hrefusal hkept
  | @halted cause found notes' b hrefusal hrerun hrun hkept =>
    obtain ⟨found, touched⟩ := found
    obtain ⟨notes', touched'⟩ := notes'
    exact .halted hrefusal (rerun_of_transform hrerun) (transform_eq_error_iff.1 hrun).1 hkept
  | @lost cause found notes' next b hrefusal hloss hrerun hrun hkept =>
    obtain ⟨found, touched⟩ := found
    obtain ⟨notes', touched'⟩ := notes'
    exact .lost (e := ⟨next, touched'⟩) hrefusal hloss (rerun_of_transform hrerun)
      (transform_eq_ok_iff.1 hrun) hkept
  | @committed found notes' next b hrefusal hloss hrerun hrun hagrees hsame =>
    obtain ⟨found, touched⟩ := found
    obtain ⟨notes', touched'⟩ := notes'
    exact .committed (e := ⟨next, touched'⟩) hrefusal hloss (rerun_of_transform hrerun)
      (transform_eq_ok_iff.1 hrun) hagrees hsame

/-- An edit in memory runs its body once, on the contents. -/
theorem commit_memory (s : Store Memory) (body : EditBody ν ε) (notes : ν) :
    s.commit body notes = match body s.draft notes with
      | (.ok e, notes') => (.ok e.touched, notes', ⟨⟨e.entries⟩, e.entries, s.listeners⟩)
      | (.error cause, notes') => (.error cause, notes', s) := by
  have htransact : Backend.transact s.backend (transform body) (notes, Dict.empty) =
      s.backend.transact (transform body) (notes, Dict.empty) := rfl
  cases hbody : body s.draft notes with
  | mk outcome notes' =>
    cases outcome with
    | ok e =>
      have hrun : transform body s.backend.contents (notes, Dict.empty) =
          (.ok e.entries, notes', e.touched) := transform_eq_ok_iff.2 hbody
      simp only [commit, htransact, Memory.transact, hrun]
    | error cause =>
      have hrun : transform body s.backend.contents (notes, Dict.empty) =
          (.error cause, notes', Dict.empty) := transform_eq_error_iff.2 ⟨hbody, rfl⟩
      simp only [commit, htransact, Memory.transact, hrun]
      rfl

/-- An edit that is committed publishes what the backend commits, and leaves the listeners. -/
theorem commit_eq_ok_iff {β : Type} [Backend β] {s s' : Store β} {body : EditBody ν ε}
    {notes notes' : ν} {touched : StringSet} :
    s.commit body notes = (.ok touched, notes', s') ↔
      Backend.transact s.backend (transform body) (notes, Dict.empty) =
        (.ok s'.published, (notes', touched), s'.backend) ∧ s'.listeners = s.listeners := by
  unfold commit
  generalize Backend.transact s.backend (transform body) (notes, Dict.empty) = result
  obtain ⟨outcome, ⟨found, keys⟩, b⟩ := result
  cases outcome with
  | error stop => simp
  | ok committed =>
    simp only [Prod.mk.injEq, Except.ok.injEq]
    constructor
    · rintro ⟨rfl, rfl, rfl⟩
      exact ⟨⟨rfl, ⟨rfl, rfl⟩, rfl⟩, rfl⟩
    · rintro ⟨⟨rfl, ⟨rfl, rfl⟩, rfl⟩, hlisteners⟩
      refine ⟨rfl, rfl, ?_⟩
      rw [← hlisteners]

/-- A failed edit leaves a store with what a failed transaction leaves of its backend. -/
theorem commit_error {β : Type} [Backend β] {s s' : Store β} {body : EditBody ν ε}
    {notes notes' : ν} {cause : Halt ε} (h : s.commit body notes = (.error cause, notes', s')) :
    ∃ stop found, Backend.transact s.backend (transform body) (notes, Dict.empty) =
        (.error stop, found, s'.backend) ∧
      s' = { s with backend := s'.backend } := by
  unfold commit at h
  split at h
  · cases h
  · next stop found touched b htransact =>
    cases h
    exact ⟨stop, _, htransact, rfl⟩

/-- A failed edit keeps what was published. -/
theorem published_of_commit_error {β : Type} [Backend β] {s s' : Store β} {body : EditBody ν ε}
    {notes notes' : ν} {cause : Halt ε} (h : s.commit body notes = (.error cause, notes', s')) :
    s'.published = s.published := by
  obtain ⟨_, _, -, hs⟩ := commit_error h
  rw [hs]

/-- A refresh that brings nothing new keeps what was published. -/
theorem published_of_refresh {β : Type} [Backend β] {s s' : Store β}
    {answer : Except StoreError Bool} (h : s.refresh = (answer, s')) (hanswer : answer ≠ .ok true) :
    s'.published = s.published := by
  unfold refresh at h
  split at h
  · cases h
    rfl
  · cases h
    rfl
  · split at h
    · cases h
      rfl
    · split at h
      · cases h
        rfl
      · cases h
        exact absurd rfl hanswer

/-- A failed edit keeps the contents. -/
theorem contents_of_commit_error {s s' : Store β} {body : EditBody ν ε} {notes notes' : ν}
    {cause : Halt ε} (h : s.commit body notes = (.error cause, notes', s')) :
    s'.contents = s.contents := by
  have houtcome := s.commit_outcome body notes
  rw [h] at houtcome
  cases houtcome with
  | refused _ hkept | halted _ _ _ hkept | lost _ _ _ _ hkept => exact hkept

/-- The body of an edit that is committed completed with a draft on the contents, which is what is
published, and what is committed agrees with it. -/
theorem exists_draft_of_commit {s s' : Store β} {edit : Edit ν ε} {notes notes' : ν}
    {touched : StringSet} (h : s.commit edit.body notes = (.ok touched, notes', s')) :
    ∃ found e, edit.body s.draft found = (.ok e, notes') ∧ touched = e.touched ∧
      s' = { s with backend := s'.backend, published := e.entries } ∧
      s'.contents.Agrees e.entries := by
  have houtcome := s.commit_outcome edit.body notes
  rw [h] at houtcome
  cases houtcome with
  | @committed found _ e b _ _ _ hrun hagrees _ =>
    exact ⟨found, e, hrun, rfl, rfl, hagrees⟩

/-- A lawful edit that is committed publishes contents that agree with those committed. -/
theorem agrees_of_commit_ok {s s' : Store β} {edit : Edit ν ε} {notes notes' : ν}
    {touched : StringSet} (h : s.commit edit.body notes = (.ok touched, notes', s')) :
    s'.contents.Agrees s'.published := by
  obtain ⟨found, e, -, -, hs, hagrees⟩ := exists_draft_of_commit h
  rw [hs]
  exact hagrees

/-- What may come of a refresh. -/
inductive Refreshed (s : Store β) : Except StoreError Bool × Store β → Prop where
  /-- The backend fails, or there is nothing new. -/
  | unchanged {answer : Except StoreError Bool} {b : β} (hanswer : answer ≠ .ok true)
      (hkept : Transactional.contents b = s.contents) :
      Refreshed s (answer, { s with backend := b })
  /-- The contents differ from what was published. -/
  | renewed {b : β} (hdiffer : s.published.same s.contents = false)
      (hkept : Transactional.contents b = s.contents) :
      Refreshed s (.ok true, ⟨b, s.contents, s.listeners⟩)

/-- Every refresh comes to one of these. -/
theorem refresh_refreshed (s : Store β) : Refreshed s s.refresh := by
  have hchanged := Transactional.contents_changed s.backend
  unfold refresh
  generalize Backend.changed s.backend = asked at hchanged ⊢
  obtain ⟨answer, b⟩ := asked
  dsimp only at hchanged
  match answer with
  | .error cause => exact .unchanged (by simp) hchanged
  | .ok false => exact .unchanged (by simp) hchanged
  | .ok true =>
    have hload := Transactional.contents_load b
    have hlatest := @Transactional.eq_contents_of_load _ _ _ b
    dsimp only
    generalize Backend.load b = loaded at hload hlatest ⊢
    obtain ⟨answer, b'⟩ := loaded
    have hkept : Transactional.contents b' = s.contents := hload.trans hchanged
    cases answer with
    | error cause => exact .unchanged (by simp) hkept
    | ok latest =>
      obtain rfl : latest = s.contents := (hlatest rfl).trans hchanged
      dsimp only
      split
      · exact .unchanged (by simp) hkept
      · next hdiffer => exact .renewed (by simpa using hdiffer) hkept

end Store

end PrefStore
