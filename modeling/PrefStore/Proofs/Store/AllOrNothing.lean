import PrefStore.Backup.Transfer
import PrefStore.Proofs.Store.Commit
import PrefStore.Proofs.Store.Notify
import PrefStore.Store.Subscription

/-!
# Failures leave no trace

An operation that fails leaves the contents, the published snapshot and the listeners as they
were and calls nobody. A snapshot in memory and a connection to a database are left exactly as
they were; a faulty backend has at most counted the attempt. An edit that fails does so for
the reason of its body, if the body stopped, and of the backend otherwise.
-/

namespace PrefStore

variable {β ρ ν ε α : Type}

/-- Who is to blame for the failure of an edit: the backend before the body ran, the last run of
the body, or the backend when it should have written or committed what the body made. -/
inductive Store.Blame [Backend β] [Transactional β] [IncludesStore ε] (s : Store β)
    (body : EditBody ν ε) (notes : ν) : Halt ε → ν → Prop where
  | refusal {cause : StoreError} (h : Transactional.refusal s.backend = some cause) :
      Blame s body notes (.error (IncludesStore.ofStore cause)) notes
  | body {cause : Halt ε} {found notes' : ν} (h : Transactional.refusal s.backend = none)
      (hrerun : body.Rerun s.draft notes found)
      (hrun : body s.draft found = (.error cause, notes')) : Blame s body notes cause notes'
  | loss {cause : StoreError} {found notes' : ν} {e : Draft}
      (h : Transactional.refusal s.backend = none)
      (hloss : Transactional.loss s.backend e.entries = some cause)
      (hrerun : body.Rerun s.draft notes found) (hrun : body s.draft found = (.ok e, notes')) :
      Blame s body notes (.error (IncludesStore.ofStore cause)) notes'

namespace Observed

/-- A store that was left alone, as far as anybody can see. -/
structure Untouched [Backend β] [Transactional β] (o o' : Observed β ρ) : Prop where
  contents : o'.store.contents = o.store.contents
  isMigrated : o'.store.contents.isMigrated = o.store.contents.isMigrated
  published : o'.store.published = o.store.published
  listeners : o'.store.listeners = o.store.listeners
  conduct : o'.conduct = o.conduct
  calls : o'.calls = o.calls
  polls (subscription : Subscription) (alive : Bool) :
    subscription.poll o'.store.published alive = subscription.poll o.store.published alive

/-- A store whose backend alone changed, and not its contents, was left alone. -/
theorem Untouched.of_backend [Backend β] [Transactional β] {o : Observed β ρ} {s : Store β}
    (hs : s = { o.store with backend := s.backend }) (hcontents : s.contents = o.store.contents) :
    Untouched o { o with store := s } where
  contents := hcontents
  isMigrated := congrArg Snapshot.isMigrated hcontents
  published := by rw [hs]
  listeners := by rw [hs]
  conduct := rfl
  calls := rfl
  polls _ _ := by rw [hs]

theorem Untouched.trans [Backend β] [Transactional β] {o o' o'' : Observed β ρ}
    (h : Untouched o o') (h' : Untouched o' o'') : Untouched o o'' where
  contents := h'.contents.trans h.contents
  isMigrated := h'.isMigrated.trans h.isMigrated
  published := h'.published.trans h.published
  listeners := h'.listeners.trans h.listeners
  conduct := h'.conduct.trans h.conduct
  calls := h'.calls.trans h.calls
  polls subscription alive := (h'.polls subscription alive).trans (h.polls subscription alive)

/-- Whenever an operation fails, what it leaves is related to what it found. -/
def Fails (R : Observed β ρ → Observed β ρ → Prop)
    (operation : Observed β ρ → Except ε α × Observed β ρ) : Prop :=
  ∀ {o o' : Observed β ρ} {cause : ε}, operation o = (.error cause, o') → R o o'

/-- A relation between what a failed operation finds and leaves, for every operation of a
client that can fail. -/
structure Failures [Backend β] [Conduct ρ] (R : Observed β ρ → Observed β ρ → Prop) : Prop where
  edit {ν ε : Type} [IncludesStore ε] (body : EditBody ν ε) (notes : ν) :
    Fails R fun o => ((o.edit body notes).1, (o.edit body notes).2.2)
  set (key : String) (value : Value) : Fails R fun o => o.set key value
  remove (key : String) : Fails R fun o => o.remove key
  put (key : String) (value : Option Value) : Fails R fun o => o.put key value
  reset : Fails R reset
  runScript (script : Script) :
    Fails R fun o => ((o.runScript script).1, (o.runScript script).2.2)
  importDocument (document : Document) : Fails R fun o => o.importDocument document
  importJson (json : Json) : Fails R fun o => o.importJson json
  importPairs (pairs : List LegacyRecord) : Fails R fun o => o.importPairs pairs
  refresh : Fails R refresh

/-- An edit that fails is an operation that fails, whatever it notes. -/
theorem Failures.of_edit_error [Backend β] [Conduct ρ] [IncludesStore ε]
    {R : Observed β ρ → Observed β ρ → Prop} (h : Failures R) {o o' : Observed β ρ}
    {body : EditBody ν ε} {notes notes' : ν} {cause : Halt ε}
    (hedit : o.edit body notes = (.error cause, notes', o')) : R o o' := by
  have hfails : ((o.edit body notes).1, (o.edit body notes).2.2) = (.error cause, o') := by
    rw [hedit]
  exact h.edit body notes hfails

/-- What holds of every edit that fails holds of every operation that fails, as they are edits
or give up before they edit. -/
theorem Failures.of_edit [Backend β] [Conduct ρ] {R : Observed β ρ → Observed β ρ → Prop}
    (hrefl : ∀ o, R o o)
    (hedit : ∀ {ν ε : Type} [IncludesStore ε] (body : EditBody ν ε) (notes : ν),
      Fails R fun o => ((o.edit body notes).1, (o.edit body notes).2.2))
    (hrefresh : Fails R Observed.refresh) : Failures R := by
  have hstep {ε : Type} [IncludesStore ε] (step : Draft → Except ε Draft) :
      Fails R fun o => o.editStep step := hedit (.ofStep step) ()
  have himport (document : Document) : Fails R fun o => o.importDocument document := by
    intro o o' cause h
    dsimp only [Observed.importDocument] at h
    split at h
    · cases h
      exact hrefl o
    · exact hstep _ h
  constructor
  case edit => exact hedit
  case set => exact fun key value => hstep (·.put key value)
  case remove => exact fun key => hstep (·.remove key)
  case put =>
    intro key value
    cases value with
    | some value => exact hstep (·.put key value)
    | none => exact hstep (·.remove key)
  case reset => exact hstep fun draft => .ok draft.clear
  case runScript => exact fun script => hedit script.body []
  case importDocument => exact himport
  case importJson =>
    intro json o o' cause h
    dsimp only [Observed.importJson] at h
    split at h
    · cases h
      exact hrefl o
    · next document _ => exact himport document h
  case importPairs =>
    intro pairs o o' cause h
    dsimp only [Observed.importPairs] at h
    split at h
    · cases h
      exact hrefl o
    · exact hedit (pairsBody pairs) 0 h
  case refresh => exact hrefresh

private theorem commit_of_edit_error [Backend β] [Conduct ρ] [IncludesStore ε] {o o' : Observed β ρ}
    {body : EditBody ν ε} {notes : ν} {cause : Halt ε}
    (h : ((o.edit body notes).1, (o.edit body notes).2.2) = (.error cause, o')) :
    ∃ notes' s, o.store.commit body notes = (.error cause, notes', s) ∧
      o' = { o with store := s } := by
  obtain ⟨hcause, ho'⟩ := Prod.mk.inj h
  exact ⟨_, edit_eq_error_iff.1 (Prod.ext hcause (Prod.ext rfl ho'))⟩

/-- On every backend a failed operation leaves a store alone. -/
theorem failures_untouched [Backend β] [Transactional β] [Conduct ρ] :
    Failures (Untouched (β := β) (ρ := ρ)) := by
  refine Failures.of_edit (fun o => .of_backend rfl rfl) ?_ ?_
  · intro ν ε _ body notes o o' cause h
    obtain ⟨notes', s, hcommit, rfl⟩ := commit_of_edit_error h
    obtain ⟨-, -, -, hs⟩ := Store.commit_error hcommit
    exact .of_backend hs (Store.contents_of_commit_error hcommit)
  · intro o o' cause h
    have hrefreshed := o.store.refresh_refreshed
    unfold refresh at h
    generalize o.store.refresh = result at hrefreshed h
    cases hrefreshed with
    | unchanged _ hkept =>
      cases h
      exact .of_backend rfl hkept
    | renewed => cases h

/-- A backend that a failed transaction leaves as it was makes a failed edit leave the whole
store as it was. -/
theorem failures_eq [Backend β] [Conduct ρ]
    (htransact : ∀ {ν ε : Type} {b b' : β} {t : Transform ν ε} {notes notes' : ν}
      {stop : Stop ε}, Backend.transact b t notes = (.error stop, notes', b') → b' = b)
    (hrefresh : Fails (Eq (α := Observed β ρ)) Observed.refresh) :
    Failures (Eq (α := Observed β ρ)) := by
  refine Failures.of_edit (fun _ => rfl) ?_ hrefresh
  intro ν ε _ body notes o o' cause h
  obtain ⟨notes', s, hcommit, rfl⟩ := commit_of_edit_error h
  obtain ⟨_, _, hstop, hs⟩ := Store.commit_error hcommit
  rw [htransact hstop] at hs
  rw [hs]

/-- On a snapshot in memory a failed operation leaves the whole store as it was. -/
theorem failures_memory [Conduct ρ] : Failures (Eq (α := Observed Memory ρ)) := by
  refine failures_eq Memory.transact_error ?_
  intro o o' cause h
  cases h

/-- On a connection to a database a failed operation leaves the whole store as it was. -/
theorem failures_connection [Conduct ρ] : Failures (Eq (α := Observed Connection ρ)) := by
  refine failures_eq Connection.transact_error ?_
  intro o o' cause h
  have hrefresh : ∃ answer, (Observed.refresh o).1 = .ok answer := by
    show ∃ answer, o.store.refresh.1 = .ok answer
    unfold Store.refresh
    split
    · next hchanged => cases hchanged
    · exact ⟨_, rfl⟩
    · split
      · next hload => cases hload
      · split <;> exact ⟨_, rfl⟩
  obtain ⟨answer, hanswer⟩ := hrefresh
  rw [h] at hanswer
  cases hanswer

section Edit

variable [Backend β] [Transactional β] [Conduct ρ] [IncludesStore ε] (o : Observed β ρ)
  (body : EditBody ν ε) (notes : ν)

/-- A failed edit reports the failure of whoever is to blame. -/
theorem blame_of_edit_error {cause : Halt ε} {notes' : ν} {o' : Observed β ρ}
    (h : o.edit body notes = (.error cause, notes', o')) :
    o.store.Blame body notes cause notes' := by
  obtain ⟨s, hcommit, -⟩ := edit_eq_error_iff.1 h
  have houtcome := o.store.commit_outcome body notes
  rw [hcommit] at houtcome
  cases houtcome with
  | refused hrefusal _ => exact .refusal hrefusal
  | halted hrefusal hrerun hrun _ => exact .body hrefusal hrerun hrun
  | lost hrefusal hloss hrerun hrun _ => exact .loss hrefusal hloss hrerun hrun

/-- An edit fails where the backend refuses it. -/
theorem edit_of_refusal {cause : StoreError}
    (h : Transactional.refusal o.store.backend = some cause) :
    ∃ o', o.edit body notes = (.error (.error (IncludesStore.ofStore cause)), notes, o') := by
  have houtcome := o.store.commit_outcome body notes
  unfold edit editBy
  generalize o.store.commit body notes = result at houtcome ⊢
  cases houtcome with
  | refused hrefusal _ =>
    rw [h, Option.some.injEq] at hrefusal
    exact ⟨_, by rw [hrefusal]⟩
  | halted hrefusal | lost hrefusal | committed hrefusal => simp [h] at hrefusal

/-- An edit fails as its body does when it stops at once. -/
theorem edit_of_halt (hrefusal : Transactional.refusal o.store.backend = none) {cause : Halt ε}
    {notes' : ν} (h : body o.store.draft notes = (.error cause, notes')) :
    ∃ o', o.edit body notes = (.error cause, notes', o') := by
  -- A body that stops at once is not run again.
  have hfound {found : ν} (hrerun : body.Rerun o.store.draft notes found) : found = notes := by
    rcases hrerun.cases_head with heq | ⟨_, ⟨e, hrun⟩, -⟩
    · exact heq.symm
    · rw [h] at hrun
      cases hrun
  have houtcome := o.store.commit_outcome body notes
  unfold edit editBy
  generalize o.store.commit body notes = result at houtcome ⊢
  cases houtcome with
  | refused hrefused => simp [hrefusal] at hrefused
  | halted _ hrerun hrun =>
    rw [hfound hrerun, h] at hrun
    cases hrun
    exact ⟨_, rfl⟩
  | lost _ _ hrerun hrun | committed _ _ hrerun hrun =>
    rw [hfound hrerun, h] at hrun
    cases hrun

/-- An edit whose body completes fails where the backend loses what it made. -/
theorem edit_of_loss (hrefusal : Transactional.refusal o.store.backend = none) {cause : StoreError}
    (h : ∀ found, body.Rerun o.store.draft notes found →
      ∃ e notes', body o.store.draft found = (.ok e, notes') ∧
        Transactional.loss o.store.backend e.entries = some cause) :
    ∃ notes' o', o.edit body notes =
      (.error (.error (IncludesStore.ofStore cause)), notes', o') := by
  have houtcome := o.store.commit_outcome body notes
  unfold edit editBy
  generalize o.store.commit body notes = result at houtcome ⊢
  cases houtcome with
  | refused hrefused => simp [hrefusal] at hrefused
  | halted _ hrerun hrun =>
    obtain ⟨e, notes', hok, -⟩ := h _ hrerun
    rw [hok] at hrun
    cases hrun
  | lost _ hlost hrerun hrun =>
    obtain ⟨e, notes', hok, hloss⟩ := h _ hrerun
    rw [hok] at hrun
    cases hrun
    rw [hloss, Option.some.injEq] at hlost
    exact ⟨_, _, by rw [hlost]⟩
  | committed _ hkept hrerun hrun =>
    obtain ⟨e, notes', hok, hloss⟩ := h _ hrerun
    rw [hok] at hrun
    cases hrun
    simp [hloss] at hkept

end Edit

/-- Edits are all or nothing. On every backend an operation that fails leaves the contents, the
flag, the published snapshot, the listeners and every subscription as they were and calls
nobody. An edit fails with the failure of its body if the body stops and with the failure of
the backend if that refuses the transaction or loses what the body made, and for no other reason.
In memory and on a connection to a database, undecodable rows included, the whole store is left as
it was, so that whatever is done afterwards goes as if the operation had not been tried. -/
theorem all_or_nothing :
    (∀ {β ρ : Type} [Backend β] [Transactional β] [Conduct ρ],
      Failures (Untouched (β := β) (ρ := ρ)) ∧
      ∀ {ν ε : Type} [IncludesStore ε] (o : Observed β ρ) (body : EditBody ν ε) (notes : ν),
        (∀ cause, Transactional.refusal o.store.backend = some cause →
          ∃ o', o.edit body notes =
            (.error (.error (IncludesStore.ofStore cause)), notes, o')) ∧
        (Transactional.refusal o.store.backend = none →
          (∀ cause notes', body o.store.draft notes = (.error cause, notes') →
            ∃ o', o.edit body notes = (.error cause, notes', o')) ∧
          ∀ cause, (∀ found, body.Rerun o.store.draft notes found →
              ∃ e notes', body o.store.draft found = (.ok e, notes') ∧
                Transactional.loss o.store.backend e.entries = some cause) →
            ∃ notes' o', o.edit body notes =
              (.error (.error (IncludesStore.ofStore cause)), notes', o')) ∧
        ∀ cause notes' o', o.edit body notes = (.error cause, notes', o') →
          o.store.Blame body notes cause notes') ∧
    (∀ {ρ : Type} [Conduct ρ], Failures (Eq (α := Observed Memory ρ))) ∧
    ∀ {ρ : Type} [Conduct ρ], Failures (Eq (α := Observed Connection ρ)) := by
  refine ⟨fun {β ρ} _ _ _ => ⟨failures_untouched, ?_⟩, failures_memory, failures_connection⟩
  intro ν ε _ o body notes
  refine ⟨?_, ?_, ?_⟩
  · intro cause hrefusal
    exact edit_of_refusal o body notes hrefusal
  · intro hrefusal
    refine ⟨fun cause notes' hrun => edit_of_halt o body notes hrefusal hrun, ?_⟩
    intro cause hlost
    exact edit_of_loss o body notes hrefusal hlost
  · intro cause notes' o' h
    exact blame_of_edit_error o body notes h

/-- An edit that panics after it has cleared, written and set the flag leaves a connection whose
rows do not all decode as it was, though its note stays. The same writes are refused by one backend
and lost by another, and both stores are left alone. -/
theorem three_edits_leave_no_trace :
    let rows : List PreferenceRow := [⟨.text "n", .int 2, .int 7⟩, ⟨.text "b", .int 2, .text "x"⟩]
    let damaged : Observed Connection Unit :=
      ⟨⟨⟨{ versions := some [1], preferences := some rows }, 0, 0⟩, Dict.empty, .empty⟩, (), []⟩
    let before : Snapshot := .ofList [("n", .int 7)]
    let faulty (begins commits : List Nat) : Observed (Faulty Memory) Unit :=
      ⟨⟨{ inner := ⟨before⟩, failBegin := begins, failCommit := commits }, before, .empty⟩, (), []⟩
    let writes : EditBody Nat StoreError := fun draft count =>
      (((draft.clear.put "a" (.int 1)).map Draft.markMigrated).mapError .error, count + 1)
    let panics : EditBody Nat StoreError := fun draft count =>
      match writes draft count with
      | (.ok _, count) => (.error .panic, count)
      | stopped => stopped
    damaged.edit panics 0 = (.error .panic, 1, damaged) ∧
    (∃ o', (faulty [1] []).edit writes 0 = (.error (.error (.io .injected)), 0, o') ∧
      Untouched (faulty [1] []) o') ∧
    ∃ o', (faulty [] [1]).edit writes 0 = (.error (.error (.io .injected)), 1, o') ∧
      Untouched (faulty [] [1]) o' := by
  intro rows damaged before faulty writes panics
  obtain ⟨hany, -, hconnection⟩ := all_or_nothing
  obtain ⟨hkept, hends⟩ := hany (β := Faulty Memory) (ρ := Unit)
  refine ⟨?_, ?_, ?_⟩
  · obtain ⟨-, hhalts⟩ := hany (β := Connection) (ρ := Unit)
    obtain ⟨-, hhalts, -⟩ := hhalts damaged panics 0
    obtain ⟨o', hedit⟩ := (hhalts rfl).1 .panic 1 rfl
    have hsame : damaged = o' := hconnection.of_edit_error hedit
    rw [hedit, hsame]
  · obtain ⟨hrefused, -⟩ := hends (faulty [1] []) writes 0
    obtain ⟨o', hedit⟩ := hrefused (.io .injected) rfl
    exact ⟨o', hedit, hkept.of_edit_error hedit⟩
  · obtain ⟨-, hlost, -⟩ := hends (faulty [] [1]) writes 0
    obtain ⟨notes', o', hedit⟩ := (hlost rfl).2 (.io .injected) fun found _ => ⟨_, _, rfl, rfl⟩
    obtain rfl : 1 = notes' := congrArg (·.2.1) hedit
    exact ⟨o', hedit, hkept.of_edit_error hedit⟩

end Observed

end PrefStore
