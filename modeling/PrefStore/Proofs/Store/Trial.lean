import PrefStore.Proofs.Backend.Trial
import PrefStore.Proofs.Store.Commit
import PrefStore.Proofs.Store.Lockstep

/-!
# Edits after a trial

Every body that operations run overwrites the notes of its last run, and so does an edit with the
set of keys that it wrote. Stores over interchangeable backends therefore run in lockstep, and no
operation tells them apart.
-/

namespace PrefStore

variable {β γ ρ ν ε α : Type}

/-- A body that, once it has completed, does the same again on the same draft. -/
def EditBody.Repeatable (body : EditBody ν ε) : Prop :=
  ∀ d notes e notes', body d notes = (.ok e, notes') → body d notes' = (.ok e, notes')

/-- The edit of a body that repeats itself does so too: the last run decides which keys were
written. -/
theorem EditBody.Repeatable.transform {body : EditBody ν ε} (h : body.Repeatable) :
    (Store.transform body).Repeatable := by
  rintro s ⟨notes, touched⟩ next ⟨notes', touched'⟩ hrun
  have hbody := Store.transform_eq_ok_iff.1 hrun
  exact Store.transform_eq_ok_iff.2 (h _ _ _ _ hbody)

/-- A step has no notes to go by. -/
theorem EditBody.repeatable_ofStep (step : Draft → Except ε Draft) :
    (EditBody.ofStep step).Repeatable :=
  fun _ _ _ _ hrun => hrun

/-- A script lists its results anew in each run. -/
theorem Script.repeatable_body (script : Script) : script.body.Repeatable :=
  fun _ _ _ _ hrun => hrun

/-- An import of pairs counts anew in each run. -/
theorem Observed.repeatable_pairsBody (pairs : List LegacyRecord) :
    (Observed.pairsBody pairs).Repeatable :=
  fun _ _ _ _ hrun => hrun

namespace Observed

/-- The store over another backend. -/
def onto (change : β → γ) (o : Observed β ρ) : Observed γ ρ :=
  ⟨⟨change o.store.backend, o.store.published, o.store.listeners⟩, o.conduct, o.calls⟩

variable [Backend β] [Backend γ] {change : β → γ}

/-- The edits of a body that repeats itself end alike over interchangeable backends. -/
theorem follows_onto [IncludesStore ε] (h : Interchangeable change) {body : EditBody ν ε}
    (hbody : body.Repeatable) :
    Follows (fun o (o' : Observed γ ρ) => o' = o.onto change) body := by
  rintro o _ rfl notes
  have htransact := h o.store.backend hbody.transform (notes, Dict.empty)
  have hbackend : (o.onto change).store.backend = change o.store.backend := rfl
  unfold Store.commit
  rw [hbackend, htransact]
  generalize Backend.transact o.store.backend (Store.transform body) (notes, Dict.empty) = ended
  obtain ⟨answer, ⟨found, touched⟩, b⟩ := ended
  cases answer with
  | error stop => exact ⟨rfl, rfl, rfl⟩
  | ok committed => exact ⟨rfl, rfl, rfl⟩

variable [Conduct ρ]

/-- Stores over interchangeable backends run in lockstep. -/
theorem lockstep_onto (h : Interchangeable change) :
    Lockstep fun (o : Observed β ρ) o' => o' = o.onto change where
  conduct := by
    rintro o _ rfl
    rfl
  listeners := by
    rintro o _ rfl
    rfl
  record := by
    rintro o _ rfl depth listener key
    rfl
  listen := by
    rintro o _ rfl listeners
    rfl
  act := by
    rintro o _ rfl listener key turn
    exact ⟨rfl, rfl⟩
  script _ _ _ _ script _ := follows_onto h script.repeatable_body

/-- An operation that does not tell backends apart: over either it has the same answer and leaves
the same published snapshot and listeners, which were called alike, over backends that
correspond. -/
def Indifferent (change : β → β) (operation : Observed β ρ → α × Observed β ρ) : Prop :=
  ∀ o, operation (o.onto change) = ((operation o).1, (operation o).2.onto change)

omit [Conduct ρ] [Backend β] in
/-- Operations that end alike on stores over either backend do not tell them apart. -/
theorem indifferent_of_paired {change : β → β} {operation : Observed β ρ → α × Observed β ρ}
    (h : ∀ o, Paired (fun o o' => o' = o.onto change) (operation o)
      (operation (o.onto change))) : Indifferent change operation :=
  fun o => Prod.ext (h o).1 (h o).2

section Operations

variable {change : β → β} (h : Interchangeable change)

include h

/-- An edit whose body repeats itself comes to the same over either backend, and so do its
notes. -/
theorem edit_onto [IncludesStore ε] {body : EditBody ν ε} (hbody : body.Repeatable) (notes : ν)
    (o : Observed β ρ) : (o.onto change).edit body notes =
      ((o.edit body notes).1, (o.edit body notes).2.1, (o.edit body notes).2.2.onto change) := by
  obtain ⟨houtcome, hnotes, hstore⟩ :=
    (lockstep_onto h).edit (follows_onto h hbody) notes (o := o) rfl
  exact Prod.ext houtcome (Prod.ext hnotes hstore)

/-- An edit without notes does not tell backends apart. -/
theorem indifferent_editStep [IncludesStore ε] (step : Draft → Except ε Draft) :
    Indifferent (ρ := ρ) change (·.editStep step) :=
  indifferent_of_paired fun _ =>
    (lockstep_onto h).editStep (follows_onto h (EditBody.repeatable_ofStep step)) rfl

/-- Storing or removing does not tell backends apart. -/
theorem indifferent_put (key : String) (value : Option Value) :
    Indifferent (ρ := ρ) change (·.put key value) := by
  cases value with
  | some value => exact indifferent_editStep h (·.put key value)
  | none => exact indifferent_editStep h (·.remove key)

/-- An import of a document does not tell backends apart. -/
theorem indifferent_importDocument (document : Document) :
    Indifferent (ρ := ρ) change (·.importDocument document) :=
  indifferent_of_paired fun _ => (lockstep_onto h).importDocument
    (fun _ => follows_onto h (EditBody.repeatable_ofStep _)) document rfl

/-- An import of a tree does not tell backends apart. -/
theorem indifferent_importJson (json : Json) :
    Indifferent (ρ := ρ) change (·.importJson json) :=
  indifferent_of_paired fun _ => (lockstep_onto h).importJson
    (fun _ => follows_onto h (EditBody.repeatable_ofStep _)) json rfl

/-- An import of legacy pairs does not tell backends apart. -/
theorem indifferent_importPairs (pairs : List LegacyRecord) :
    Indifferent (ρ := ρ) change (·.importPairs pairs) :=
  indifferent_of_paired fun _ =>
    (lockstep_onto h).importPairs (follows_onto h (repeatable_pairsBody pairs)) rfl

end Operations

end Observed

end PrefStore
