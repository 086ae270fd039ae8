import PrefStore.Proofs.Backend.Transactional

/-!
# Transactions after a trial

A backend may run a transform on contents that it throws away before it runs it on what it
commits. The second run finds the notes of the first. For a transform that repeats itself in spite
of them a trial makes no difference: the transaction fails alike or commits the same, and leaves
the same backend and the same notes.
-/

namespace PrefStore

variable {β γ ν ε : Type}

/-- A transform that, once it has completed, does the same again on the same contents. -/
def Transform.Repeatable (t : Transform ν ε) : Prop :=
  ∀ s notes next notes', t s notes = (.ok next, notes') → t s notes' = (.ok next, notes')

/-- Backends that are changed by commits only, and go by the transform alone. -/
class Plain (β : Type) [Backend β] : Prop where
  /-- A failed transaction leaves the backend as it was. -/
  eq_of_transact_error {ν ε : Type} {b b' : β} {t : Transform ν ε} {notes notes' : ν}
    {stop : Stop ε} (h : Backend.transact b t notes = (.error stop, notes', b')) : b' = b
  /-- A committed transaction would be committed again in place of the first. -/
  transact_again {ν ε : Type} {b b' : β} {t : Transform ν ε} {notes notes' : ν} {next : Snapshot}
    (ht : t.Repeatable) (h : Backend.transact b t notes = (.ok next, notes', b')) :
    Backend.transact b t notes' = (.ok next, notes', b')

instance : Plain Memory where
  eq_of_transact_error := Memory.transact_error
  transact_again {ν ε b b' t notes notes' next} ht h := by
    have h' : b.transact t notes = (.ok next, notes', b') := h
    show b.transact t notes' = _
    unfold Memory.transact at h' ⊢
    split at h'
    · next hrun =>
      cases h'
      rw [ht _ _ _ _ hrun]
    · cases h'

instance : Plain Connection where
  eq_of_transact_error := Connection.transact_error
  transact_again {ν ε b b' t notes notes' next} ht h := by
    have h' : b.transact t notes = (.ok next, notes', b') := h
    show b.transact t notes' = _
    unfold Connection.transact at h' ⊢
    split at h'
    · cases h'
    · next before tx hread =>
      split at h'
      · cases h'
      · next hrun =>
        split at h'
        · cases h'
        · next hwrite =>
          cases h'
          simp only [ht _ _ _ _ hrun, hwrite]

/-- A commit that fails on a faulty backend leaves the one underneath as it was. -/
theorem Faulty.inner_of_commit_error [Backend β] [Plain β] {f f' : Faulty β} {t : Transform ν ε}
    {notes notes' : ν} {stop : Stop ε} (h : f.commit t notes = (.error stop, notes', f')) :
    f'.inner = f.inner := by
  unfold commit at h
  split at h
  · next hrun =>
    cases h
    exact Plain.eq_of_transact_error hrun
  · split at h
    · cases h
      rfl
    · cases h

/-- A transaction that fails on a faulty backend leaves the one underneath as it was. -/
theorem Faulty.inner_of_transact_error [Backend β] [Plain β] {f f' : Faulty β}
    {t : Transform ν ε} {notes notes' : ν} {stop : Stop ε}
    (h : f.transact t notes = (.error stop, notes', f')) : f'.inner = f.inner := by
  unfold transact at h
  dsimp only at h
  split at h
  · cases h
    rfl
  · split at h
    · split at h
      · cases h
        rfl
      · have hkept := inner_of_commit_error h
        exact hkept
    · have hkept := inner_of_commit_error h
      exact hkept

/-- Backends of which either will do: transactions that repeat themselves come to the same. -/
def Interchangeable [Backend β] [Backend γ] (change : β → γ) : Prop :=
  ∀ {ν ε : Type} (b : β) {t : Transform ν ε}, t.Repeatable → ∀ notes,
    Backend.transact (change b) t notes =
      let (answer, notes, b) := Backend.transact b t notes
      (answer, notes, change b)

namespace Faulty

/-- The backend that puts transactions to a trial first, or does not. -/
def trying (f : Faulty β) (twice : Bool) : Faulty β := { f with twice }

variable [Backend β]

/-- A commit does not depend on trials. -/
theorem commit_trying (f : Faulty β) (t : Transform ν ε) (notes : ν) (twice : Bool) :
    (f.trying twice).commit t notes =
      let (answer, notes, f) := f.commit t notes
      (answer, notes, f.trying twice) := by
  unfold commit trying
  dsimp only
  split
  · rfl
  · split <;> rfl

/-- A trial of a transform that repeats itself makes no difference to the transaction. -/
theorem transact_eq_commit [Plain β] (f : Faulty β) {t : Transform ν ε} (ht : t.Repeatable)
    (notes : ν) : f.transact t notes =
      let f := { f with transactions := f.transactions + 1 }
      if f.failBegin.contains f.transactions then (.error (.failed (.io .injected)), notes, f)
      else f.commit t notes := by
  unfold transact
  dsimp only
  split
  · rfl
  · split
    · cases htrial : Backend.transact f.inner t notes with
      | mk answer rest =>
        obtain ⟨found, inner⟩ := rest
        cases answer with
        | error cause =>
          -- The trial failed, as the transaction would have, and either leaves what is underneath.
          have hinner := Plain.eq_of_transact_error htrial
          simp only [commit, htrial, hinner]
        | ok next =>
          have hagain := Plain.transact_again ht htrial
          simp only [commit, htrial, hagain]
    · rfl

/-- Whether transactions are put to a trial is of no account. -/
theorem interchangeable_trying [Plain β] (twice : Bool) :
    Interchangeable fun f : Faulty β => f.trying twice := by
  intro ν ε f t ht notes
  have hcommit := commit_trying { f with transactions := f.transactions + 1 } t notes twice
  show (f.trying twice).transact t notes =
    let (answer, notes, f) := f.transact t notes
    (answer, notes, f.trying twice)
  rw [transact_eq_commit _ ht, transact_eq_commit _ ht]
  dsimp only
  by_cases hplan : f.failBegin.contains (f.transactions + 1) = true
  · have hplan' : (f.trying twice).failBegin.contains ((f.trying twice).transactions + 1) = true :=
      hplan
    rw [if_pos hplan, if_pos hplan']
    rfl
  · have hplan' : ¬(f.trying twice).failBegin.contains ((f.trying twice).transactions + 1) = true :=
      hplan
    rw [if_neg hplan, if_neg hplan']
    exact hcommit

end Faulty

namespace Engine

/-- The engine whose faulty backend puts transactions to a trial first, or does not. -/
def trying (twice : Bool) : Engine → Engine
  | faulty b => faulty (b.trying twice)
  | engine => engine

/-- Whether transactions of an engine are put to a trial is of no account. -/
theorem interchangeable_trying (twice : Bool) : Interchangeable (trying twice) := by
  intro ν ε engine t ht notes
  cases engine with
  | memory b => rfl
  | table b => rfl
  | faulty b =>
    have hbackend := Faulty.interchangeable_trying twice b ht notes
    exact congrArg (Prod.map id (Prod.map id faulty)) hbackend

end Engine

end PrefStore
