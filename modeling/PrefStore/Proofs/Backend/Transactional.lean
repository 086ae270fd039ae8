import Mathlib.Logic.Relation
import PrefStore.Backend.Engine
import PrefStore.Proofs.Database.Transaction

/-!
# Backends that run transactions

Whatever keeps the contents of a store, a transaction on it comes to one of four ends: it is
refused before its transform runs, the transform stops, its result is lost, or it is
committed. A backend may run the transform more than once, on the same contents each time, and
goes by the last run. All but a committed transaction leave the contents as they were. Whether a
result is lost may depend on it, but not where it follows the contents carefully.
-/

namespace PrefStore

variable {β ν ε : Type}

/-- Notes that a transform has after any number of completed runs on the same contents. -/
def Transform.Rerun (t : Transform ν ε) (contents : Snapshot) : ν → ν → Prop :=
  Relation.ReflTransGen fun notes notes' => ∃ next, t contents notes = (.ok next, notes')

/-- The ends that a transaction may come to, given how contents are read and which failures of
the backend are due. -/
inductive Ending (contents : β → Snapshot) (refusal : Option StoreError)
    (loss : Snapshot → Option StoreError) (b : β) (t : Transform ν ε) (notes : ν) :
    Except (Stop ε) Snapshot × ν × β → Prop where
  /-- The transaction fails before the transform runs. -/
  | refused {cause : StoreError} {b' : β} (hrefusal : refusal = some cause)
      (hkept : contents b' = contents b) :
      Ending contents refusal loss b t notes (.error (.failed cause), notes, b')
  /-- The last run of the transform stops. -/
  | halted {cause : Halt ε} {found notes' : ν} {b' : β} (hrefusal : refusal = none)
      (hrerun : t.Rerun (contents b) notes found)
      (hrun : t (contents b) found = (.error cause, notes'))
      (hkept : contents b' = contents b) :
      Ending contents refusal loss b t notes (.error (.halted cause), notes', b')
  /-- The transaction fails when it should write or commit the result. -/
  | lost {cause : StoreError} {found notes' : ν} {next : Snapshot} {b' : β}
      (hrefusal : refusal = none) (hloss : loss next = some cause)
      (hrerun : t.Rerun (contents b) notes found)
      (hrun : t (contents b) found = (.ok next, notes'))
      (hkept : contents b' = contents b) :
      Ending contents refusal loss b t notes (.error (.failed cause), notes', b')
  /-- The result of the last run is committed. -/
  | committed {found notes' : ν} {next : Snapshot} {b' : β}
      (hrefusal : refusal = none) (hloss : loss next = none)
      (hrerun : t.Rerun (contents b) notes found)
      (hrun : t (contents b) found = (.ok next, notes'))
      (hagrees : (contents b').Agrees next)
      (hsame : next = contents b → contents b' = contents b) :
      Ending contents refusal loss b t notes (.ok next, notes', b')

namespace Ending

variable {contents : β → Snapshot} {refusal : Option StoreError}
  {loss : Snapshot → Option StoreError} {b b' : β} {t : Transform ν ε} {notes found : ν}
  {result : Except (Stop ε) Snapshot × ν × β}

private theorem of_contents_eq (h : Ending contents refusal loss b t notes result)
    (hcontents : contents b = contents b') : Ending contents refusal loss b' t notes result := by
  cases h with
  | refused hrefusal hkept => exact .refused hrefusal (hkept.trans hcontents)
  | halted hrefusal hrerun hrun hkept =>
    rw [hcontents] at hrerun hrun
    exact .halted hrefusal hrerun hrun (hkept.trans hcontents)
  | lost hrefusal hloss hrerun hrun hkept =>
    rw [hcontents] at hrerun hrun
    exact .lost hrefusal hloss hrerun hrun (hkept.trans hcontents)
  | committed hrefusal hloss hrerun hrun hagrees hsame =>
    rw [hcontents] at hrerun hrun hsame
    exact .committed hrefusal hloss hrerun hrun hagrees hsame

private theorem after_rerun (h : Ending contents none loss b t found result)
    (hbefore : t.Rerun (contents b) notes found) :
    Ending contents none loss b t notes result := by
  cases h with
  | refused hrefusal => cases hrefusal
  | halted hrefusal hrerun hrun hkept => exact .halted hrefusal (hbefore.trans hrerun) hrun hkept
  | lost hrefusal hloss hrerun hrun hkept =>
    exact .lost hrefusal hloss (hbefore.trans hrerun) hrun hkept
  | committed hrefusal hloss hrerun hrun hagrees hsame =>
    exact .committed hrefusal hloss (hbefore.trans hrerun) hrun hagrees hsame

end Ending

/-- A backend whose committed contents can be read off, and whose operations go by them. -/
class Transactional (β : Type) [Backend β] where
  /-- The committed contents. -/
  contents : β → Snapshot
  /-- The failure of a transaction before its transform runs, if it is due. -/
  refusal : β → Option StoreError
  /-- The failure of a transaction when it should write or commit a result, if it is due. -/
  loss : β → Snapshot → Option StoreError
  /-- All results that follow the contents carefully are lost alike. -/
  loss_of_careful {b : β} {next : Snapshot} (h : (contents b).Careful next) :
    loss b next = loss b (contents b)
  contents_load (b : β) : contents (Backend.load b).2 = contents b
  eq_contents_of_load {b : β} {s : Snapshot} (h : (Backend.load b).1 = .ok s) : s = contents b
  contents_changed (b : β) : contents (Backend.changed b).2 = contents b
  ending {ν ε : Type} (b : β) (t : Transform ν ε) (notes : ν) :
    Ending contents (refusal b) (loss b) b t notes (Backend.transact b t notes)

/-- A snapshot in memory never fails a transaction. -/
instance : Transactional Memory where
  contents := Memory.contents
  refusal _ := none
  loss _ _ := none
  loss_of_careful _ := rfl
  contents_load _ := rfl
  eq_contents_of_load h := by
    cases h
    rfl
  contents_changed _ := rfl
  ending m t notes := by
    show Ending _ _ _ _ _ _ (m.transact t notes)
    unfold Memory.transact
    split
    · next next notes' hrun =>
      exact .committed rfl rfl .refl hrun (.refl next) id
    · next cause notes' hrun => exact .halted rfl .refl hrun rfl

/-- A failed transaction leaves a snapshot in memory as it was. -/
theorem Memory.transact_error {m m' : Memory} {t : Transform ν ε} {notes notes' : ν}
    {stop : Stop ε} (h : m.transact t notes = (.error stop, notes', m')) : m' = m := by
  unfold transact at h
  split at h
  · cases h
  · cases h
    rfl

namespace Connection

/-- A connection refuses a transaction where the table is gone. -/
def refusal (c : Connection) : Option StoreError :=
  if c.database.preferences.isSome then none else some .database

/-- A connection loses the results that hold a NaN, which do not agree with themselves. -/
def loss (after : Snapshot) : Option StoreError :=
  if after.same after then none else some .database

/-- A connection loses no result without a NaN. -/
theorem loss_of_regular {after : Snapshot} (h : after.Regular) : loss after = none := by
  rw [loss, h.same_self, if_pos rfl]

/-- A connection loses every result with a NaN. -/
theorem loss_of_nan {after : Snapshot} (h : ¬ after.Regular) : loss after = some .database := by
  rw [loss, if_neg (mt Snapshot.regular_of_same h)]

/-- A transaction on a connection is refused, stops, is lost to a NaN or is committed. -/
theorem transact_ending (c : Connection) (t : Transform ν ε) (notes : ν) :
    Ending table c.refusal loss c t notes (c.transact t notes) := by
  cases hrows : c.database.preferences with
  | none =>
    rw [transact_of_no_table hrows]
    exact .refused (by simp [refusal, hrows]) rfl
  | some rows =>
    have hrefusal : c.refusal = none := by simp [refusal, hrows]
    have htable : c.table = contents rows := table_of_rows hrows
    cases hended : t (contents rows) notes with
    | mk outcome notes' =>
      have hrun : t c.table notes = (outcome, notes') := htable ▸ hended
      cases outcome with
      | error cause =>
        rw [transact_of_halt hrows hended]
        exact .halted hrefusal .refl hrun rfl
      | ok after =>
        by_cases hafter : after.Regular
        · obtain ⟨rows', s, htransact, hhold, -, hsame⟩ := transact_of_regular hrows hended hafter
          rw [htransact]
          refine .committed hrefusal (loss_of_regular hafter) .refl hrun (.inr ?_) fun hkept => ?_
          · rw [table_of_rows (commitRows_preferences c rows'), contents_of_hold hhold]
            exact hsame
          · rw [hkept, htable] at hended htransact
            rw [transact_of_same hrows hended] at htransact
            have hrows' : c.commitRows (salvage rows) = c.commitRows rows' :=
              congrArg (fun result => result.2.2) htransact
            rw [← hrows', table_of_rows (commitRows_preferences c _),
              contents_of_hold (hold_salvage rows), htable]
        · rw [transact_of_nan hrows hended hafter]
          exact .lost hrefusal (loss_of_nan hafter) .refl hrun rfl

instance : Transactional Connection where
  contents := table
  refusal := refusal
  loss _ := loss
  loss_of_careful {c after} h := by
    have hcontents : c.table.Regular := contents_regular _
    rw [loss_of_regular (h.regular hcontents), loss_of_regular hcontents]
  contents_load _ := rfl
  eq_contents_of_load h := by
    cases h
    rfl
  contents_changed _ := rfl
  ending := transact_ending

end Connection

namespace Faulty

variable [Backend β] [Transactional β]

/-- A faulty backend refuses a transaction by its plan, or where the one underneath does. -/
def refusal (f : Faulty β) : Option StoreError :=
  if f.failBegin.contains (f.transactions + 1) then some (.io .injected)
  else Transactional.refusal f.inner

/-- A faulty backend loses a transaction where the one underneath does, or by its plan. -/
def loss (f : Faulty β) (next : Snapshot) : Option StoreError :=
  (Transactional.loss f.inner next).or
    (if f.failCommit.contains (f.transactions + 1) then some (.io .injected) else none)

/-- The contents underneath a faulty backend. -/
def contents (f : Faulty β) : Snapshot := Transactional.contents f.inner

/-- A commit that may be lost by the plan. -/
theorem commit_ending (f : Faulty β) (t : Transform ν ε) (notes : ν) :
    Ending contents (Transactional.refusal f.inner)
      (fun next => (Transactional.loss f.inner next).or
        (if f.failCommit.contains f.transactions then some (.io .injected) else none))
      f t notes (f.commit t notes) := by
  have hinner := Transactional.ending f.inner t notes
  unfold commit
  generalize Backend.transact f.inner t notes = result at hinner ⊢
  cases hinner with
  | refused hrefusal hkept => exact .refused hrefusal hkept
  | halted hrefusal hrerun hrun hkept => exact .halted hrefusal hrerun hrun hkept
  | lost hrefusal hloss hrerun hrun hkept =>
    exact .lost hrefusal (by simp [hloss]) hrerun hrun hkept
  | committed hrefusal hloss hrerun hrun hagrees hsame =>
    dsimp only
    split
    · exact .lost hrefusal (by simp [hloss]) hrerun hrun rfl
    · exact .committed hrefusal (by simp [hloss]) hrerun hrun hagrees hsame

/-- A transaction on a faulty backend, perhaps after a trial. -/
theorem transact_ending (f : Faulty β) (t : Transform ν ε) (notes : ν) :
    Ending contents f.refusal f.loss f t notes (f.transact t notes) := by
  unfold transact
  dsimp only
  have hcommit (notes : ν) : Ending contents (Transactional.refusal f.inner) f.loss f t notes
      (commit { f with transactions := f.transactions + 1 } t notes) :=
    (commit_ending { f with transactions := f.transactions + 1 } t notes).of_contents_eq rfl
  split
  · next hplan => exact .refused (by simp only [refusal, if_pos hplan]) rfl
  · next hplan =>
    have hrefusal : f.refusal = Transactional.refusal f.inner := by
      simp only [refusal, if_neg hplan]
    rw [hrefusal]
    split
    · have htrial := Transactional.ending f.inner t notes
      generalize Backend.transact f.inner t notes = result at htrial ⊢
      cases htrial with
      | refused hrefusal hkept => exact .refused hrefusal rfl
      | halted hrefusal hrerun hrun hkept => exact .halted hrefusal hrerun hrun rfl
      | lost hrefusal hloss hrerun hrun hkept =>
        exact .lost hrefusal (by simp [loss, hloss]) hrerun hrun rfl
      | @committed found notes' next _ hrefusal hloss hrerun hrun hagrees hsame =>
        have hagain := hcommit notes'
        rw [hrefusal] at hagain ⊢
        exact hagain.after_rerun (hrerun.tail ⟨next, hrun⟩)
    · exact hcommit notes

instance : Transactional (Faulty β) where
  contents := contents
  refusal := refusal
  loss := loss
  loss_of_careful {f next} h := by
    have hinner : Transactional.loss f.inner next = Transactional.loss f.inner f.contents :=
      Transactional.loss_of_careful h
    rw [loss, loss, hinner]
  contents_load f := by
    show contents f.load.2 = contents f
    have hinner := Transactional.contents_load f.inner
    unfold load
    dsimp only
    split
    · rfl
    · generalize Backend.load f.inner = result at hinner ⊢
      obtain ⟨answer, inner⟩ := result
      cases answer <;> exact hinner
  eq_contents_of_load {f s} h := by
    have h' : f.load.1 = .ok s := h
    have hinner := @Transactional.eq_contents_of_load _ _ _ f.inner
    unfold load at h'
    dsimp only at h'
    split at h'
    · cases h'
    · generalize Backend.load f.inner = result at hinner h'
      obtain ⟨answer, inner⟩ := result
      cases answer with
      | error e => cases h'
      | ok contents =>
        cases h'
        exact hinner rfl
  contents_changed f := by
    show contents f.changed.2 = contents f
    have hinner := Transactional.contents_changed f.inner
    unfold changed
    split
    · rfl
    · generalize Backend.changed f.inner = result at hinner ⊢
      obtain ⟨answer, inner⟩ := result
      cases answer <;> exact hinner
  ending := transact_ending

end Faulty

namespace Engine

/-- The contents of the backend that an engine holds. -/
def contents : Engine → Snapshot
  | memory b => Transactional.contents b
  | faulty b => Transactional.contents b
  | table b => Transactional.contents b

/-- An engine refuses a transaction where its backend does. -/
def refusal : Engine → Option StoreError
  | memory b => Transactional.refusal b
  | faulty b => Transactional.refusal b
  | table b => Transactional.refusal b

/-- An engine loses a transaction where its backend does. -/
def loss : Engine → Snapshot → Option StoreError
  | memory b => Transactional.loss b
  | faulty b => Transactional.loss b
  | table b => Transactional.loss b

/-- An end on a backend is an end on the engine that holds it. -/
theorem ending_map [Backend β] [Transactional β] {hold : β → Engine}
    (hcontents : ∀ b, contents (hold b) = Transactional.contents b) (b : β)
    (t : Transform ν ε) (notes : ν) :
    Ending contents (Transactional.refusal b) (Transactional.loss b) (hold b) t notes
      (let (answer, notes, b) := Backend.transact b t notes
       (answer, notes, hold b)) := by
  have hinner := Transactional.ending b t notes
  generalize Backend.transact b t notes = result at hinner ⊢
  cases hinner with
  | refused hrefusal hkept => exact .refused hrefusal (by simpa only [hcontents] using hkept)
  | halted hrefusal hrerun hrun hkept =>
    rw [← hcontents b] at hrerun hrun
    exact .halted hrefusal hrerun hrun (by simpa only [hcontents] using hkept)
  | lost hrefusal hloss hrerun hrun hkept =>
    rw [← hcontents b] at hrerun hrun
    exact .lost hrefusal hloss hrerun hrun (by simpa only [hcontents] using hkept)
  | committed hrefusal hloss hrerun hrun hagrees hsame =>
    rw [← hcontents b] at hrerun hrun
    refine .committed hrefusal hloss hrerun hrun ?_ ?_
    · simpa only [hcontents] using hagrees
    · simpa only [hcontents] using hsame

instance : Transactional Engine where
  contents := contents
  refusal := refusal
  loss := loss
  loss_of_careful {engine next} h := by
    cases engine with
    | memory b => exact Transactional.loss_of_careful (b := b) h
    | faulty b => exact Transactional.loss_of_careful (b := b) h
    | table b => exact Transactional.loss_of_careful (b := b) h
  contents_load engine := by
    cases engine with
    | memory b => exact Transactional.contents_load b
    | faulty b => exact Transactional.contents_load b
    | table b => exact Transactional.contents_load b
  eq_contents_of_load {engine s} h := by
    cases engine with
    | memory b => exact Transactional.eq_contents_of_load (b := b) h
    | faulty b => exact Transactional.eq_contents_of_load (b := b) h
    | table b => exact Transactional.eq_contents_of_load (b := b) h
  contents_changed engine := by
    cases engine with
    | memory b => exact Transactional.contents_changed b
    | faulty b => exact Transactional.contents_changed b
    | table b => exact Transactional.contents_changed b
  ending engine t notes := by
    cases engine with
    | memory b => exact ending_map (fun _ => rfl) b t notes
    | faulty b => exact ending_map (fun _ => rfl) b t notes
    | table b => exact ending_map (fun _ => rfl) b t notes

end Engine

end PrefStore
