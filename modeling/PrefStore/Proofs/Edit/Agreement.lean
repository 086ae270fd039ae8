import PrefStore.Edit.Script
import PrefStore.Proofs.Snapshot.Agreement

/-!
# Scripts on drafts that agree

Drafts agree if their entries do and the same keys have been written. A script cannot tell
drafts that agree apart: it ends in the same way on both, each of its operations gives agreeing
results, and the drafts that it makes of them agree again.
-/

namespace PrefStore

open Value

/-- Drafts with agreeing entries in which the same keys were written. -/
structure Draft.Same (d e : Draft) : Prop where
  entries : d.entries.same e.entries = true
  touched : d.touched = e.touched

/-- Results agree if they are equal, values being compared by agreement. -/
def StepResult.Agrees : StepResult → StepResult → Prop
  | value v, value w => SameAnswer v w
  | a, b => a = b

/-- Scripts end alike if both stop for one cause, or if both complete with drafts that agree. -/
inductive Script.EndsAlike :
    Except (Halt StoreError) Draft → Except (Halt StoreError) Draft → Prop where
  | stopped (cause : Halt StoreError) : EndsAlike (.error cause) (.error cause)
  | completed {d e : Draft} (h : d.Same e) : EndsAlike (.ok d) (.ok e)

private theorem StepResult.Agrees.eq_failed_iff {r r' : StepResult} (h : r.Agrees r')
    (cause : StoreError) : r = .failed cause ↔ r' = .failed cause := by
  cases r <;> cases r' <;> simp_all [Agrees]

namespace Draft.Same

variable {d e : Draft}

/-- A write is refused on both drafts for one cause, or is made on both. -/
theorem put (h : d.Same e) (key : String) (value : Value) :
    (∃ cause, d.put key value = .error cause ∧ e.put key value = .error cause) ∨
      ∃ d' e', d.put key value = .ok d' ∧ e.put key value = .ok e' ∧ d'.Same e' := by
  unfold Draft.put
  cases checkKey key with
  | error cause => exact .inl ⟨cause, rfl, rfl⟩
  | ok _ =>
    cases hvalue : value.validate with
    | error source => exact .inl ⟨.invalidValue key source, rfl, rfl⟩
    | ok _ =>
      have hsame := same_self_of_storable (validate_eq_ok_iff.1 hvalue)
      have hentries := Snapshot.same_insert h.entries key hsame
      exact .inr ⟨_, _, rfl, rfl, hentries, by rw [h.touched]⟩

/-- A removal is refused on both drafts for one cause, or is made on both. -/
theorem remove (h : d.Same e) (key : String) :
    (∃ cause, d.remove key = .error cause ∧ e.remove key = .error cause) ∨
      ∃ d' e', d.remove key = .ok d' ∧ e.remove key = .ok e' ∧ d'.Same e' := by
  unfold Draft.remove
  cases checkKey key with
  | error cause => exact .inl ⟨cause, rfl, rfl⟩
  | ok _ => exact .inr ⟨_, _, rfl, rfl, Snapshot.same_erase h.entries key, by rw [h.touched]⟩

private theorem keys_eq (h : d.Same e) : d.keys = e.keys := Snapshot.visible_keys_of_same h.entries

/-- Both drafts may be cleared. -/
theorem clear (h : d.Same e) : d.clear.Same e.clear where
  entries := Snapshot.same_filterKeys h.entries isReserved
  touched := by rw [Draft.clear, Draft.clear, h.keys_eq, h.touched]

/-- The flag may be set in both drafts. -/
theorem markMigrated (h : d.Same e) : d.markMigrated.Same e.markMigrated where
  entries := Snapshot.same_insert h.entries migrationKey rfl
  touched := h.touched

/-- Clients see agreeing values at a key of both drafts. -/
theorem get? (h : d.Same e) (key : String) : SameAnswer (d.get? key) (e.get? key) :=
  Snapshot.sameAnswer_visibleAt h.entries key

private theorem contains_eq (h : d.Same e) (key : String) : d.contains key = e.contains key := by
  have hget := h.get? key
  rw [Draft.contains, Draft.contains]
  cases hd : d.get? key <;> cases he : e.get? key <;> simp_all [SameAnswer]

end Draft.Same

/-- An operation gives agreeing results on drafts that agree, and leaves such drafts. -/
theorem EditStep.run_same {d e : Draft} (h : d.Same e) (step : EditStep) :
    (step.run d).1.Agrees (step.run e).1 ∧ (step.run d).2.Same (step.run e).2 := by
  cases step with
  | get key => exact ⟨h.get? key, h⟩
  | contains key => exact ⟨congrArg StepResult.flag (h.contains_eq key), h⟩
  | keys => exact ⟨congrArg StepResult.keys h.keys_eq, h⟩
  | put key value =>
    rcases h.put key value with ⟨cause, hd, he⟩ | ⟨d', e', hd, he, hsame⟩
    · simp only [run, hd, he]
      exact ⟨rfl, h⟩
    · simp only [run, hd, he]
      exact ⟨rfl, hsame⟩
  | remove key =>
    rcases h.remove key with ⟨cause, hd, he⟩ | ⟨d', e', hd, he, hsame⟩
    · simp only [run, hd, he]
      exact ⟨rfl, h⟩
    · simp only [run, hd, he]
      exact ⟨rfl, hsame⟩
  | clear => exact ⟨rfl, h.clear⟩
  | isMigrated =>
    exact ⟨congrArg StepResult.flag (Snapshot.isMigrated_of_same h.entries), h⟩
  | markMigrated => exact ⟨rfl, h.markMigrated⟩
  | abort => exact ⟨rfl, h⟩
  | panic => exact ⟨rfl, h⟩

namespace Script

/-- An operation that fails and may not ends its script. -/
theorem run_cons_of_failed {step : EditStep} {rest : Script} {d next : Draft} {cause : StoreError}
    (hpanic : step ≠ .panic) (h : step.run d = (.failed cause, next)) :
    run (⟨step, false⟩ :: rest) d = (.error (.error cause), [.failed cause]) := by
  exact run.eq_3 d step rest cause hpanic next h

/-- After an operation that succeeds or may fail its script goes on. -/
theorem run_cons_of_goes_on {step : EditStep} {mayFail : Bool} {rest : Script} {d : Draft}
    (hpanic : step ≠ .panic) (h : mayFail = true ∨ ∀ cause, (step.run d).1 ≠ .failed cause) :
    run (⟨step, mayFail⟩ :: rest) d =
      ((run rest (step.run d).2).1, (step.run d).1 :: (run rest (step.run d).2).2) := by
  refine run.eq_4 d step rest mayFail _ _ hpanic rfl fun cause hno hcause => ?_
  rcases h with h | h
  · rw [hno] at h
    cases h
  · exact h cause hcause

/-- If each operation of a script keeps a relation of drafts and gives related results, of which
both are a failure or none is, then the script stops for one cause on related drafts or completes
with related ones, and gives related results. -/
theorem run_related {R : Draft → Draft → Prop} {S : StepResult → StepResult → Prop}
    (hfailed : ∀ r r', S r r' → ∀ cause, r = .failed cause ↔ r' = .failed cause) {script : Script}
    (hstep : ∀ line ∈ script, ∀ d e, R d e →
      S (line.step.run d).1 (line.step.run e).1 ∧ R (line.step.run d).2 (line.step.run e).2)
    {d e : Draft} (h : R d e) :
    ((∃ cause, (script.run d).1 = .error cause ∧ (script.run e).1 = .error cause) ∨
      ∃ d' e', (script.run d).1 = .ok d' ∧ (script.run e).1 = .ok e' ∧ R d' e') ∧
      List.Forall₂ S (script.run d).2 (script.run e).2 := by
  induction script generalizing d e with
  | nil => exact ⟨.inr ⟨d, e, rfl, rfl, h⟩, .nil⟩
  | cons line rest ih =>
    obtain ⟨⟨hresult, hnext⟩, hrest⟩ := (List.forall_mem_cons.1 hstep).imp_left fun hline =>
      hline d e h
    obtain ⟨step, mayFail⟩ := line
    by_cases hpanic : step = .panic
    · subst hpanic
      exact ⟨.inl ⟨.panic, rfl, rfl⟩, .nil⟩
    by_cases hgoes : mayFail = true ∨ ∀ cause, (step.run d).1 ≠ .failed cause
    · have hgoes' : mayFail = true ∨ ∀ cause, (step.run e).1 ≠ .failed cause := by
        exact hgoes.imp_right fun hd cause he => hd cause ((hfailed _ _ hresult cause).2 he)
      rw [run_cons_of_goes_on hpanic hgoes, run_cons_of_goes_on hpanic hgoes']
      obtain ⟨hends, hresults⟩ := ih hrest hnext
      exact ⟨hends, .cons hresult hresults⟩
    · simp only [not_or, Bool.not_eq_true, not_forall, not_not] at hgoes
      obtain ⟨rfl, cause, hd⟩ := hgoes
      have he : (step.run e).1 = .failed cause := (hfailed _ _ hresult cause).1 hd
      rw [hd, he] at hresult
      rw [run_cons_of_failed hpanic (Prod.ext hd rfl), run_cons_of_failed hpanic (Prod.ext he rfl)]
      exact ⟨.inl ⟨_, rfl, rfl⟩, .cons hresult .nil⟩

/-- A script ends alike on drafts that agree, with agreeing results. -/
theorem run_same {d e : Draft} (h : d.Same e) (script : Script) :
    EndsAlike (script.run d).1 (script.run e).1 ∧
      List.Forall₂ StepResult.Agrees (script.run d).2 (script.run e).2 := by
  have hsteps : ∀ line ∈ script, ∀ d e, d.Same e →
      (line.step.run d).1.Agrees (line.step.run e).1 ∧
        (line.step.run d).2.Same (line.step.run e).2 :=
    fun line _ _ _ hsame => line.step.run_same hsame
  have hrelated := run_related (fun _ _ => StepResult.Agrees.eq_failed_iff) hsteps h
  refine ⟨?_, hrelated.2⟩
  rcases hrelated.1 with ⟨cause, hd, he⟩ | ⟨d', e', hd, he, hsame⟩
  · rw [hd, he]
    exact .stopped cause
  · rw [hd, he]
    exact .completed hsame

end Script

end PrefStore
