import PrefStore.Proofs.Edit.MapProgram
import PrefStore.Proofs.Store.Working

/-!
# Scripts on stores

A script that is committed means what it means on a plain map, beginning with the latest committed
contents, whatever the store had published before. Its reads see those contents and the writes
before them, what it makes of them is published, and listeners are called for the keys that it
writes. So no change of a key that clients see is kept from them.
-/

namespace PrefStore

open Value

namespace Observed

variable {β ρ : Type} [Backend β] [Transactional β] [Conduct ρ]

/-- What scripts do, if the listeners are quiet. One that is committed means on the latest contents
what is published afterwards, with the results that it had; what is committed agrees with it; the
listeners are called for the keys that it writes; a key that is not reserved is among them if what
is published or committed there differs from what was committed before; and no reserved key is.
On a store that works every script is committed that means anything. An operation that fails leaves
the draft as it is, its entries and the keys that count as written. -/
theorem runScript_means_map_program {o : Observed β ρ} (hquiet : Conduct.Quiet o.conduct)
    (script : Script) :
    (∀ results o', o.runScript script = (.ok (), results, o') →
      script.Means o.store.contents.get? results o'.store.published.get? ∧
      o'.store.contents.Agrees o'.store.published ∧
      o.Notified o' (script.Writes o.store.contents.get? results) ∧
      (∀ key, isReserved key = false →
        o'.store.published.get? key ≠ o.store.contents.get? key →
          script.Writes o.store.contents.get? results key) ∧
      (∀ key, isReserved key = false →
        o'.store.contents.get? key ≠ o.store.contents.get? key →
        ¬ SameAnswer (o'.store.contents.get? key) (o.store.contents.get? key) →
          script.Writes o.store.contents.get? results key) ∧
      ∀ key, script.Writes o.store.contents.get? results key → isReserved key = false) ∧
    (o.store.Works → ∀ results m, script.Means o.store.contents.get? results m →
      ∃ o', o.runScript script = (.ok (), results, o') ∧ o'.store.published.get? = m) ∧
    ∀ (step : EditStep) (d : Draft) (cause : StoreError),
      (step.run d).1 = .failed cause → (step.run d).2 = d := by
  refine ⟨?_, ?_, fun step d cause h => EditStep.run_of_failed h⟩
  · intro results o' h
    obtain ⟨found, e, hrun, hwrote⟩ := exists_wrote_of_edit hquiet script.edit h
    have hmeans := Script.means_of_run hrun
    rw [← hwrote.published] at hmeans
    have hpublished (key : String) (hkey : isReserved key = false) :
        o'.store.published.get? key ≠ o.store.contents.get? key →
          script.Writes o.store.contents.get? results key := hmeans.writes_of_changes hkey
    refine ⟨hmeans, hwrote.agrees, ?_, hpublished, ?_, fun key => hmeans.not_reserved⟩
    · refine hwrote.notified.congr fun key => ?_
      rw [Script.mem_touched_of_run hrun]
      exact or_iff_left List.not_mem_nil
    · intro key hkey hne hdiffer
      refine hpublished key hkey fun hsame => ?_
      rcases hwrote.agrees.get? key with heq | hagrees
      · exact hne (heq.trans hsame)
      · exact hdiffer (hsame ▸ hagrees)
  · intro hworks results m hmeans
    obtain ⟨e, hrun, rfl⟩ := hmeans.run (d := o.store.draft)
    obtain ⟨o', hedit, hwrote⟩ := edit_of_completes hworks hquiet script.edit [] fun _ => hrun
    exact ⟨o', hedit, congrArg Dict.get? hwrote.published⟩

/-- A script on a store whose published snapshot is out of date. It reads what others committed,
goes on after two writes that are refused, clears what clients see and puts the same value back;
so the value of one key is the same afterwards, and still a listener is called for it, as for the
key that went and for the one that was never there. -/
theorem script_on_outdated_store :
    let contents : Snapshot :=
      .ofList [(migrationKey, .boolean true), ("a", .int 1), ("b", .int 2)]
    let o : Observed Memory Unit :=
      ⟨⟨⟨contents⟩, Dict.ofList [("a", .int 0)], Registry.empty.register⟩, (), []⟩
    let script : Script := [
      ⟨.get "a", false⟩, ⟨.put "" (.int 3), true⟩, ⟨.put "c" (.float .nan), true⟩, ⟨.clear, false⟩,
      ⟨.contains "b", false⟩, ⟨.put "a" (.int 1), false⟩, ⟨.remove "d", false⟩,
      ⟨.remove versionKey, true⟩, ⟨.isMigrated, false⟩, ⟨.keys, false⟩]
    let results : List StepResult := [
      .value (some (.int 1)), .failed (.invalidKey ""),
      .failed (.invalidValue "c" (.nonFinite .nan)), .done, .flag false, .done, .done,
      .failed (.reservedKey versionKey), .flag true, .keys ["a"]]
    ∃ o', o.runScript script = (.ok (), results, o') ∧
      o'.store.entries = [("a", .int 1)] ∧ o'.calls.map (·.key) = ["a", "b", "d"] ∧
      script.Means contents.get? results o'.store.published.get? ∧
      o.Notified o' (script.Writes contents.get? results) := by
  intro contents o script results
  obtain ⟨hcommitted, -, -⟩ := runScript_means_map_program (o := o) Conduct.quiet_unit script
  have hrun : o.runScript script = (.ok (), results, (o.runScript script).2.2) := by rfl
  obtain ⟨hmeans, -, hnotified, -⟩ := hcommitted results _ hrun
  exact ⟨_, hrun, by decide, by decide, hmeans, hnotified⟩

end Observed

end PrefStore
