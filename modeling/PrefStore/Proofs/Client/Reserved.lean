import Mathlib.Data.List.Forall2
import PrefStore.Backup.Transfer
import PrefStore.Proofs.Edit.Agreement
import PrefStore.Proofs.Edit.Lawful

/-!
# Edits with other reserved entries

What clients see of one snapshot may be put with the reserved entries of another. An edit by a
client does not depend on the reserved entries: with other ones it ends in the same way, with the
same notes, and leaves the same draft, with these entries.
-/

namespace PrefStore

variable {ε ν : Type}

namespace Snapshot

/-- What clients see of one snapshot, with the reserved entries of another. -/
def withReserved (s r : Snapshot) : Snapshot :=
  s.visible.foldl (fun merged entry => merged.insert entry.1 entry.2) (r.filterKeys isReserved)

/-- Reserved keys answer for the one snapshot and all other keys for the other. -/
theorem get?_withReserved (s r : Snapshot) (key : String) :
    (s.withReserved r).get? key = if isReserved key then r.get? key else s.get? key := by
  have hvisible : s.visible = (s.filterKeys fun key => !isReserved key).entries := rfl
  rw [withReserved, Dict.get?_foldl_insert, ← Dict.get?_ofList, hvisible, Dict.ofList_entries,
    Dict.get?_filterKeys, Dict.get?_filterKeys]
  cases isReserved key <;> simp

/-- Snapshots with the same client keys differ by their reserved entries only. -/
theorem withReserved_eq_of_agree {s r : Snapshot}
    (h : ∀ key, isReserved key = false → s.get? key = r.get? key) : s.withReserved r = r := by
  refine Dict.ext_get? fun key => ?_
  rw [get?_withReserved]
  split
  · rfl
  · next hkey => exact h key (by simpa using hkey)

@[simp] theorem visible_withReserved (s r : Snapshot) : (s.withReserved r).visible = s.visible := by
  have hdict : (s.withReserved r).filterKeys (fun key => !isReserved key) =
      s.filterKeys fun key => !isReserved key := by
    refine Dict.ext_get? fun key => ?_
    rw [Dict.get?_filterKeys, Dict.get?_filterKeys, get?_withReserved]
    cases isReserved key <;> simp
  exact congrArg Dict.entries hdict

@[simp] theorem visibleAt_withReserved (s r : Snapshot) (key : String) :
    (s.withReserved r).visibleAt key = s.visibleAt key := by
  unfold visibleAt
  rw [get?_withReserved]
  split <;> rfl

@[simp] theorem readAs_withReserved (s r : Snapshot) (kind : Kind) (key : String) :
    (s.withReserved r).readAs kind key = s.readAs kind key := by
  rw [readAs, visibleAt_withReserved, readAs]

@[simp] theorem readOr_withReserved (s r : Snapshot) (key : String) (default : Value) :
    (s.withReserved r).readOr key default = s.readOr key default := by
  rw [readOr, readAs_withReserved, readOr]

private theorem insert_withReserved {key : String} (hkey : isReserved key = false) (s r : Snapshot)
    (v : Value) : (s.withReserved r).insert key v = withReserved (s.insert key v) r := by
  refine Dict.ext_get? fun other => ?_
  rw [Dict.get?_insert, get?_withReserved, get?_withReserved, Dict.get?_insert]
  by_cases heq : key = other
  · subst heq
    simp [hkey]
  · simp [heq]

private theorem erase_withReserved {key : String} (hkey : isReserved key = false) (s r : Snapshot) :
    (s.withReserved r).erase key = withReserved (s.erase key) r := by
  refine Dict.ext_get? fun other => ?_
  rw [Dict.get?_erase, get?_withReserved, get?_withReserved, Dict.get?_erase]
  by_cases heq : key = other
  · subst heq
    simp [hkey]
  · simp [heq]

private theorem filterKeys_withReserved (s r : Snapshot) :
    (s.withReserved r).filterKeys isReserved = withReserved (s.filterKeys isReserved) r := by
  refine Dict.ext_get? fun key => ?_
  rw [Dict.get?_filterKeys, get?_withReserved, get?_withReserved, Dict.get?_filterKeys]
  cases isReserved key <;> simp

end Snapshot

namespace Draft

/-- A draft with other reserved entries. -/
def withReserved (d : Draft) (r : Snapshot) : Draft := ⟨d.entries.withReserved r, d.touched⟩

/-- Clients see the same value at a key. -/
theorem get?_withReserved (d : Draft) (r : Snapshot) (key : String) :
    (d.withReserved r).get? key = d.get? key :=
  d.entries.visibleAt_withReserved r key

/-- Clients see the same keys. -/
theorem keys_withReserved (d : Draft) (r : Snapshot) : (d.withReserved r).keys = d.keys :=
  congrArg (List.map Prod.fst) (d.entries.visible_withReserved r)

/-- A value is written or refused in the same way. -/
theorem put_withReserved (d : Draft) (r : Snapshot) (key : String) (value : Value) :
    (d.withReserved r).put key value = (d.put key value).map (·.withReserved r) := by
  unfold put
  cases hkey : checkKey key with
  | error cause => rfl
  | ok _ =>
    have hinsert := Snapshot.insert_withReserved (checkKey_eq_ok_iff.1 hkey).2 d.entries r value
    cases hvalue : value.validate with
    | error source => rfl
    | ok _ => exact congrArg Except.ok (congrArg (Draft.mk · (d.touched.add key)) hinsert)

/-- A key is removed or refused in the same way. -/
theorem remove_withReserved (d : Draft) (r : Snapshot) (key : String) :
    (d.withReserved r).remove key = (d.remove key).map (·.withReserved r) := by
  unfold remove
  cases hkey : checkKey key with
  | error cause => rfl
  | ok _ =>
    have herase := Snapshot.erase_withReserved (checkKey_eq_ok_iff.1 hkey).2 d.entries r
    exact congrArg Except.ok (congrArg (Draft.mk · (d.touched.add key)) herase)

/-- All that clients see is removed in the same way. -/
theorem clear_withReserved (d : Draft) (r : Snapshot) :
    (d.withReserved r).clear = d.clear.withReserved r := by
  have hentries := d.entries.filterKeys_withReserved r
  rw [clear, keys_withReserved]
  exact congrArg (Draft.mk · (d.keys.foldl StringSet.add d.touched)) hentries

/-- Entries are put in the same way. -/
theorem putAll_withReserved (d : Draft) (r : Snapshot) (entries : List (String × Value)) :
    (d.withReserved r).putAll entries = (d.putAll entries).map (·.withReserved r) := by
  unfold putAll
  induction entries generalizing d with
  | nil => rfl
  | cons entry rest ih =>
    obtain ⟨key, value⟩ := entry
    rw [List.foldlM_cons, List.foldlM_cons]
    dsimp only
    rw [put_withReserved]
    cases d.put key value with
    | error cause => rfl
    | ok next => exact ih next

private theorem putRecord_withReserved (d : Draft) (r : Snapshot) (pair : LegacyRecord) :
    (d.withReserved r).putRecord pair = (d.putRecord pair).map (·.withReserved r) := by
  unfold putRecord
  cases pair.decode with
  | error cause => rfl
  | ok value =>
    show ((d.withReserved r).put pair.key value).mapError ImportError.store =
      ((d.put pair.key value).mapError ImportError.store).map (·.withReserved r)
    rw [put_withReserved]
    cases d.put pair.key value <;> rfl

private theorem putRecords_withReserved (d : Draft) (r : Snapshot) (pairs : List LegacyRecord) :
    (d.withReserved r).putRecords pairs =
      ((d.putRecords pairs).1.withReserved r, (d.putRecords pairs).2) := by
  unfold putRecords
  generalize (0 : Nat) = imported
  induction pairs generalizing d imported with
  | nil => rfl
  | cons pair rest ih =>
    rw [List.foldl_cons, List.foldl_cons]
    dsimp only
    rw [putRecord_withReserved]
    cases d.putRecord pair with
    | error cause => exact ih d imported
    | ok next => exact ih next (imported + 1)

end Draft

/-! ## Scripts of clients -/

/-- Whether an operation is one that clients have. -/
def EditStep.isClient : EditStep → Bool
  | isMigrated | markMigrated => false
  | _ => true

/-- Whether a script is made of operations that clients have. -/
def Script.isClient (script : Script) : Bool := script.all (·.step.isClient)

/-- An operation of a client gives the same result. -/
theorem EditStep.run_withReserved {step : EditStep} (h : step.isClient = true) (d : Draft)
    (r : Snapshot) :
    step.run (d.withReserved r) = ((step.run d).1, (step.run d).2.withReserved r) := by
  cases step with
  | get key => rw [run, run, d.get?_withReserved]
  | contains key => rw [run, run, Draft.contains, d.get?_withReserved, Draft.contains]
  | keys => rw [run, run, d.keys_withReserved]
  | put key value =>
    rw [run, run, d.put_withReserved]
    cases d.put key value <;> rfl
  | remove key =>
    rw [run, run, d.remove_withReserved]
    cases d.remove key <;> rfl
  | clear => rw [run, run, d.clear_withReserved]
  | isMigrated | markMigrated => cases h
  | abort | panic => rfl

/-- A script of a client ends in the same way with the same results. -/
theorem Script.run_withReserved {script : Script} (h : script.isClient = true) (d : Draft)
    (r : Snapshot) :
    script.run (d.withReserved r) =
      ((script.run d).1.map (·.withReserved r), (script.run d).2) := by
  have hsteps : ∀ line ∈ script, ∀ d e, e = d.withReserved r →
      (line.step.run d).1 = (line.step.run e).1 ∧
        (line.step.run e).2 = (line.step.run d).2.withReserved r := by
    rintro line hline d _ rfl
    rw [EditStep.run_withReserved (List.all_eq_true.1 h line hline)]
    exact ⟨rfl, rfl⟩
  obtain ⟨hends, hresults⟩ := run_related (R := fun d e => e = d.withReserved r)
    (fun _ _ heq _ => by rw [heq]) hsteps rfl
  have hsame := List.forall₂_eq_eq_eq ▸ hresults
  refine Prod.ext ?_ hsame.symm
  rcases hends with ⟨cause, hd, he⟩ | ⟨d', e', hd, he, rfl⟩
  · rw [hd, he]
    rfl
  · rw [hd, he]
    rfl

/-! ## Bodies of clients -/

/-- A body that does not depend on the reserved entries of its draft. -/
def EditBody.Blind (body : EditBody ν ε) : Prop :=
  ∀ d r notes, body (d.withReserved r) notes =
    ((body d notes).1.map (·.withReserved r), (body d notes).2)

/-- A step gives a blind body if it does not depend on the reserved entries. -/
theorem EditBody.blind_ofStep {step : Draft → Except ε Draft}
    (h : ∀ d r, step (d.withReserved r) = (step d).map (·.withReserved r)) :
    (EditBody.ofStep step).Blind := by
  intro d r notes
  rw [ofStep, ofStep, h]
  cases step d <;> rfl

/-- The script of a client has a blind body. -/
theorem Script.blind_body {script : Script} (h : script.isClient = true) : script.body.Blind :=
  fun d r _ => script.run_withReserved h d r

/-- An import of pairs has a blind body. -/
theorem Observed.blind_pairsBody (pairs : List LegacyRecord) : (pairsBody pairs).Blind := by
  intro d r notes
  simp only [pairsBody, d.clear_withReserved, Draft.putRecords_withReserved]
  rfl

end PrefStore
