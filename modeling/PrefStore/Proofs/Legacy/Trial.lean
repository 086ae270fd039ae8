import PrefStore.Proofs.Store.Trial
import PrefStore.Workspace

/-!
# Operations after a trial

A migration counts its rows and looks at the flag anew in each run of its edits. So over a backend
that puts every transaction to a trial first, a migration has the same outcome with the same
counts, and the legacy database meets the same fate; and every other operation comes to the same
as well.
-/

namespace PrefStore

variable {β ρ ν ε : Type}

namespace Migration

private theorem repeatable_rowsBody (rows : List (Except ImportError LegacyRecord))
    (stringToLong : StringSet) : (rowsBody rows stringToLong).Repeatable :=
  fun _ _ _ _ hrun => hrun

private theorem repeatable_flagBody : flagBody.Repeatable :=
  fun _ _ _ _ hrun => hrun

variable [Backend β] [Conduct ρ] {change : β → β} (h : Interchangeable change)

include h

/-- Bringing rows in does not tell backends apart. -/
theorem indifferent_writeRows (rows : List (Except ImportError LegacyRecord))
    (stringToLong : StringSet) :
    Observed.Indifferent (ρ := ρ) change (writeRows rows stringToLong) := by
  intro o
  unfold writeRows
  rw [Observed.edit_onto h (repeatable_rowsBody rows stringToLong)]
  generalize o.edit (rowsBody rows stringToLong) ⟨0, 0, false⟩ = ended
  obtain ⟨outcome, notes, o⟩ := ended
  cases outcome <;> rfl

/-- Setting the flag does not tell backends apart. -/
theorem indifferent_writeFlag : Observed.Indifferent (ρ := ρ) change writeFlag := by
  intro o
  unfold writeFlag
  rw [Observed.edit_onto h repeatable_flagBody]
  generalize o.edit flagBody false = ended
  obtain ⟨outcome, already, o⟩ := ended
  cases outcome <;> rfl

/-- The part of a run that writes does not tell backends apart. -/
theorem indifferent_finish (source : LegacySource) (stringToLong : StringSet) :
    Observed.Indifferent (ρ := ρ) change (finish source stringToLong) := by
  intro o
  cases source with
  | missing => simp only [finish, indifferent_writeFlag h o]
  | rows rows =>
    have hrows := indifferent_writeRows h rows stringToLong o
    unfold finish
    dsimp only
    rw [hrows]
    generalize writeRows rows stringToLong o = written
    obtain ⟨noted, o⟩ := written
    cases noted with
    | none => simp only [indifferent_writeFlag h o]
    | some notes =>
      dsimp only
      split <;> rfl

/-- A run does not tell backends apart. -/
theorem indifferent_run (source : LegacySource) (stringToLong : StringSet) :
    Observed.Indifferent (ρ := ρ) change (run source stringToLong) := by
  intro o
  unfold run
  have hpublished : (o.onto change).store.isMigrated = o.store.isMigrated := rfl
  rw [hpublished]
  split
  · rfl
  · exact indifferent_finish h source stringToLong o

end Migration

namespace Workspace

/-- The workspace whose faulty backends put transactions to a trial first, or do not. -/
def trying (w : Workspace) (twice : Bool) : Workspace :=
  { w with stores := w.stores.map fun entry =>
      { entry with observed := entry.observed.onto (Engine.trying twice) } }

private theorem observed?_trying (w : Workspace) (twice : Bool) (store : Nat) :
    (w.trying twice).observed? store =
      (w.observed? store).map (·.onto (Engine.trying twice)) := by
  unfold observed? trying
  rw [List.getElem?_map]
  cases w.stores[store]? with
  | none => rfl
  | some entry =>
    obtain ⟨⟨⟨engine, published, listeners⟩, conduct, calls⟩, database, place⟩ := entry
    cases engine with
    | memory b => rfl
    | faulty b => rfl
    | table c =>
      simp only [Option.map_some, bind, Option.bind, Observed.onto, Engine.trying, pure]
      split <;> rfl

private theorem keep_trying (w : Workspace) (twice : Bool) (store : Nat)
    (o : Observed Engine Rulebook) :
    (w.trying twice).keep store (o.onto (Engine.trying twice)) =
      (w.keep store o).trying twice := by
  unfold keep trying
  rw [List.getElem?_map]
  cases w.stores[store]? with
  | none => rfl
  | some entry =>
    obtain ⟨⟨engine, published, listeners⟩, conduct, calls⟩ := o
    simp only [Option.map_some, List.map_set]
    cases engine <;> cases entry.database <;> rfl

private theorem onHandle_trying {α : Type} (w : Workspace) (name : String) (twice : Bool)
    {operation : Observed Engine Rulebook → α × Observed Engine Rulebook}
    (h : Observed.Indifferent (Engine.trying twice) operation) :
    (w.trying twice).onHandle name operation =
      (w.onHandle name operation).map fun (answer, events, w) =>
        (answer, events, w.trying twice) := by
  have hhandle : (w.trying twice).handle? name = w.handle? name := rfl
  unfold onHandle
  rw [hhandle]
  cases w.handle? name with
  | none => rfl
  | some store =>
    simp only [bind, Option.bind, observed?_trying]
    cases w.observed? store with
    | none => rfl
    | some o =>
      simp only [Option.map_some, h o, keep_trying]
      rfl

/-- A migration comes to the same, and so does the legacy database on the disk. -/
theorem migrate_trying (w : Workspace) (name path : String) (stringToLong : StringSet)
    (twice : Bool) : (w.trying twice).migrate name path stringToLong =
      (w.migrate name path stringToLong).map fun (outcome, events, w) =>
        (outcome, events, w.trying twice) := by
  have hhandle : (w.trying twice).handle? name = w.handle? name := rfl
  unfold migrate
  rw [hhandle]
  cases w.handle? name with
  | none => rfl
  | some store =>
    simp only [bind, Option.bind, observed?_trying]
    cases w.observed? store with
    | none => rfl
    | some o =>
      have hpublished : (o.onto (Engine.trying twice)).store.isMigrated = o.store.isMigrated := rfl
      have hdisk : (w.trying twice).disk = w.disk := rfl
      simp only [Option.map_some, hpublished, hdisk]
      generalize (if o.store.isMigrated then (LegacySource.missing, w.disk)
        else w.disk.legacySource path) = read
      obtain ⟨source, disk⟩ := read
      have hrun := Migration.indifferent_run (ρ := Rulebook) (Engine.interchangeable_trying twice)
        source stringToLong
      have hmoved : { w.trying twice with disk } = trying { w with disk } twice := rfl
      dsimp only
      rw [hmoved, onHandle_trying _ _ _ hrun]
      generalize onHandle { w with disk } name (Migration.run source stringToLong) = ran
      cases ran <;> rfl

end Workspace

open Observed

/-- An operation on a store over a faulty backend to which trials make no difference: with them
and without it has the same answer, and leaves the same contents, with the same faults to come,
the same published snapshot, and the same listeners, called alike. -/
def Observed.TrialFree {α : Type}
    (operation : Observed (Faulty β) ρ → α × Observed (Faulty β) ρ) : Prop :=
  ∀ twice, Indifferent (fun f : Faulty β => f.trying twice) operation

/-- It is of no account whether a backend puts every transaction to a trial first. Whatever its
contents, the faults to come and the listeners, trials make no difference to an edit whose body
repeats itself, to any operation of a client, nor to a migration, its outcome and its counts. The
disk with the legacy database is the same after a migration, too. -/
theorem trials_make_no_difference [Backend β] [Plain β] [Conduct ρ] :
    (∀ {ν ε : Type} [IncludesStore ε] {body : EditBody ν ε}, body.Repeatable → ∀ notes,
      TrialFree (β := β) (ρ := ρ) fun o =>
        let (outcome, notes, o) := o.edit body notes
        ((outcome, notes), o)) ∧
    (∀ key value, TrialFree (β := β) (ρ := ρ) (·.set key value)) ∧
    (∀ key value, TrialFree (β := β) (ρ := ρ) (·.put key value)) ∧
    (∀ key, TrialFree (β := β) (ρ := ρ) (·.remove key)) ∧
    TrialFree (β := β) (ρ := ρ) (·.reset) ∧
    (∀ script, TrialFree (β := β) (ρ := ρ) fun o =>
      let (outcome, results, o) := o.runScript script
      ((outcome, results), o)) ∧
    (∀ document, TrialFree (β := β) (ρ := ρ) (·.importDocument document)) ∧
    (∀ json, TrialFree (β := β) (ρ := ρ) (·.importJson json)) ∧
    (∀ pairs, TrialFree (β := β) (ρ := ρ) (·.importPairs pairs)) ∧
    (∀ source stringToLong, TrialFree (β := β) (ρ := ρ) (Migration.run source stringToLong)) ∧
    ∀ (w : Workspace) (name path : String) (stringToLong : StringSet) (twice : Bool),
      (w.trying twice).migrate name path stringToLong =
        (w.migrate name path stringToLong).map fun (outcome, events, w) =>
          (outcome, events, w.trying twice) := by
  have h (twice : Bool) : Interchangeable fun f : Faulty β => f.trying twice :=
    Faulty.interchangeable_trying twice
  have hedit {ν ε : Type} [IncludesStore ε] {body : EditBody ν ε} (hbody : body.Repeatable)
      (notes : ν) : TrialFree (β := β) (ρ := ρ) fun o =>
        let (outcome, notes, o) := o.edit body notes
        ((outcome, notes), o) := by
    intro twice o
    simp only [edit_onto (h twice) hbody]
  refine ⟨hedit, fun key value twice => ?_, fun key value twice => ?_, fun key twice => ?_,
    fun twice => ?_, fun script => hedit script.repeatable_body [], fun document twice => ?_,
    fun json twice => ?_, fun pairs twice => ?_, fun source stringToLong twice => ?_, ?_⟩
  · exact indifferent_put (h twice) key (some value)
  · exact indifferent_put (h twice) key value
  · exact indifferent_put (h twice) key none
  · exact indifferent_editStep (h twice) fun draft => .ok draft.clear
  · exact indifferent_importDocument (h twice) document
  · exact indifferent_importJson (h twice) json
  · exact indifferent_importPairs (h twice) pairs
  · exact Migration.indifferent_run (h twice) source stringToLong
  · exact fun w name path stringToLong twice => w.migrate_trying name path stringToLong twice

/-- Of three rows two come into a store that puts its transactions to a trial, and they are counted
once; a listener that is called for one of them writes back. Where the first commit fails all rows
count as failed, and where the second one fails too the legacy database is kept. -/
theorem rows_are_counted_once_after_trials :
    let rows : List (Except ImportError LegacyRecord) := [
      .ok { key := "a", typeCode := 3, long := some 5 }, .error .legacy,
      .ok { key := "b", typeCode := 0, boolean := some true }]
    let book : Rulebook := ⟨Dict.empty, [], [⟨0, "a", .set "c" (.int 2), false⟩]⟩
    let store (commits : List Nat) : Observed (Faulty Memory) Rulebook :=
      ⟨⟨{ inner := ⟨Dict.empty⟩, failCommit := commits }, Dict.empty, ⟨1, [0]⟩⟩, book, []⟩
    let run (commits : List Nat) := Migration.run (.rows rows) Dict.empty
      ((store commits).onto (fun f : Faulty Memory => f.trying true))
    (run []).1 = ⟨.migrated ⟨3, 2, 1⟩, true⟩ ∧
      (run []).2.calls.map (fun call => (call.depth, call.key)) = [(0, "a"), (1, "c"), (0, "b")] ∧
      (run [1]).1 = ⟨.migrated ⟨3, 0, 3⟩, true⟩ ∧
      (run [1, 2]).1 = ⟨.migrated ⟨3, 0, 3⟩, false⟩ := by
  intro rows book store run
  obtain ⟨-, -, -, -, -, -, -, -, -, hrun, -⟩ :=
    trials_make_no_difference (β := Memory) (ρ := Rulebook)
  have hrun (commits : List Nat) := hrun (.rows rows) Dict.empty true (store commits)
  refine ⟨?_, ?_, ?_, ?_⟩
  · rw [show run [] = _ from hrun []]
    rfl
  · rw [show run [] = _ from hrun []]
    rfl
  · rw [show run [1] = _ from hrun [1]]
    rfl
  · rw [show run [1, 2] = _ from hrun [1, 2]]
    rfl

/-- A body that goes on counting where its last run ended is found out by a trial. -/
example :
    let store : Observed (Faulty Memory) Unit :=
      ⟨⟨{ inner := ⟨Dict.empty⟩ }, Dict.empty, .empty⟩, (), []⟩
    let body : EditBody Nat StoreError := fun draft count => (.ok draft, count + 1)
    (store.edit body 0).2.1 = 1 ∧
      ((store.onto fun f : Faulty Memory => f.trying true).edit body 0).2.1 = 2 :=
  ⟨rfl, rfl⟩

end PrefStore
