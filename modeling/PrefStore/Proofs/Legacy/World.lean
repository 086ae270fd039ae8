import PrefStore.Disk.Visit
import PrefStore.Proofs.Fleet.Basic

/-!
# Runs of the migration among others

Any number of runs of the migration go on beside the clients of a fleet of handles. A run looks
at the published flag, then at the legacy database, writes in one or two transactions, and
deletes the legacy database if that is its verdict; anything may happen in between. If nothing
does, it is a run that does everything at once.
-/

namespace PrefStore

namespace Migration

/-- Where a run stands between its transactions. -/
inductive Stage where
  /-- The published flag was not set. -/
  | unset
  /-- It has looked at the legacy database. -/
  | found (source : LegacySource)
  /-- It could not commit its rows, of which there were so many. -/
  | unwritten (total : Nat)
  | ended (verdict : Verdict)
  /-- It has deleted the legacy database. -/
  | over

/-- Where a run stands after it tried to bring its rows in. -/
def Stage.afterRows (total : Nat) : Option MigrationNotes → Stage
  | some notes =>
    .ended (if notes.already then .already
      else ⟨.migrated ⟨total, notes.migrated, notes.failed⟩, true⟩)
  | none => .unwritten total

/-- How a run ends that has nothing left to do but to set the flag. -/
def Stage.afterFlag? : Stage → Option (Option Bool → Verdict)
  | found .missing => some afterMissing
  | unwritten total => some (afterFailure total)
  | _ => none

/-- A run of the migration through a handle. -/
structure Run where
  handle : Nat
  path : String
  stringToLong : StringSet
  stage : Stage

end Migration

open Migration

/-- A fleet, the disk with the legacy databases, and the runs that have begun. -/
structure World (β ρ : Type) where
  fleet : Fleet β ρ
  disk : Disk
  runs : List Run

/-- What happens in a world; runs are given by their numbers. -/
inductive Deed where
  /-- A handle is opened, or a client acts on one. -/
  | client
  /-- Somebody changes the disk. -/
  | disk
  /-- A run looked at the published flag. -/
  | began (run : Nat)
  /-- A run looked at the legacy database. -/
  | looked (run : Nat)
  /-- A run tried to bring its rows in. -/
  | wroteRows (run : Nat)
  /-- A run tried to set the flag on its own. -/
  | wroteFlag (run : Nat)
  /-- A run deleted the legacy database. -/
  | cleaned (run : Nat)

/-- The run that does something. -/
def Deed.run? : Deed → Option Nat
  | client | disk => none
  | began run | looked run | wroteRows run | wroteFlag run | cleaned run => some run

variable {β ρ : Type}

namespace World

/-- Moves a run on. -/
def advance (w : World β ρ) (r : Nat) (run : Run) (stage : Stage) : World β ρ :=
  { w with runs := w.runs.set r { run with stage } }

private theorem getElem?_advance {w : World β ρ} {r : Nat} {run : Run}
    (hrun : w.runs[r]? = some run) (stage : Stage) :
    (w.advance r run stage).runs[r]? = some { run with stage } := by
  obtain ⟨hlt, -⟩ := List.getElem?_eq_some_iff.1 hrun
  exact List.getElem?_set_self hlt

variable [Backend β] [Transactional β] [Connected β]

/-- A database without handles. -/
def start (d : Database) (disk : Disk) : World β ρ := ⟨.start d, disk, []⟩

/-- Moves a run on and keeps what its transaction has done. -/
def proceed (w : World β ρ) (r : Nat) (run : Run) (stage : Stage) (o : Observed β ρ) :
    World β ρ :=
  { w.advance r run stage with fleet := w.fleet.keep run.handle o }

private theorem proceed_proceed (w : World β ρ) (r : Nat) (run : Run) (stage stage' : Stage)
    (o o' : Observed β ρ) :
    (w.proceed r run stage o).proceed r { run with stage } stage' o' =
      w.proceed r run stage' o' := by
  simp [proceed, advance, Fleet.keep]

variable [Conduct ρ]

/-- What can happen in a world. A run does not look at the legacy database if the published flag
is set. -/
inductive Step (w : World β ρ) : Deed → World β ρ → Prop where
  | client {f : Fleet β ρ} (hstep : w.fleet.Step f) : Step w .client { w with fleet := f }
  | disk (disk : Disk) : Step w .disk { w with disk }
  | began {i : Nat} {o : Observed β ρ} (hhandle : w.fleet.handle? i = some o) (path : String)
      (stringToLong : StringSet) :
      Step w (.began w.runs.length)
        { w with
          runs := w.runs ++
            [⟨i, path, stringToLong, if o.store.isMigrated then .ended .already else .unset⟩] }
  | looked {r : Nat} {run : Run} {source : LegacySource} {disk : Disk}
      (hrun : w.runs[r]? = some run) (hstage : run.stage = .unset)
      (hlook : w.disk.legacySource run.path = (source, disk)) :
      Step w (.looked r) { w.advance r run (.found source) with disk }
  | wroteRows {r : Nat} {run : Run} {rows : List (Except ImportError LegacyRecord)}
      {o o' : Observed β ρ} {answer : Option MigrationNotes} (hrun : w.runs[r]? = some run)
      (hstage : run.stage = .found (.rows rows)) (hhandle : w.fleet.handle? run.handle = some o)
      (hwrite : writeRows rows run.stringToLong o = (answer, o')) :
      Step w (.wroteRows r) (w.proceed r run (.afterRows rows.length answer) o')
  | wroteFlag {r : Nat} {run : Run} {verdict : Option Bool → Verdict} {o o' : Observed β ρ}
      {answer : Option Bool} (hrun : w.runs[r]? = some run)
      (hstage : run.stage.afterFlag? = some verdict)
      (hhandle : w.fleet.handle? run.handle = some o) (hwrite : writeFlag o = (answer, o')) :
      Step w (.wroteFlag r) (w.proceed r run (.ended (verdict answer)) o')
  | cleaned {r : Nat} {run : Run} {verdict : Verdict} (hrun : w.runs[r]? = some run)
      (hstage : run.stage = .ended verdict) (hdiscard : verdict.discard = true) :
      Step w (.cleaned r) { w.advance r run .over with disk := w.disk.discard run.path }

/-- One world comes from another by what happens. -/
def Reaches : World β ρ → World β ρ → Prop :=
  Relation.ReflTransGen fun w w' => ∃ deed, w.Step deed w'

/-- What a client does through a handle can happen in a world. -/
theorem reaches_operation {w : World β ρ} {i : Nat} {o o' : Observed β ρ}
    (hhandle : w.fleet.handle? i = some o) (h : o.Operation o') :
    w.Reaches { w with fleet := w.fleet.keep i o' } := by
  have hreaches := Fleet.reaches_of_acts hhandle h.acts
  refine Relation.ReflTransGen.lift (fun fleet => { w with fleet }) ?_ _ _ hreaches
  intro f g hstep
  exact ⟨.client, .client hstep⟩

/-- A run that is left alone after it looked at the legacy database ends as it does at once. -/
theorem reaches_finish {w : World β ρ} {r : Nat} {run : Run} {source : LegacySource}
    {o : Observed β ρ} (hrun : w.runs[r]? = some run) (hstage : run.stage = .found source)
    (hhandle : w.fleet.handle? run.handle = some o) :
    w.Reaches (w.proceed r run (.ended (finish source run.stringToLong o).1)
      (finish source run.stringToLong o).2) := by
  cases source with
  | missing =>
    have hflag : run.stage.afterFlag? = some afterMissing := by
      rw [hstage]
      rfl
    exact .single ⟨_, .wroteFlag hrun hflag hhandle rfl⟩
  | rows rows =>
    cases hwrite : writeRows rows run.stringToLong o with
    | mk answer o' =>
      have hwrote := Step.wroteRows hrun hstage hhandle hwrite
      cases answer with
      | some notes =>
        rw [Stage.afterRows] at hwrote
        simp only [finish, hwrite]
        cases hnoted : notes.already with
        | true =>
          rw [hnoted] at hwrote
          exact .single ⟨_, hwrote⟩
        | false =>
          rw [hnoted] at hwrote
          exact .single ⟨_, hwrote⟩
      | none =>
        have hmoved := getElem?_advance hrun (.unwritten rows.length)
        have hkept := Fleet.handle?_keep_self hhandle o'
        have hflagged := Step.wroteFlag (w := w.proceed r run (.unwritten rows.length) o')
          hmoved rfl hkept rfl
        rw [proceed_proceed] at hflagged
        simp only [finish, hwrite]
        exact .tail (.single ⟨_, hwrote⟩) ⟨_, hflagged⟩

/-- A run that is left alone does what a run does at once, and ends with the same verdict. -/
theorem reaches_run {w : World β ρ} {i : Nat} {o : Observed β ρ}
    (hhandle : w.fleet.handle? i = some o) {path : String} {source : LegacySource} {disk : Disk}
    (hlook : w.disk.legacySource path = (source, disk)) (stringToLong : StringSet) :
    ∃ w', w.Reaches w' ∧
      w'.fleet.handle? i = some (Migration.run source stringToLong o).2 ∧
      w'.runs[w.runs.length]? =
        some ⟨i, path, stringToLong, .ended (Migration.run source stringToLong o).1⟩ := by
  have hbegan := Step.began hhandle path stringToLong
  unfold Migration.run
  by_cases hset : o.store.isMigrated = true
  · rw [if_pos hset] at hbegan ⊢
    exact ⟨_, .single ⟨_, hbegan⟩, hhandle, List.getElem?_concat_length⟩
  · rw [if_neg hset] at hbegan ⊢
    let run : Run := ⟨i, path, stringToLong, .unset⟩
    let begun : World β ρ := { w with runs := w.runs ++ [run] }
    have hlast : begun.runs[w.runs.length]? = some run := List.getElem?_concat_length
    have hlooked := Step.looked hlast rfl hlook
    have hmoved := getElem?_advance hlast (.found source)
    have hfinish := reaches_finish
      (w := { begun.advance w.runs.length run (.found source) with disk }) hmoved rfl hhandle
    refine ⟨_, .trans (.tail (.single ⟨_, hbegan⟩) ⟨_, hlooked⟩) hfinish, ?_, ?_⟩
    · exact Fleet.handle?_keep_self hhandle _
    · exact getElem?_advance hmoved _

end World

end PrefStore
