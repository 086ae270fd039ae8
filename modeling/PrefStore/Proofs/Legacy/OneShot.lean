import PrefStore.Proofs.Disk.Removal
import PrefStore.Proofs.Legacy.Transactions
import PrefStore.Proofs.Legacy.World

/-!
# A migration happens once

Whatever a run of the migration does leaves the contents and the calls of listeners as they are,
unless it sets the flag, and nothing unsets it. A history lists what happened. The flag is set
by at most one of its moments, and only the run whose moment that was has brought rows in or
deletes the legacy database. What the other runs do takes nothing from the disk, but that the engine
removes the log beside an empty legacy file when a run looks at it.
-/

namespace PrefStore

open Migration

namespace Migration

private theorem Stage.already_of_afterRows {total : Nat} {answer : Option MigrationNotes}
    {verdict : Verdict} (h : Stage.afterRows total answer = .ended verdict)
    (hdiscard : verdict.discard = true) :
    ∃ notes, answer = some notes ∧ notes.already = false := by
  cases answer with
  | none => cases h
  | some notes =>
    refine ⟨notes, rfl, ?_⟩
    cases hnoted : notes.already with
    | false => rfl
    | true =>
      rw [afterRows, if_pos hnoted] at h
      cases h
      cases hdiscard

private theorem Stage.already_of_afterFlag? {stage : Stage} {verdict : Option Bool → Verdict}
    (h : stage.afterFlag? = some verdict) {answer : Option Bool}
    (hdiscard : (verdict answer).discard = true) : answer = some false := by
  unfold afterFlag? at h
  split at h
  · cases h
    cases answer with
    | none => cases hdiscard
    | some already => cases already <;> cases hdiscard
  · cases h
    cases answer with
    | none => cases hdiscard
    | some already => cases already with
      | false => rfl
      | true => cases hdiscard
  · cases h

end Migration

variable {β ρ : Type}

namespace World

private theorem runs_advance {w : World β ρ} {r r' : Nat} {run run' : Run} {stage : Stage}
    (h : (w.advance r run stage).runs[r']? = some run') :
    r = r' ∧ run'.stage = stage ∨ w.runs[r']? = some run' := by
  rw [advance, List.getElem?_set] at h
  split at h
  · next heq =>
    split at h
    · cases h
      exact .inl ⟨heq, rfl⟩
    · cases h
  · exact .inr h

/-- Whether a run is going to delete its legacy database. -/
def Discards (w : World β ρ) (r : Nat) : Prop :=
  ∃ run verdict, w.runs[r]? = some run ∧ run.stage = .ended verdict ∧ verdict.discard = true

private theorem discards_advance {w : World β ρ} {r r' : Nat} {run : Run} {stage : Stage}
    (h : (w.advance r run stage).Discards r') :
    (r = r' ∧ ∃ verdict, stage = .ended verdict ∧ verdict.discard = true) ∨ w.Discards r' := by
  obtain ⟨run', verdict, hget, hended, hdiscard⟩ := h
  rcases runs_advance hget with ⟨heq, hstage⟩ | hkept
  · exact .inl ⟨heq, verdict, hstage.symm.trans hended, hdiscard⟩
  · exact .inr ⟨run', verdict, hkept, hended, hdiscard⟩

end World

variable [Backend β] [Transactional β] [Connected β]

/-- No step of a fleet unsets the flag. -/
theorem Fleet.Step.isMigrated {f g : Fleet β ρ} (h : f.Step g)
    (hflag : f.contents.isMigrated = true) : g.contents.isMigrated = true := by
  cases h with
  | opens hopen conduct =>
    rw [contents_add hopen]
    exact hflag
  | acts hhandle hact =>
    rw [← contents_of_handle? hhandle] at hflag
    rw [contents_keep]
    exact hact.isMigrated hflag

namespace World

/-- Whether the flag is committed. -/
def flagged (w : World β ρ) : Bool := w.fleet.contents.isMigrated

/-- The calls of the listeners of each handle. -/
def calls (w : World β ρ) : List (List Call) := w.fleet.handles.map (·.calls)

/-- Two worlds with the same contents and the same calls. -/
def Same (w w' : World β ρ) : Prop :=
  w'.fleet.contents = w.fleet.contents ∧ w'.calls = w.calls

/-- The flag is set in the later of two worlds only. -/
def Sets (w w' : World β ρ) : Prop := w.flagged = false ∧ w'.flagged = true

private theorem calls_proceed {w : World β ρ} {r : Nat} {run : Run} {o o' : Observed β ρ}
    (hhandle : w.fleet.handle? run.handle = some o) (hcalls : o'.calls = o.calls)
    (stage : Stage) : (w.proceed r run stage o').calls = w.calls := by
  obtain ⟨stored, hstored, rfl⟩ := Option.map_eq_some_iff.1 hhandle
  have hmap : (w.fleet.handles.map (·.calls))[run.handle]? = some o'.calls := by
    rw [List.getElem?_map, hstored, Option.map_some, hcalls]
    rfl
  obtain ⟨hlt, hget⟩ := List.getElem?_eq_some_iff.1 hmap
  rw [calls, proceed, Fleet.keep, List.map_set, ← hget]
  exact List.set_getElem_self hlt

private theorem sets_proceed {w : World β ρ} {r : Nat} {run : Run} {o o' : Observed β ρ}
    (hhandle : w.fleet.handle? run.handle = some o) (stage : Stage)
    (hunset : o.store.contents.isMigrated = false) (hset : o'.store.contents.isMigrated = true) :
    w.Sets (w.proceed r run stage o') := by
  rw [Fleet.contents_of_handle? hhandle] at hunset
  rw [← w.fleet.contents_keep run.handle o'] at hset
  exact ⟨hunset, hset⟩

private theorem proceed_same_or_sets {w : World β ρ} {r : Nat} {run : Run} {o o' : Observed β ρ}
    (hhandle : w.fleet.handle? run.handle = some o) (stage : Stage)
    (h : o.Same o' ∨
      o.store.contents.isMigrated = false ∧ o'.store.contents.isMigrated = true) :
    w.Same (w.proceed r run stage o') ∨ w.Sets (w.proceed r run stage o') := by
  have hbefore := Fleet.contents_of_handle? hhandle
  have hafter := w.fleet.contents_keep run.handle o'
  rcases h with ⟨hcontents, hcalls⟩ | ⟨hunset, hset⟩
  · left
    refine ⟨?_, calls_proceed hhandle hcalls stage⟩
    rw [← hbefore, ← hcontents]
    exact hafter
  · exact .inr (sets_proceed hhandle stage hunset hset)

variable [Conduct ρ]

/-- What a run does leaves a world alone, unless it sets the flag. -/
theorem Step.same_or_sets {w w' : World β ρ} {deed : Deed} (h : w.Step deed w') {r : Nat}
    (hrun : deed.run? = some r) : w.Same w' ∨ w.Sets w' := by
  cases h with
  | client | disk => cases hrun
  | began | looked | cleaned => exact .inl ⟨rfl, rfl⟩
  | @wroteRows _ _ rows _ _ _ _ _ hhandle hwrite =>
    obtain ⟨outcome, notes, hedit, -⟩ := writeRows_eq hwrite
    exact proceed_same_or_sets hhandle _ ((rowsEdit_marks rows _).same_or_sets hedit)
  | wroteFlag _ _ hhandle hwrite =>
    obtain ⟨outcome, notes, hedit, -⟩ := writeFlag_eq hwrite
    exact proceed_same_or_sets hhandle _ (flagEdit_marks.same_or_sets hedit)

/-- Nothing that happens unsets the flag. -/
theorem Step.flagged {w w' : World β ρ} {deed : Deed} (h : w.Step deed w')
    (hflag : w.flagged = true) : w'.flagged = true := by
  cases hrun : deed.run? with
  | some r =>
    rcases h.same_or_sets hrun with ⟨hcontents, -⟩ | ⟨hunset, -⟩
    · rw [World.flagged, hcontents]
      exact hflag
    · rw [hflag] at hunset
      cases hunset
  | none =>
    cases h with
    | client hstep => exact hstep.isMigrated hflag
    | disk => exact hflag
    | began | looked | wroteRows | wroteFlag | cleaned => cases hrun

/-- A run that is going to delete its legacy database was so before or has just set the flag. -/
theorem Step.discards {w w' : World β ρ} {deed : Deed} (h : w.Step deed w') {r : Nat}
    (hdiscards : w'.Discards r) : w.Discards r ∨ deed.run? = some r ∧ w.Sets w' := by
  cases h with
  | client | disk => exact .inl hdiscards
  | began hhandle path stringToLong =>
    obtain ⟨run, verdict, hget, hended, hdiscard⟩ := hdiscards
    rw [List.getElem?_append] at hget
    split at hget
    · exact .inl ⟨run, verdict, hget, hended, hdiscard⟩
    · obtain rfl := List.mem_singleton.1 (List.mem_of_getElem? hget)
      dsimp only at hended
      split at hended
      · cases hended
        cases hdiscard
      · cases hended
  | looked | cleaned =>
    rcases discards_advance hdiscards with ⟨-, _, hended, -⟩ | hbefore
    · cases hended
    · exact .inl hbefore
  | @wroteRows _ _ rows _ _ _ _ _ hhandle hwrite =>
    rcases discards_advance hdiscards with ⟨rfl, _, hended, hdiscard⟩ | hbefore
    · obtain ⟨notes, rfl, hnew⟩ := Stage.already_of_afterRows hended hdiscard
      obtain ⟨hnoted, hset⟩ := isMigrated_of_writeRows hwrite
      exact .inr ⟨rfl, sets_proceed hhandle _ (hnoted.symm.trans hnew) hset⟩
    · exact .inl hbefore
  | wroteFlag _ hstage hhandle hwrite =>
    rcases discards_advance hdiscards with ⟨rfl, _, hended, hdiscard⟩ | hbefore
    · cases hended
      obtain rfl := Stage.already_of_afterFlag? hstage hdiscard
      obtain ⟨hnoted, hset⟩ := isMigrated_of_writeFlag hwrite
      exact .inr ⟨rfl, sets_proceed hhandle _ hnoted.symm hset⟩
    · exact .inl hbefore

/-- What a run does takes nothing from the disk, unless it looks at an empty legacy file beside
which a log is left, or deletes its legacy database. -/
theorem Step.losesOnly {w w' : World β ρ} {deed : Deed} (h : w.Step deed w') {r : Nat}
    (hrun : deed.run? = some r) (hkeeps : deed ≠ .cleaned r) :
    w.disk.LosesOnly (fun place => deed = .looked r ∧
      ∃ run, w.runs[r]? = some run ∧ w.disk.IsStaleLog run.path place) w'.disk := by
  cases h with
  | client | disk => cases hrun
  | began | wroteRows | wroteFlag => exact .refl w.disk _
  | @looked r' run source disk hget _ hlook =>
    cases hrun
    have hloses := w.disk.losesOnly_legacySource run.path
    rw [hlook] at hloses
    exact hloses.mono fun place hstale => ⟨rfl, run, hget, hstale⟩
  | cleaned =>
    cases hrun
    exact absurd rfl hkeeps

end World

variable [Conduct ρ]

/-- Something that happened, with the worlds before and after. -/
structure Moment (β ρ : Type) [Backend β] [Transactional β] [Connected β] [Conduct ρ] where
  before : World β ρ
  deed : Deed
  after : World β ρ
  step : before.Step deed after

/-- Whether the flag is set by what happened. -/
def Moment.sets (m : Moment β ρ) : Bool := !m.before.flagged && m.after.flagged

/-- The flag is set by what happened if it is set in the world after it only. -/
theorem Moment.sets_iff {m : Moment β ρ} : m.sets = true ↔ m.before.Sets m.after := by
  simp [sets, World.Sets]

/-- A history lists what happened since a database was alone, the oldest first. -/
inductive History (d : Database) (disk : Disk) : List (Moment β ρ) → World β ρ → Prop where
  | nil : History d disk [] (.start d disk)
  | snoc {moments : List (Moment β ρ)} {w w' : World β ρ} {deed : Deed}
      (history : History d disk moments w) (step : w.Step deed w') :
      History d disk (moments ++ [⟨w, deed, w', step⟩]) w'

namespace History

variable {d : Database} {disk : Disk} {moments : List (Moment β ρ)} {w : World β ρ}

/-- A flag that was set at any moment is set now. -/
theorem flagged (h : History d disk moments w) {m : Moment β ρ} (hmem : m ∈ moments)
    (hflag : m.after.flagged = true) : w.flagged = true := by
  induction h with
  | nil => cases hmem
  | snoc history step ih =>
    rcases List.mem_append.1 hmem with hearlier | hlast
    · exact step.flagged (ih hearlier)
    · obtain rfl := List.mem_singleton.1 hlast
      exact hflag

/-- At most one moment set the flag. -/
theorem length_sets (h : History d disk moments w) :
    (moments.filter Moment.sets).length ≤ 1 := by
  induction h with
  | nil => exact Nat.zero_le 1
  | @snoc moments w w' deed history step ih =>
    rw [List.filter_append]
    cases hsets : (Moment.mk w deed w' step).sets with
    | false =>
      rw [List.filter_cons_of_neg (by simp [hsets]), List.filter_nil, List.append_nil]
      exact ih
    | true =>
      have hunset : w.flagged = false := (Moment.sets_iff.1 hsets).1
      have hnone : moments.filter Moment.sets = [] := by
        rw [List.filter_eq_nil_iff]
        intro m hmem hset
        have hflag := history.flagged hmem (Moment.sets_iff.1 hset).2
        rw [hunset] at hflag
        cases hflag
      rw [hnone]
      exact List.length_filter_le _ _

/-- A run that is going to delete its legacy database has set the flag. -/
theorem sets_of_discards (h : History d disk moments w) {r : Nat} (hdiscards : w.Discards r) :
    ∃ m ∈ moments, m.deed.run? = some r ∧ m.sets = true := by
  induction h with
  | nil =>
    obtain ⟨run, verdict, hget, -⟩ := hdiscards
    cases hget
  | snoc history step ih =>
    rcases step.discards hdiscards with hbefore | ⟨hrun, hsets⟩
    · obtain ⟨m, hmem, hm⟩ := ih hbefore
      exact ⟨m, List.mem_append_left _ hmem, hm⟩
    · exact ⟨_, List.mem_append_right _ (List.mem_singleton_self _), hrun,
        Moment.sets_iff.2 hsets⟩

/-- Moments that set the flag are one. -/
theorem eq_of_sets (h : History d disk moments w) {m m' : Moment β ρ} (hmem : m ∈ moments)
    (hsets : m.sets = true) (hmem' : m' ∈ moments) (hsets' : m'.sets = true) : m = m' := by
  have hlength := h.length_sets
  have hfound : m ∈ moments.filter Moment.sets := List.mem_filter.2 ⟨hmem, hsets⟩
  have hfound' : m' ∈ moments.filter Moment.sets := List.mem_filter.2 ⟨hmem', hsets'⟩
  generalize moments.filter Moment.sets = setting at hlength hfound hfound'
  match setting with
  | [] => cases hfound
  | [_] => rw [List.mem_singleton.1 hfound, List.mem_singleton.1 hfound']
  | _ :: _ :: _ => simp at hlength

/-- What happened before a moment is a history that leads to it. -/
theorem before (h : History d disk moments w) {earlier later : List (Moment β ρ)}
    {m : Moment β ρ} (hmoments : moments = earlier ++ m :: later) :
    History d disk earlier m.before := by
  induction h generalizing later with
  | nil => simp at hmoments
  | snoc history step ih =>
    rcases List.eq_nil_or_concat later with rfl | ⟨rest, last, rfl⟩
    · obtain ⟨rfl, hlast⟩ := List.append_inj' hmoments rfl
      cases hlast
      exact history
    · rw [List.concat_eq_append, ← List.cons_append, ← List.append_assoc] at hmoments
      exact ih (List.append_inj' hmoments rfl).1

/-- A run that deletes its legacy database has set the flag before, and deletes what the paths of
the database and of its companions lead to. -/
theorem deletes (h : History d disk moments w) {earlier later : List (Moment β ρ)} {m : Moment β ρ}
    {r : Nat} (hmoments : moments = earlier ++ m :: later) (hdeed : m.deed = .cleaned r) :
    (∃ m' ∈ earlier, m'.deed.run? = some r ∧ m'.sets = true) ∧
      ∃ run, m.before.runs[r]? = some run ∧
        m.before.disk.Drops (Disk.databasePaths run.path) m.after.disk := by
  obtain ⟨before, deed, after, step⟩ := m
  obtain rfl : deed = .cleaned r := hdeed
  have history := h.before hmoments
  cases step with
  | cleaned hrun hstage hdiscard =>
    exact ⟨history.sets_of_discards ⟨_, _, hrun, hstage, hdiscard⟩, _, hrun,
      Disk.drops_discard _ _⟩

/-- At most one run deletes its legacy database. -/
theorem eq_of_deletes (h : History d disk moments w) {m m' : Moment β ρ} {r r' : Nat}
    (hmem : m ∈ moments) (hdeed : m.deed = .cleaned r) (hmem' : m' ∈ moments)
    (hdeed' : m'.deed = .cleaned r') : r = r' := by
  have hset {m : Moment β ρ} {r : Nat} (hmem : m ∈ moments) (hdeed : m.deed = .cleaned r) :
      ∃ s ∈ moments, s.deed.run? = some r ∧ s.sets = true := by
    obtain ⟨earlier, later, hmoments⟩ := List.append_of_mem hmem
    obtain ⟨⟨s, hs, hrun, hsets⟩, -⟩ := h.deletes hmoments hdeed
    rw [hmoments]
    exact ⟨s, List.mem_append_left _ hs, hrun, hsets⟩
  obtain ⟨s, hs, hrun, hsets⟩ := hset hmem hdeed
  obtain ⟨s', hs', hrun', hsets'⟩ := hset hmem' hdeed'
  rw [h.eq_of_sets hs hsets hs' hsets', hrun', Option.some.injEq] at hrun
  exact hrun.symm

/-- A migration happens once, whatever handles and runs there are, in whatever order they do
what they do and whatever fails. A flag that is set stays set. One moment at most sets it. Each
deed of a run leaves the contents and the calls of all listeners as they were, unless it is the
one that sets the flag; so no run does anything under a set flag. A run that deletes its legacy
database has set the flag itself before, no other run deletes one, and what goes from the disk is
what the paths of the database, its log, its index and its journal lead to. Nothing else that a run
does takes anything from the disk, but that a log is removed that is left beside an empty legacy
file which a run looks at. -/
theorem migration_happens_once (h : History d disk moments w) :
    (∀ m ∈ moments, (m.before.flagged = true → m.after.flagged = true) ∧
      (m.after.flagged = true → w.flagged = true)) ∧
    (moments.filter Moment.sets).length ≤ 1 ∧
    (∀ m ∈ moments, ∀ r, m.deed.run? = some r →
      (m.before.Same m.after ∨ m.sets = true) ∧
      (m.before.flagged = true → m.before.Same m.after)) ∧
    (∀ earlier m later r, moments = earlier ++ m :: later → m.deed = .cleaned r →
      (∃ m' ∈ earlier, m'.deed.run? = some r ∧ m'.sets = true) ∧
      ∃ run, m.before.runs[r]? = some run ∧
        m.before.disk.Drops (Disk.databasePaths run.path) m.after.disk) ∧
    (∀ m ∈ moments, ∀ m' ∈ moments, ∀ r r', m.deed = .cleaned r → m'.deed = .cleaned r' →
      r = r') ∧
    ∀ m ∈ moments, ∀ r, m.deed.run? = some r → m.deed ≠ .cleaned r →
      m.before.disk.LosesOnly (fun place => m.deed = .looked r ∧
        ∃ run, m.before.runs[r]? = some run ∧ m.before.disk.IsStaleLog run.path place)
        m.after.disk := by
  refine ⟨?_, h.length_sets, ?_, ?_, ?_, ?_⟩
  · intro m hmem
    exact ⟨m.step.flagged, h.flagged hmem⟩
  · intro m _ r hrun
    rcases m.step.same_or_sets hrun with hsame | hsets
    · exact ⟨.inl hsame, fun _ => hsame⟩
    · refine ⟨.inr (Moment.sets_iff.2 hsets), fun hflag => ?_⟩
      rw [hsets.1] at hflag
      cases hflag
  · intro earlier m later r hmoments hdeed
    exact h.deletes hmoments hdeed
  · intro m hmem m' hmem' r r' hdeed hdeed'
    exact h.eq_of_deletes hmem hdeed hmem' hdeed'
  · intro m _ r hrun hkeeps
    exact m.step.losesOnly hrun hkeeps

/-- Two runs look at one legacy database before either writes. The first one loses its commit,
the second one brings the rows in, the first one finds the flag set, and the second one deletes the
legacy database. -/
theorem two_runs_migrate_once :
    let disk := ((Disk.ofDirectories []).createLegacy "/old" [.ofValue "a" (.boolean true)]).2
    ∃ (moments : List (Moment (Faulty Connection) Unit)) (w : World (Faulty Connection) Unit),
      History {} disk moments w ∧
      moments.map (·.deed) = [.client, .client, .began 0, .began 1, .looked 0, .looked 1,
        .wroteRows 0, .wroteRows 1, .wroteFlag 0, .cleaned 1] ∧
      w.flagged = true ∧ (moments.filter Moment.sets).length ≤ 1 ∧
      (∃ m ∈ moments.dropLast, m.deed.run? = some 1 ∧ m.sets = true) ∧
      disk.node? ["old"] = some (.database 0) ∧ w.disk.node? ["old"] = none := by
  intro disk
  let opened : Connection :=
    ⟨{ versions := some [1], preferences := some [], commits := 1 }, 0, 1⟩
  let lossy : Faulty Connection := { inner := opened, failCommit := [1] }
  let first : Observed (Faulty Connection) Unit :=
    ⟨⟨{ lossy with loads := 1 }, Dict.empty, .empty⟩, (), []⟩
  let second : Observed (Faulty Connection) Unit :=
    ⟨⟨{ inner := opened, loads := 1 }, Dict.empty, .empty⟩, (), []⟩
  let rows : List (Except ImportError LegacyRecord) := [.ok (.ofValue "a" (.boolean true))]
  have hlook : disk.legacySource "/old" = (.rows rows, disk) := by rfl
  let run (handle : Nat) (stage : Stage) : Option Run :=
    some ⟨handle, "/old", .empty, stage⟩
  have h : History (β := Faulty Connection) (ρ := Unit) {} disk _ _ :=
    .snoc .nil (.client (.opens (b := lossy) rfl ()))
  have h := h.snoc (.client (.opens (b := { inner := opened }) rfl ()))
  have h := h.snoc (.began (i := 0) (o := first) rfl "/old" .empty)
  have h := h.snoc (.began (i := 1) (o := second) rfl "/old" .empty)
  have h := h.snoc (.looked (r := 0) (Eq.refl (run 0 .unset)) rfl hlook)
  have h := h.snoc (.looked (r := 1) (Eq.refl (run 1 .unset)) rfl hlook)
  have h := h.snoc (.wroteRows (r := 0) (Eq.refl (run 0 (.found (.rows rows)))) rfl rfl rfl)
  have h := h.snoc (.wroteRows (r := 1) (Eq.refl (run 1 (.found (.rows rows)))) rfl rfl rfl)
  have h := h.snoc (.wroteFlag (r := 0) (Eq.refl (run 0 (.unwritten 1))) rfl rfl rfl)
  have h := h.snoc
    (.cleaned (r := 1) (Eq.refl (run 1 (.ended ⟨.migrated ⟨1, 1, 0⟩, true⟩))) rfl rfl)
  obtain ⟨-, hlength, -, hcleaned, -⟩ := h.migration_happens_once
  obtain ⟨hset, _, hrun, hdrops⟩ := hcleaned _ _ [] 1 rfl rfl
  cases hrun
  have hreach : disk.Reach (Disk.databasePaths "/old") ["old"] :=
    ⟨"/old", List.mem_cons_self, ["old"], rfl, rfl⟩
  exact ⟨_, _, h, rfl, by decide, hlength, hset, rfl, hdrops.gone hreach rfl⟩

/-- A run through a handle that has not seen that the flag is set looks at an empty legacy file, and
the log beside the file goes, although the flag was set by another run. -/
theorem stale_log_goes_under_flag :
    ∃ (moments : List (Moment Connection Unit)) (w : World Connection Unit),
      History {} (.ofDirectories []) moments w ∧
      ∃ m ∈ moments, m.deed = .looked 1 ∧
        (∃ m' ∈ moments, m'.deed.run? = some 0 ∧ m'.sets = true) ∧ m.before.flagged = true ∧
        m.before.disk.node? ["old"] = some (.plain "") ∧
        m.before.disk.node? ["old-wal"] = some (.plain "left over") ∧
        m.after.disk.node? ["old-wal"] = none := by
  let empty : Disk := .ofDirectories []
  let left : Disk := (empty.put ["old"] (.plain "")).put ["old-wal"] (.plain "left over")
  let opened : Connection :=
    ⟨{ versions := some [1], preferences := some [], commits := 1 }, 0, 1⟩
  let handle : Observed Connection Unit := ⟨⟨opened, Dict.empty, .empty⟩, (), []⟩
  let run (handle : Nat) (stage : Stage) : Option Run :=
    some ⟨handle, "/old", .empty, stage⟩
  have hlook : left.legacySource "/old" = (.rows [], left.clear (Place.log ["old"])) := by rfl
  have h : History (β := Connection) (ρ := Unit) {} empty _ _ :=
    .snoc .nil (.client (.opens (b := opened) rfl ()))
  have h := h.snoc (.client (.opens (b := opened) rfl ()))
  have h := h.snoc (.began (i := 0) (o := handle) rfl "/old" .empty)
  have h := h.snoc (.began (i := 1) (o := handle) rfl "/old" .empty)
  have h := h.snoc (.looked (r := 0) (Eq.refl (run 0 .unset)) rfl rfl)
  have h := h.snoc (.wroteFlag (r := 0) (Eq.refl (run 0 (.found .missing))) rfl rfl rfl)
  have h := h.snoc (.disk left)
  have h := h.snoc (.looked (r := 1) (Eq.refl (run 1 .unset)) rfl hlook)
  refine ⟨_, _, h, _, List.mem_append_right _ (List.mem_singleton_self _), rfl,
    ⟨_, List.mem_append_left _ (List.mem_append_left _
      (List.mem_append_right _ (List.mem_singleton_self _))), rfl, rfl⟩, rfl, rfl, rfl, rfl⟩

end History

end PrefStore
