import Mathlib.Tactic.ByContra
import PrefStore.Database.Rows
import PrefStore.Proofs.Json.Strings
import PrefStore.Proofs.Snapshot.Agreement

/-!
# Rows that hold a snapshot

A value that is no NaN is read back from its cell, and a row that decodes holds no NaN. Rows
that decode are followed through deletions and replacements by what happens to their snapshot,
so writing the difference of two snapshots leaves rows that hold the second one. Values are
compared by `Value.same`: a value that agrees with the one before is not written, and a NaN, which
agrees with nothing, is always written and never taken.
-/

namespace PrefStore

namespace Value

/-- Every value that is no NaN is read back from its cell. -/
theorem ofCell?_toCell {v : Value} (h : v.same v = true) : ofCell? v.kind v.toCell = some v := by
  cases v with
  | boolean b => cases b <;> rfl
  | float x =>
    have hx : x ≠ .nan := Binary.same_self_iff.1 h
    have hstored : (Cell.real x.widen).stored = .real x.widen := by
      cases x <;> simp_all [Cell.stored, Binary.widen]
    simp [ofCell?, kind, toCell, hstored]
  | int i => simp [ofCell?, kind, toCell, Cell.stored]
  | long i => rfl
  | string s => rfl
  | stringSet s =>
    simp [ofCell?, kind, toCell, Cell.stored, Json.read?_ofStrings, Json.strings?_ofStrings]

private theorem same_self_of_ofCell? {kind : Kind} {cell : Cell} {v : Value}
    (h : ofCell? kind cell = some v) : v.same v = true := by
  unfold ofCell? at h
  split at h
  · cases h; simp [same]
  · next x hx =>
    have hnan : x ≠ .nan := by
      rintro rfl
      unfold Cell.stored at hx
      split at hx
      · cases hx
      · next hne => exact hne hx
    cases h
    exact Binary.same_self_iff.2 (Binary.narrow_ne_nan hnan)
  · cases h
    exact Binary.same_self_iff.2 (Binary.ofRatio_ne_nan _ _ _ _)
  · obtain ⟨i, -, rfl⟩ := Option.map_eq_some_iff.1 h
    simp [same]
  · cases h; simp [same]
  · cases h; simp [same]
  · obtain ⟨items, -, rfl⟩ := Option.map_eq_some_iff.1 h
    simp [same]
  · cases h

/-- What is left at a key when a value is written over another: a value that agrees with the old
one is not written. -/
def settle : Option Value → Option Value → Option Value
  | some old, some new => if old.same new then some old else some new
  | _, new => new

private theorem sameAnswer_settle {old new : Option Value}
    (hnew : ∀ v, new = some v → v.same v = true) : SameAnswer (settle old new) new := by
  unfold settle
  split
  · next old new =>
    split
    · assumption
    · exact hnew new rfl
  · cases new with
    | none => trivial
    | some v => exact hnew v rfl

end Value

namespace PreferenceRow

/-- The row of a preference that is no NaN holds it. -/
theorem preference?_ofEntry {v : Value} (h : v.same v = true) (key : String) :
    (ofEntry key v).preference? = some (key, v) := by
  have hcode : Kind.ofCode? (Int64.ofNat v.kind.code).toInt = some v.kind := by
    cases v.kind <;> rfl
  simp only [ofEntry, preference?, hcode, Option.bind_some, Value.ofCell?_toCell h, Option.map_some]

/-- A table takes the row of a preference unless its value is a NaN. -/
theorem filled_ofEntry_iff {key : String} {v : Value} :
    (ofEntry key v).Filled ↔ v.same v = true := by
  rw [Value.same_self_iff]
  constructor
  · rintro ⟨-, -, hvalue⟩ rfl
    exact hvalue rfl
  · intro hnan
    refine ⟨by simp [ofEntry], by simp [ofEntry], ?_⟩
    cases v with
    | float x => cases x <;> simp_all [ofEntry, Value.toCell, Cell.stored, Binary.widen]
    | _ => simp [ofEntry, Value.toCell]

private theorem of_preference? {row : PreferenceRow} {key : String} {v : Value}
    (h : row.preference? = some (key, v)) : row.key = .text key ∧ v.same v = true := by
  unfold preference? at h
  split at h
  · next hkey _ =>
    obtain ⟨kind, -, h⟩ := Option.bind_eq_some_iff.1 h
    obtain ⟨w, hw, h⟩ := Option.map_eq_some_iff.1 h
    cases h
    exact ⟨hkey, Value.same_self_of_ofCell? hw⟩
  · cases h

end PreferenceRow

namespace Rows

/-- Rows hold a snapshot if they decode to it. -/
def Hold (rows : List PreferenceRow) (s : Snapshot) : Prop := snapshot? rows = some s

/-- No rows hold the empty snapshot. -/
theorem hold_nil : Hold [] Dict.empty := rfl

/-- Rows that hold a snapshot decode to a list of entries that makes it. -/
theorem hold_iff {rows : List PreferenceRow} {s : Snapshot} :
    Hold rows s ↔ ∃ entries, rows.mapM PreferenceRow.preference? = some entries ∧
      Dict.ofList entries = s := by
  simp [Hold, snapshot?]

private theorem mapM_cons_iff {row : PreferenceRow} {rows : List PreferenceRow}
    {entries : List (String × Value)} :
    (row :: rows).mapM PreferenceRow.preference? = some entries ↔
      ∃ entry rest, row.preference? = some entry ∧
        rows.mapM PreferenceRow.preference? = some rest ∧ entries = entry :: rest := by
  rw [List.mapM_cons]
  simp only [Option.bind_eq_bind, Option.bind_eq_some_iff, Option.pure_def, Option.some.injEq]
  constructor
  · rintro ⟨entry, hrow, rest, hrest, rfl⟩
    exact ⟨entry, rest, hrow, hrest, rfl⟩
  · rintro ⟨entry, rest, hrow, hrest, rfl⟩
    exact ⟨entry, hrow, rest, hrest, rfl⟩

private theorem exists_row_of_mem {rows : List PreferenceRow} {entries : List (String × Value)}
    (hrows : rows.mapM PreferenceRow.preference? = some entries) {entry : String × Value}
    (hmem : entry ∈ entries) : ∃ row : PreferenceRow, row.preference? = some entry := by
  induction rows generalizing entries with
  | nil => simp_all
  | cons row rows ih =>
    obtain ⟨first, rest, hrow, hrest, rfl⟩ := mapM_cons_iff.1 hrows
    rcases List.mem_cons.1 hmem with rfl | hmem
    · exact ⟨row, hrow⟩
    · exact ih hrest hmem

private theorem mapM_delete {rows : List PreferenceRow} {entries : List (String × Value)}
    (hrows : rows.mapM PreferenceRow.preference? = some entries) (key : String) :
    (delete (.text key) rows).mapM PreferenceRow.preference? =
      some (entries.filter fun entry => entry.1 ≠ key) := by
  induction rows generalizing entries with
  | nil => simp_all [delete]
  | cons row rows ih =>
    obtain ⟨⟨k, v⟩, rest, hrow, hrest, rfl⟩ := mapM_cons_iff.1 hrows
    have hkey := (PreferenceRow.of_preference? hrow).1
    have hih := ih hrest
    unfold delete at hih ⊢
    by_cases he : k = key
    · subst he
      rw [List.filter_cons_of_neg (by simp [hkey]), List.filter_cons_of_neg (by simp)]
      exact hih
    · have hne : row.key ≠ .text key := by
        rw [hkey]
        simpa using he
      rw [List.filter_cons_of_pos (by simpa using hne),
        List.filter_cons_of_pos (by simpa using he)]
      exact mapM_cons_iff.2 ⟨(k, v), _, hrow, hih, rfl⟩

private theorem ofList_filter_ne (entries : List (String × Value)) (key : String) :
    Dict.ofList (entries.filter fun entry => entry.1 ≠ key) = (Dict.ofList entries).erase key := by
  refine Dict.ext_get? fun other => ?_
  rw [Dict.get?_erase, Dict.get?_ofList, Dict.get?_ofList, ← List.filter_reverse,
    List.find?_filter]
  by_cases he : key = other
  · subst he
    rw [if_pos rfl]
    simp
  · rw [if_neg he]
    congr 2
    funext entry
    by_cases ho : entry.1 = other
    · subst ho
      simp [Ne.symm he]
    · simp [ho]

/-- Without the row of a key, rows hold the snapshot without the key. -/
theorem Hold.delete {rows : List PreferenceRow} {s : Snapshot} (h : Hold rows s)
    (key : String) : Hold (Rows.delete (.text key) rows) (s.erase key) := by
  obtain ⟨entries, hrows, rfl⟩ := hold_iff.1 h
  exact hold_iff.2 ⟨_, mapM_delete hrows key, ofList_filter_ne entries key⟩

/-- With a row in place of an earlier one, rows hold the snapshot with its value. -/
theorem Hold.upsert {rows : List PreferenceRow} {s : Snapshot} (h : Hold rows s) {v : Value}
    (hv : v.same v = true) (key : String) :
    Hold (Rows.upsert (PreferenceRow.ofEntry key v) rows) (s.insert key v) := by
  obtain ⟨entries, hrows, rfl⟩ := hold_iff.1 h
  refine hold_iff.2 ⟨(entries.filter fun entry => entry.1 ≠ key) ++ [(key, v)], ?_, ?_⟩
  · have hrest := mapM_delete hrows key
    have hrow := PreferenceRow.preference?_ofEntry hv key
    simp [Rows.upsert, PreferenceRow.ofEntry, List.mapM_append] at hrest hrow ⊢
    simp [hrest, hrow]
  · have hlast : Dict.ofList ((entries.filter fun entry => entry.1 ≠ key) ++ [(key, v)]) =
        (Dict.ofList (entries.filter fun entry => entry.1 ≠ key)).insert key v := by
      simp [Dict.ofList, List.foldl_append]
    rw [hlast, ofList_filter_ne]
    refine Dict.ext_get? fun other => ?_
    rw [Dict.get?_insert, Dict.get?_insert, Dict.get?_erase]
    split <;> rfl

/-- What rows hold is regular. -/
theorem Hold.regular {rows : List PreferenceRow} {s : Snapshot} (h : Hold rows s) :
    s.Regular := by
  obtain ⟨entries, hrows, rfl⟩ := hold_iff.1 h
  intro key v hv
  rw [Dict.get?_ofList] at hv
  obtain ⟨⟨k, w⟩, hfind, rfl⟩ := Option.map_eq_some_iff.1 hv
  have hmem := List.mem_reverse.1 (List.mem_of_find?_eq_some hfind)
  obtain ⟨row, hrow⟩ := exists_row_of_mem hrows hmem
  exact (PreferenceRow.of_preference? hrow).2

/-- Rows stay with their snapshot while keys are deleted. -/
theorem Hold.deletes {rows : List PreferenceRow} {s : Snapshot} (h : Hold rows s)
    (keys : List String) :
    Hold (keys.foldl (fun rows key => Rows.delete (.text key) rows) rows)
      (keys.foldl Dict.erase s) := by
  induction keys generalizing rows s with
  | nil => exact h
  | cons key rest ih => exact ih (h.delete key)

private theorem Hold.upserts {rows : List PreferenceRow} {s : Snapshot} (h : Hold rows s)
    {entries : List (String × Value)} (hentries : ∀ entry ∈ entries, entry.2.same entry.2 = true) :
    Hold (entries.foldl
        (fun rows entry => Rows.upsert (PreferenceRow.ofEntry entry.1 entry.2) rows) rows)
      (entries.foldl (fun s entry => s.insert entry.1 entry.2) s) := by
  induction entries generalizing rows s with
  | nil => exact h
  | cons entry rest ih =>
    exact ih (h.upsert (hentries entry (by simp)) entry.1)
      fun other hother => hentries other (by simp [hother])

/-- A kept value agrees with the one before. -/
theorem keeps_iff {before : Snapshot} {key : String} {v : Value} :
    keeps before key v = true ↔ ∃ old, before.get? key = some old ∧ old.same v = true := by
  unfold keeps
  split
  · next old hold => simp [hold]
  · next hnone => simp [hnone]

/-- The last pair of a key among the entries of a snapshot that are not kept. -/
private theorem find?_new (before after : Snapshot) (key : String) :
    (((after.entries.filter fun entry => !keeps before entry.1 entry.2).reverse.find?
      (·.1 = key)).map Prod.snd) =
      (after.get? key).bind fun v => if keeps before key v then none else some v := by
  cases hafter : after.get? key with
  | none =>
    rw [Option.bind_none, Option.map_eq_none_iff, List.find?_eq_none]
    rintro ⟨k, v⟩ hmem heq
    simp only [decide_eq_true_eq] at heq
    subst heq
    have hmem' := (List.mem_filter.1 (List.mem_reverse.1 hmem)).1
    rw [Dict.mem_entries_iff, hafter] at hmem'
    cases hmem'
  | some v =>
    rw [Option.bind_some]
    split
    · next hkeeps =>
      rw [Option.map_eq_none_iff, List.find?_eq_none]
      rintro ⟨k, w⟩ hmem heq
      simp only [decide_eq_true_eq] at heq
      subst heq
      obtain ⟨hmem', hnew⟩ := List.mem_filter.1 (List.mem_reverse.1 hmem)
      rw [Dict.mem_entries_iff, hafter] at hmem'
      cases hmem'
      simp [hkeeps] at hnew
    · next hnew =>
      have hmem : (key, v) ∈ (after.entries.filter fun entry =>
          !keeps before entry.1 entry.2).reverse := by
        rw [List.mem_reverse, List.mem_filter, Dict.mem_entries_iff]
        exact ⟨hafter, by simpa using hnew⟩
      cases hfind : (after.entries.filter fun entry =>
          !keeps before entry.1 entry.2).reverse.find? (·.1 = key) with
      | none => exact absurd (List.find?_eq_none.1 hfind (key, v) hmem) (by simp)
      | some found =>
        obtain ⟨k, w⟩ := found
        have heq := List.find?_some hfind
        simp only [decide_eq_true_eq] at heq
        subst heq
        have hmem' := (List.mem_filter.1 (List.mem_reverse.1 (List.mem_of_find?_eq_some hfind))).1
        rw [Dict.mem_entries_iff, hafter] at hmem'
        cases hmem'
        rfl

/-! ## Statements -/

/-- The rows after some statements, unless the table does not take what one of them writes. -/
def run? (statements : List Statement) (rows : List PreferenceRow) : Option (List PreferenceRow) :=
  statements.foldlM (fun rows statement => statement.run? rows) rows

@[simp] theorem run?_nil (rows : List PreferenceRow) : run? [] rows = some rows := rfl

@[simp] theorem run?_cons (statement : Statement) (rest : List Statement)
    (rows : List PreferenceRow) :
    run? (statement :: rest) rows = (statement.run? rows).bind (run? rest) := rfl

private theorem run?_append (first rest : List Statement) (rows : List PreferenceRow) :
    run? (first ++ rest) rows = (run? first rows).bind (run? rest) :=
  List.foldlM_append

/-- Statements go through exactly if the table takes all rows that they put. -/
theorem run?_isSome_iff {statements : List Statement} {rows : List PreferenceRow} :
    (run? statements rows).isSome = true ↔ ∀ row, .put row ∈ statements → row.Filled := by
  induction statements generalizing rows with
  | nil => simp
  | cons statement rest ih =>
    cases statement with
    | clear => simp [Statement.run?, ih]
    | delete key => simp [Statement.run?, ih]
    | put row =>
      by_cases hfilled : row.Filled
      · simp [Statement.run?, hfilled, ih]
      · simp [Statement.run?, hfilled]

private theorem run?_deletes (keys : List String) (rows : List PreferenceRow) :
    run? (keys.map fun key => .delete (.text key)) rows =
      some (keys.foldl (fun rows key => Rows.delete (.text key) rows) rows) := by
  induction keys generalizing rows with
  | nil => rfl
  | cons key rest ih => exact ih (Rows.delete (.text key) rows)

private theorem run?_puts {entries : List (String × Value)}
    (hentries : ∀ entry ∈ entries, entry.2.same entry.2 = true) (rows : List PreferenceRow) :
    run? (entries.map fun entry => .put (PreferenceRow.ofEntry entry.1 entry.2)) rows =
      some (entries.foldl
        (fun rows entry => Rows.upsert (PreferenceRow.ofEntry entry.1 entry.2) rows) rows) := by
  induction entries generalizing rows with
  | nil => rfl
  | cons entry rest ih =>
    obtain ⟨hentry, hrest⟩ := List.forall_mem_cons.1 hentries
    rw [List.map_cons, run?_cons, Statement.run?,
      if_pos (PreferenceRow.filled_ofEntry_iff.2 hentry), Option.bind_some, ih hrest,
      List.foldl_cons]

/-- Writing the difference of two snapshots over rows that hold the first leaves rows that hold
what is left of the first and the second. -/
theorem Hold.difference_settles {rows : List PreferenceRow} {before after : Snapshot}
    (h : Hold rows before) (hafter : after.Regular) :
    ∃ rows' s, run? (difference before after) rows = some rows' ∧ Hold rows' s ∧
      ∀ key, s.get? key = Value.settle (before.get? key) (after.get? key) := by
  have hnew : ∀ entry ∈ after.entries.filter fun entry => !keeps before entry.1 entry.2,
      entry.2.same entry.2 = true := by
    intro entry hentry
    exact hafter entry.1 entry.2 (Dict.mem_entries_iff.1 (List.mem_filter.1 hentry).1)
  refine ⟨_, _, ?_,
    (h.deletes (before.keys.filter fun key => !after.contains key)).upserts hnew, ?_⟩
  · rw [difference, run?_append, run?_deletes, Option.bind_some, run?_puts hnew]
  intro key
  rw [Dict.get?_foldl_insert, find?_new, Dict.get?_foldl_erase]
  cases hkey : after.get? key with
  | none =>
    by_cases hbefore : before.contains key
    · have hgone : key ∈ before.keys.filter fun key => !after.contains key := by
        rw [List.mem_filter, Dict.mem_keys_iff]
        exact ⟨hbefore, by simp [Dict.contains, hkey]⟩
      simp [hgone, Value.settle]
    · have habsent : before.get? key = none := by simpa [Dict.contains] using hbefore
      simp [habsent, Value.settle]
  | some v =>
    by_cases hkeeps : keeps before key v
    · obtain ⟨old, hold, hsame⟩ := keeps_iff.1 hkeeps
      simp [hkeeps, List.mem_filter, Dict.contains, hkey, hold, Value.settle, hsame]
    · have hdiffers : ∀ old, before.get? key = some old → old.same v = false := by
        intro old hold
        simpa [keeps_iff, hold] using hkeeps
      cases hold : before.get? key with
      | none => simp [hkeeps, Value.settle]
      | some old => simp [hkeeps, Value.settle, hdiffers old hold]

/-- What is left of two snapshots agrees with the second one if that holds no NaN. -/
theorem same_of_settles {before after s : Snapshot} (hafter : after.Regular)
    (hsettles : ∀ key, s.get? key = Value.settle (before.get? key) (after.get? key)) :
    s.same after = true := by
  refine Snapshot.same_iff.2 fun key => ?_
  rw [hsettles]
  exact Value.sameAnswer_settle fun v hv => hafter key v hv

/-- The difference to a snapshot goes through exactly if the snapshot holds no NaN. -/
theorem run?_difference_isSome_iff {rows : List PreferenceRow} {before after : Snapshot}
    (h : Hold rows before) :
    (run? (difference before after) rows).isSome = true ↔ after.Regular := by
  constructor
  · intro hsome key v hkey
    by_contra hnan
    have hnew : (key, v) ∈ after.entries.filter fun entry => !keeps before entry.1 entry.2 := by
      refine List.mem_filter.2 ⟨Dict.mem_entries_iff.2 hkey, ?_⟩
      rw [Bool.not_eq_true', ← Bool.not_eq_true, keeps_iff]
      rintro ⟨old, -, hsame⟩
      exact hnan (Value.same_self_of_same ((Value.same_comm v old).trans hsame))
    have hput : Statement.put (PreferenceRow.ofEntry key v) ∈ difference before after :=
      List.mem_append_right _ (List.mem_map.2 ⟨_, hnew, rfl⟩)
    exact hnan (PreferenceRow.filled_ofEntry_iff.1 (run?_isSome_iff.1 hsome _ hput))
  · intro hafter
    obtain ⟨rows', _, hrun, -⟩ := h.difference_settles hafter
    rw [hrun, Option.isSome_some]

/-- Nothing is written where a snapshot is left as it is. -/
theorem difference_self {s : Snapshot} (h : s.Regular) : difference s s = [] := by
  have hgone : (s.keys.filter fun key => !s.contains key) = [] := by
    rw [List.filter_eq_nil_iff]
    intro key hkey
    simp [Dict.mem_keys_iff.1 hkey]
  have hnew : (s.entries.filter fun entry => !keeps s entry.1 entry.2) = [] := by
    rw [List.filter_eq_nil_iff]
    intro entry hentry
    have hget := Dict.mem_entries_iff.1 hentry
    simp [keeps_iff.2 ⟨entry.2, hget, h _ _ hget⟩]
  simp [difference, hgone, hnew]

end Rows

end PrefStore
