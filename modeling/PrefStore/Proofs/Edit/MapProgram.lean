import Mathlib.Data.List.Sort
import Mathlib.Logic.Function.Basic
import PrefStore.Proofs.Edit.Agreement
import PrefStore.Proofs.Edit.Lawful

/-!
# Scripts as programs on plain maps

What a script means is told by a map from keys to values and nothing else: what each operation
answers on the map, what it makes of the map, and which keys it writes. An operation that fails
makes nothing of it and writes nothing. A script on a draft means what it means on the map of the
draft's entries, and the keys that it writes are those that count as written. No key whose value
changes goes unwritten, unless it is reserved, and no reserved key is written.
-/

namespace PrefStore

/-- A map from keys to values. -/
abbrev PlainMap := String → Option Value

/-- A map shows clients a value at a key that is not reserved. -/
def PlainMap.Shows (m : PlainMap) (key : String) (v : Value) : Prop :=
  isReserved key = false ∧ m key = some v

/-- Why a key is refused. -/
inductive KeyRefused (key : String) : StoreError → Prop where
  | empty (h : key = "") : KeyRefused key (.invalidKey key)
  | reserved (h : isReserved key = true) : KeyRefused key (.reservedKey key)

namespace EditStep

/-- What an operation other than a panic answers on a map. -/
inductive Answers (m : PlainMap) : EditStep → StepResult → Prop where
  | get {key : String} {answer : Option Value} (h : ∀ v, answer = some v ↔ m.Shows key v) :
      Answers m (.get key) (.value answer)
  | contains {key : String} {answer : Bool} (h : answer = true ↔ ∃ v, m.Shows key v) :
      Answers m (.contains key) (.flag answer)
  | keys {answer : List String} (hsorted : answer.Pairwise (· < ·))
      (h : ∀ key, key ∈ answer ↔ ∃ v, m.Shows key v) : Answers m .keys (.keys answer)
  | put {key : String} {v : Value} (hkey : key ≠ "" ∧ isReserved key = false)
      (hvalue : v.storable = true) : Answers m (.put key v) .done
  | putKey {key : String} {v : Value} {cause : StoreError} (h : KeyRefused key cause) :
      Answers m (.put key v) (.failed cause)
  | putValue {key : String} {x : Single} (hkey : key ≠ "" ∧ isReserved key = false)
      (hvalue : x.isFinite = false) :
      Answers m (.put key (.float x)) (.failed (.invalidValue key (.nonFinite x)))
  | remove {key : String} (hkey : key ≠ "" ∧ isReserved key = false) :
      Answers m (.remove key) .done
  | removeKey {key : String} {cause : StoreError} (h : KeyRefused key cause) :
      Answers m (.remove key) (.failed cause)
  | clear : Answers m .clear .done
  | isMigrated {answer : Bool} (h : answer = true ↔ m migrationKey = some (.boolean true)) :
      Answers m .isMigrated (.flag answer)
  | markMigrated : Answers m .markMigrated .done
  | abort : Answers m .abort (.failed .aborted)

/-- What an operation that had a result makes of a map. -/
def effect (m : PlainMap) : EditStep → StepResult → PlainMap
  | .put key v, .done => Function.update m key (some v)
  | .remove key, .done => Function.update m key none
  | .clear, .done => fun key => if isReserved key then m key else none
  | .markMigrated, .done => Function.update m migrationKey (some (.boolean true))
  | _, _ => m

/-- The keys that an operation writes that had a result: the key of a write or a removal that
succeeded, and all that clients saw before they were cleared. -/
def Writes (m : PlainMap) : EditStep → StepResult → String → Prop
  | .put key _, .done, written => written = key
  | .remove key, .done, written => written = key
  | .clear, .done, written => ∃ v, m.Shows written v
  | _, _, _ => False

end EditStep

namespace Script

/-- What a script means on a map, if it completes: the results of its operations, each on what the
operations before it made of the map, and what they all make of it. A failure must be allowed. -/
inductive Means : Script → PlainMap → List StepResult → PlainMap → Prop where
  | nil (m : PlainMap) : Means [] m [] m
  | cons {line : ScriptLine} {rest : Script} {m m' : PlainMap} {result : StepResult}
      {results : List StepResult} (hanswers : line.step.Answers m result)
      (hgoes : ∀ cause, result = .failed cause → line.mayFail = true)
      (hrest : Means rest (line.step.effect m result) results m') :
      Means (line :: rest) m (result :: results) m'

/-- The keys that some operation of a script writes, the results being given. -/
inductive Writes : Script → PlainMap → List StepResult → String → Prop where
  | here {line : ScriptLine} {rest : Script} {m : PlainMap} {result : StepResult}
      {results : List StepResult} {key : String} (h : line.step.Writes m result key) :
      Writes (line :: rest) m (result :: results) key
  | later {line : ScriptLine} {rest : Script} {m : PlainMap} {result : StepResult}
      {results : List StepResult} {key : String}
      (h : Writes rest (line.step.effect m result) results key) :
      Writes (line :: rest) m (result :: results) key

end Script

/-! ## One operation -/

/-- A key is refused for the reasons there are, and for no other. -/
theorem checkKey_eq_error_iff {key : String} {cause : StoreError} :
    checkKey key = .error cause ↔ KeyRefused key cause := by
  unfold checkKey
  constructor
  · intro h
    split at h
    · next hempty =>
      cases h
      exact .empty hempty
    · split at h
      · next hreserved =>
        cases h
        exact .reserved hreserved
      · cases h
  · rintro (rfl | hreserved)
    · rfl
    · have hne : key ≠ "" := by
        rintro rfl
        cases hreserved
      rw [if_neg hne, if_pos hreserved]

namespace Dict

variable {α : Type}

private theorem get?_insert_eq_update (d : Dict α) (key : String) (v : α) :
    (d.insert key v).get? = Function.update d.get? key (some v) := by
  funext other
  rw [get?_insert]
  by_cases h : key = other
  · rw [if_pos h, h, Function.update_self]
  · rw [if_neg h, Function.update_of_ne (Ne.symm h)]

private theorem get?_erase_eq_update (d : Dict α) (key : String) :
    (d.erase key).get? = Function.update d.get? key none := by
  funext other
  rw [get?_erase]
  by_cases h : key = other
  · rw [if_pos h, h, Function.update_self]
  · rw [if_neg h, Function.update_of_ne (Ne.symm h)]

end Dict

namespace Draft

variable {d : Draft} {key : String}

/-- What a client sees at a key of a draft is what its entries show. -/
theorem get?_eq_some_iff {v : Value} :
    d.get? key = some v ↔ PlainMap.Shows d.entries.get? key v :=
  Snapshot.visibleAt_eq_some_iff.trans Snapshot.mem_visible_iff

/-- A client sees the keys at which the entries show something. -/
theorem mem_keys_iff_shows : key ∈ d.keys ↔ ∃ v, PlainMap.Shows d.entries.get? key v := by
  rw [mem_keys_iff]
  simp only [PlainMap.Shows, exists_and_left]

/-- The keys that a client sees ascend. -/
theorem ascending_keys (d : Draft) : d.keys.Pairwise (· < ·) :=
  List.pairwise_map.2 (d.entries.ascending.filter _)

/-- A write fails because its key is refused, or else because its value cannot be stored. -/
theorem put_eq_error_iff {v : Value} {cause : StoreError} :
    d.put key v = .error cause ↔ KeyRefused key cause ∨
      (key ≠ "" ∧ isReserved key = false) ∧ ∃ x, v = .float x ∧ x.isFinite = false ∧
        cause = .invalidValue key (.nonFinite x) := by
  rw [put, bind_eq_error_iff, checkKey_eq_error_iff]
  refine or_congr_right ?_
  constructor
  · rintro ⟨_, hkey, h⟩
    refine ⟨checkKey_eq_ok_iff.1 hkey, ?_⟩
    cases v with
    | float x => cases hx : x.isFinite <;> simp_all [Value.validate]
    | boolean | int | long | string | stringSet => cases h
  · rintro ⟨hkey, x, rfl, hx, rfl⟩
    exact ⟨(), checkKey_eq_ok_iff.2 hkey, by simp [Value.validate, hx]⟩

/-- A removal fails because its key is refused. -/
theorem remove_eq_error_iff {cause : StoreError} :
    d.remove key = .error cause ↔ KeyRefused key cause := by
  rw [remove, bind_eq_error_iff, checkKey_eq_error_iff]
  refine or_iff_left ?_
  rintro ⟨_, -, hwritten⟩
  cases hwritten

end Draft

namespace EditStep

private theorem answers_run (d : Draft) {step : EditStep} (hpanic : step ≠ .panic) :
    step.Answers d.entries.get? (step.run d).1 := by
  cases step with
  | get key => exact .get fun _ => Draft.get?_eq_some_iff
  | contains key =>
    refine .contains ?_
    rw [Draft.contains, Option.isSome_iff_exists]
    exact exists_congr fun _ => Draft.get?_eq_some_iff
  | keys => exact .keys d.ascending_keys fun _ => Draft.mem_keys_iff_shows
  | put key v =>
    cases hput : d.put key v with
    | ok next =>
      obtain ⟨hkey, hvalue, -⟩ := Draft.put_eq_ok_iff.1 hput
      simpa only [run, hput] using .put hkey hvalue
    | error cause =>
      simp only [run, hput]
      rcases Draft.put_eq_error_iff.1 hput with hkey | ⟨hkey, x, rfl, hx, rfl⟩
      · exact .putKey hkey
      · exact .putValue hkey hx
  | remove key =>
    cases hremove : d.remove key with
    | ok next =>
      obtain ⟨hkey, -⟩ := Draft.remove_eq_ok_iff.1 hremove
      simpa only [run, hremove] using .remove hkey
    | error cause =>
      simpa only [run, hremove] using .removeKey (Draft.remove_eq_error_iff.1 hremove)
  | clear => exact .clear
  | isMigrated => exact .isMigrated decide_eq_true_iff
  | markMigrated => exact .markMigrated
  | abort => exact .abort
  | panic => exact absurd rfl hpanic

private theorem Answers.eq_run {d : Draft} {step : EditStep} {result : StepResult}
    (h : step.Answers d.entries.get? result) : (step.run d).1 = result := by
  cases h with
  | get h =>
    refine congrArg StepResult.value (Option.ext fun v => ?_)
    rw [h, Draft.get?_eq_some_iff]
  | contains h =>
    refine congrArg StepResult.flag (Bool.eq_iff_iff.2 ?_)
    rw [h, Draft.contains, Option.isSome_iff_exists]
    exact exists_congr fun _ => Draft.get?_eq_some_iff
  | keys hsorted h =>
    refine congrArg StepResult.keys (d.ascending_keys.eq_of_mem_iff hsorted fun key => ?_)
    rw [h, Draft.mem_keys_iff_shows]
  | put hkey hvalue => simp only [run, Draft.put_eq_ok_iff.2 ⟨hkey, hvalue, rfl⟩]
  | putKey h => simp only [run, Draft.put_eq_error_iff.2 (.inl h)]
  | putValue hkey hvalue =>
    simp only [run, Draft.put_eq_error_iff.2 (.inr ⟨hkey, _, rfl, hvalue, rfl⟩)]
  | remove hkey => simp only [run, Draft.remove_eq_ok_iff.2 ⟨hkey, rfl⟩]
  | removeKey h => simp only [run, Draft.remove_eq_error_iff.2 h]
  | isMigrated h =>
    refine congrArg StepResult.flag (Bool.eq_iff_iff.2 ?_)
    rw [h, Draft.isMigrated, Snapshot.isMigrated, decide_eq_true_iff]
  | clear | markMigrated | abort => rfl

private theorem Answers.ne_panic {m : PlainMap} {step : EditStep} {result : StepResult}
    (h : step.Answers m result) : step ≠ .panic := by
  cases h <;> exact nofun

/-- An operation makes of a draft what it makes of the map. -/
theorem get?_run (d : Draft) (step : EditStep) :
    (step.run d).2.entries.get? = step.effect d.entries.get? (step.run d).1 := by
  cases step with
  | put key v =>
    cases hput : d.put key v with
    | ok next =>
      obtain ⟨-, -, rfl⟩ := Draft.put_eq_ok_iff.1 hput
      simp only [run, hput, effect, Dict.get?_insert_eq_update]
    | error cause => simp only [run, hput, effect]
  | remove key =>
    cases hremove : d.remove key with
    | ok next =>
      obtain ⟨-, rfl⟩ := Draft.remove_eq_ok_iff.1 hremove
      simp only [run, hremove, effect, Dict.get?_erase_eq_update]
    | error cause => simp only [run, hremove, effect]
  | clear => exact funext d.get?_clear
  | markMigrated => exact d.entries.get?_insert_eq_update migrationKey (.boolean true)
  | get | contains | keys | isMigrated | abort | panic => rfl

private theorem mem_touched_run {d : Draft} {step : EditStep} {key : String} :
    key ∈ (step.run d).2.touched.items ↔
      step.Writes d.entries.get? (step.run d).1 key ∨ key ∈ d.touched.items := by
  cases step with
  | put k v =>
    cases hput : d.put k v with
    | ok next =>
      obtain ⟨-, -, rfl⟩ := Draft.put_eq_ok_iff.1 hput
      simp only [run, hput, Writes, StringSet.mem_items_add]
    | error cause => simp only [run, hput, Writes, false_or]
  | remove k =>
    cases hremove : d.remove k with
    | ok next =>
      obtain ⟨-, rfl⟩ := Draft.remove_eq_ok_iff.1 hremove
      simp only [run, hremove, Writes, StringSet.mem_items_add]
    | error cause => simp only [run, hremove, Writes, false_or]
  | clear => exact Draft.mem_touched_clear.trans (or_congr_left Draft.mem_keys_iff_shows)
  | get | contains | keys | isMigrated | markMigrated | abort | panic =>
    exact (or_iff_right not_false).symm

/-- An operation that fails leaves a draft as it is. -/
theorem run_of_failed {d : Draft} {step : EditStep} {cause : StoreError}
    (h : (step.run d).1 = .failed cause) : (step.run d).2 = d := by
  cases step with
  | put key v => cases hput : d.put key v <;> simp_all [run]
  | remove key => cases hremove : d.remove key <;> simp_all [run]
  | clear | markMigrated => cases h
  | get | contains | keys | isMigrated | abort | panic => rfl

/-- A key at which an operation changes a map is written, unless it is reserved. -/
theorem writes_of_changes {m : PlainMap} {step : EditStep} {result : StepResult} {key : String}
    (hkey : isReserved key = false) (h : step.effect m result key ≠ m key) :
    step.Writes m result key := by
  unfold effect at h
  split at h
  · by_contra hne
    exact h (Function.update_of_ne hne _ _)
  · by_contra hne
    exact h (Function.update_of_ne hne _ _)
  · cases hm : m key with
    | none => simp [hkey, hm] at h
    | some v => exact ⟨v, hkey, hm⟩
  · have hne : key ≠ migrationKey := by
      rintro rfl
      simp at hkey
    exact absurd (Function.update_of_ne hne _ _) h
  · exact absurd rfl h

/-- No operation writes a reserved key. -/
theorem Answers.not_reserved {m : PlainMap} {step : EditStep} {result : StepResult} {key : String}
    (h : step.Answers m result) (hwrites : step.Writes m result key) : isReserved key = false := by
  cases h with
  | put hkey _ | remove hkey =>
    obtain rfl : key = _ := hwrites
    exact hkey.2
  | clear =>
    obtain ⟨v, hshows⟩ := hwrites
    exact hshows.1
  | _ => exact hwrites.elim

end EditStep

/-! ## Whole scripts -/

namespace Script

/-- A script completes if its first operation is no panic and fails only where it may, and the rest
completes on the draft that the operation leaves. -/
theorem run_cons_eq_ok_iff {line : ScriptLine} {rest : Script} {d e : Draft}
    {results : List StepResult} :
    run (line :: rest) d = (.ok e, results) ↔ line.step ≠ .panic ∧
      (∀ cause, (line.step.run d).1 = .failed cause → line.mayFail = true) ∧
      ∃ others, results = (line.step.run d).1 :: others ∧
        run rest (line.step.run d).2 = (.ok e, others) := by
  obtain ⟨step, mayFail⟩ := line
  by_cases hpanic : step = .panic
  · subst hpanic
    simp [run]
  by_cases hgoes : ∀ cause, (step.run d).1 = .failed cause → mayFail = true
  · have hgoes' : mayFail = true ∨ ∀ cause, (step.run d).1 ≠ .failed cause := by
      by_cases hmay : mayFail = true
      · exact .inl hmay
      · exact .inr fun cause hcause => hmay (hgoes cause hcause)
    rw [run_cons_of_goes_on hpanic hgoes', Prod.mk.injEq]
    constructor
    · rintro ⟨hrun, rfl⟩
      exact ⟨hpanic, hgoes, _, rfl, Prod.ext hrun rfl⟩
    · rintro ⟨-, -, others, rfl, hrun⟩
      rw [hrun]
      exact ⟨rfl, rfl⟩
  · have hstops : ∃ cause, (step.run d).1 = .failed cause ∧ mayFail = false := by
      simpa using hgoes
    obtain ⟨cause, hcause, rfl⟩ := hstops
    rw [run_cons_of_failed hpanic (Prod.ext hcause rfl)]
    constructor
    · intro h
      cases h
    · rintro ⟨-, hgoes', -⟩
      exact absurd hgoes' hgoes

/-- A script that completes on a draft means what it made of the entries. -/
theorem means_of_run {script : Script} {d e : Draft} {results : List StepResult}
    (h : script.run d = (.ok e, results)) :
    script.Means d.entries.get? results e.entries.get? := by
  induction script generalizing d results with
  | nil =>
    cases h
    exact .nil _
  | cons line rest ih =>
    obtain ⟨hpanic, hgoes, others, rfl, hrest⟩ := run_cons_eq_ok_iff.1 h
    have hmeans := ih hrest
    rw [EditStep.get?_run] at hmeans
    exact .cons (EditStep.answers_run d hpanic) hgoes hmeans

/-- A script that means something on the entries of a draft completes, and with that. -/
theorem Means.run {script : Script} {d : Draft} {results : List StepResult} {m : PlainMap}
    (h : script.Means d.entries.get? results m) :
    ∃ e, script.run d = (.ok e, results) ∧ e.entries.get? = m := by
  induction script generalizing d results with
  | nil =>
    cases h
    exact ⟨d, rfl, rfl⟩
  | cons line rest ih =>
    cases h with
    | cons hanswers hgoes hrest =>
      obtain rfl := hanswers.eq_run
      rw [← EditStep.get?_run] at hrest
      obtain ⟨e, hrun, hm⟩ := ih hrest
      exact ⟨e, run_cons_eq_ok_iff.2 ⟨hanswers.ne_panic, hgoes, _, rfl, hrun⟩, hm⟩

/-- A first operation and the rest of its script write what either of them writes. -/
theorem writes_cons_iff {line : ScriptLine} {rest : Script} {m : PlainMap} {result : StepResult}
    {results : List StepResult} {key : String} :
    Writes (line :: rest) m (result :: results) key ↔
      line.step.Writes m result key ∨ rest.Writes (line.step.effect m result) results key := by
  constructor
  · rintro (h | h)
    · exact .inl h
    · exact .inr h
  · rintro (h | h)
    · exact .here h
    · exact .later h

/-- The keys that a script writes come to count as written. -/
theorem mem_touched_of_run {script : Script} {d e : Draft} {results : List StepResult}
    (h : script.run d = (.ok e, results)) {key : String} :
    key ∈ e.touched.items ↔ script.Writes d.entries.get? results key ∨ key ∈ d.touched.items := by
  induction script generalizing d results with
  | nil =>
    cases h
    exact (or_iff_right nofun).symm
  | cons line rest ih =>
    obtain ⟨-, -, others, rfl, hrest⟩ := run_cons_eq_ok_iff.1 h
    rw [ih hrest, EditStep.mem_touched_run, EditStep.get?_run, writes_cons_iff, or_left_comm,
      or_assoc]

/-- No change is silent: a key at which a script changes a map is written, unless it is
reserved. -/
theorem Means.writes_of_changes {script : Script} {m m' : PlainMap} {results : List StepResult}
    (h : script.Means m results m') {key : String} (hkey : isReserved key = false)
    (hchanges : m' key ≠ m key) : script.Writes m results key := by
  induction h with
  | nil => exact absurd rfl hchanges
  | @cons line rest m m' result results hanswers _ _ ih =>
    by_cases hfirst : line.step.effect m result key = m key
    · exact .later (ih (hfirst ▸ hchanges))
    · exact .here (EditStep.writes_of_changes hkey hfirst)

/-- No script writes a reserved key. -/
theorem Means.not_reserved {script : Script} {m m' : PlainMap} {results : List StepResult}
    (h : script.Means m results m') {key : String} (hwrites : script.Writes m results key) :
    isReserved key = false := by
  induction h with
  | nil => cases hwrites
  | cons hanswers _ _ ih =>
    rcases writes_cons_iff.1 hwrites with hfirst | hrest
    · exact hanswers.not_reserved hfirst
    · exact ih hrest

end Script

end PrefStore
