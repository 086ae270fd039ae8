import PrefStore.Edit.Draft

/-!
# Edit scripts

A script is a list of operations on a draft, each of which may be allowed to fail. A failure
that is not allowed ends the edit with that failure, and a panic ends it at once. The notes of
a script are the results of the operations that ran.
-/

namespace PrefStore

/-- One operation on a draft. -/
inductive EditStep where
  | get (key : String)
  | contains (key : String)
  | keys
  | put (key : String) (value : Value)
  | remove (key : String)
  | clear
  | isMigrated
  | markMigrated
  /-- Fails with `StoreError.aborted`. -/
  | abort
  | panic
  deriving DecidableEq

/-- An operation, and whether the edit goes on if it fails. -/
structure ScriptLine where
  step : EditStep
  mayFail : Bool := false
  deriving DecidableEq

/-- A script. -/
abbrev Script := List ScriptLine

/-- What an operation answers. -/
inductive StepResult where
  | done
  | value (v : Option Value)
  | flag (b : Bool)
  | keys (keys : List String)
  | failed (e : StoreError)
  deriving DecidableEq

/-- Runs one operation other than a panic. -/
def EditStep.run (d : Draft) : EditStep → StepResult × Draft
  | get key => (.value (d.get? key), d)
  | contains key => (.flag (d.contains key), d)
  | keys => (.keys d.keys, d)
  | put key value =>
    match d.put key value with
    | .ok next => (.done, next)
    | .error e => (.failed e, d)
  | remove key =>
    match d.remove key with
    | .ok next => (.done, next)
    | .error e => (.failed e, d)
  | clear => (.done, d.clear)
  | isMigrated => (.flag d.isMigrated, d)
  | markMigrated => (.done, d.markMigrated)
  | abort => (.failed .aborted, d)
  | panic => (.done, d)

namespace Script

/-- Runs a script and lists the results of the operations that ran. -/
def run : Script → Draft → Except (Halt StoreError) Draft × List StepResult
  | [], draft => (.ok draft, [])
  | ⟨.panic, _⟩ :: _, _ => (.error .panic, [])
  | ⟨step, mayFail⟩ :: rest, draft =>
    match step.run draft, mayFail with
    | (.failed e, _), false => (.error (.error e), [.failed e])
    | (result, next), _ =>
      let (outcome, results) := run rest next
      (outcome, result :: results)

/-- The body of the edit that a script describes; each run starts with fresh notes. -/
def body (script : Script) : EditBody (List StepResult) StoreError :=
  fun draft _ => script.run draft

end Script

end PrefStore
