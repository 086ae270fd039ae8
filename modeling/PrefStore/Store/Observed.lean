import PrefStore.Edit.Script
import PrefStore.Store.Basic

/-!
# Calling listeners

After a commit every listener that is registered at that moment is called once for every key
that the edit wrote: keys in ascending order, and for one key the listeners in the order of
their registration. Listeners may act on the store when they are called. What they then commit
calls listeners in turn, inside the call that caused it.

How listeners act is a `Conduct`, a transition system that is asked for one action at a time.
A conduct states how deep its actions can nest; below that depth listeners are still called,
and act no more.
-/

namespace PrefStore

/-- What a listener may do to the store that calls it. -/
inductive Action where
  | edit (script : Script)
  | register
  | unregister (listener : Nat)
  deriving DecidableEq

/-- How listeners act. -/
class Conduct (ρ : Type) where
  /-- How often a listener that is called for a key may act. -/
  turns : ρ → (listener : Nat) → (key : String) → Nat
  /-- The action that a listener takes in one of its turns, given what it can see. -/
  act : ρ → (listener : Nat) → (key : String) → (turn : Nat) → Snapshot → Registry →
    Option Action × ρ
  /-- How deep actions can nest from here on. -/
  depth : ρ → Nat

/-- Listeners that never act. -/
instance : Conduct Unit where
  turns _ _ _ := 0
  act _ _ _ _ _ _ := (none, ())
  depth _ := 0

/-- One call of a listener: how many other calls it happened inside of, for which key, and the
snapshot that was published when it began. -/
structure Call where
  depth : Nat
  listener : Nat
  key : String
  published : Snapshot
  deriving DecidableEq

/-- A store, the state of its listeners, and the calls that were made, the oldest first. -/
structure Observed (β ρ : Type) where
  store : Store β
  conduct : ρ
  calls : List Call

namespace Observed

variable {β ρ ν ε : Type}

/-- Records a call. -/
def record (o : Observed β ρ) (depth listener : Nat) (key : String) : Observed β ρ :=
  { o with calls := o.calls ++ [⟨depth, listener, key, o.store.published⟩] }

/-- Calls every listener that is registered now for every key of a set, by means of `respond`,
which makes one call. -/
def notify (respond : Nat → String → Observed β ρ → Observed β ρ) (keys : StringSet)
    (o : Observed β ρ) : Observed β ρ :=
  let listeners := o.store.listeners.active
  keys.items.foldl
    (fun o key => listeners.foldl (fun o listener => respond listener key o) o) o

/-- Commits an edit and, if it was committed, calls the listeners. -/
def editBy [Backend β] [IncludesStore ε]
    (respond : Nat → String → Observed β ρ → Observed β ρ) (body : EditBody ν ε) (notes : ν)
    (o : Observed β ρ) : Except (Halt ε) Unit × ν × Observed β ρ :=
  match o.store.commit body notes with
  | (.ok touched, notes, store) => (.ok (), notes, notify respond touched { o with store })
  | (.error cause, notes, store) => (.error cause, notes, { o with store })

/-- Carries out an action; the listener does not learn how it went. -/
def perform [Backend β] (respond : Nat → String → Observed β ρ → Observed β ρ)
    (o : Observed β ρ) : Action → Observed β ρ
  | .edit script => (editBy respond script.body [] o).2.2
  | .register => { o with store := { o.store with listeners := o.store.listeners.register } }
  | .unregister listener =>
    { o with store := { o.store with listeners := o.store.listeners.unregister listener } }

/-- Gives a listener one of its turns. -/
def takeTurn [Backend β] [Conduct ρ] (respond : Nat → String → Observed β ρ → Observed β ρ)
    (listener : Nat) (key : String) (o : Observed β ρ) (turn : Nat) : Observed β ρ :=
  match Conduct.act o.conduct listener key turn o.store.published o.store.listeners with
  | (none, conduct) => { o with conduct }
  | (some action, conduct) => perform respond { o with conduct } action

/-- Makes one call at a given depth, with so many levels of calls allowed inside it. -/
def respond [Backend β] [Conduct ρ] : (levels depth : Nat) → (listener : Nat) →
    (key : String) → Observed β ρ → Observed β ρ
  | 0, depth, listener, key, o => o.record depth listener key
  | levels + 1, depth, listener, key, o =>
    let turns := Conduct.turns o.conduct listener key
    (List.range turns).foldl (takeTurn (respond levels (depth + 1)) listener key)
      (o.record depth listener key)

/-- Commits an edit and calls the listeners. -/
def edit [Backend β] [Conduct ρ] [IncludesStore ε] (o : Observed β ρ) (body : EditBody ν ε)
    (notes : ν) : Except (Halt ε) Unit × ν × Observed β ρ :=
  editBy (respond (Conduct.depth o.conduct) 0) body notes o

/-- Commits an edit without notes. -/
def editStep [Backend β] [Conduct ρ] [IncludesStore ε] (o : Observed β ρ)
    (step : Draft → Except ε Draft) : Except (Halt ε) Unit × Observed β ρ :=
  let (outcome, _, o) := o.edit (.ofStep step) ()
  (outcome, o)

/-- Stores a value at a key. -/
def set [Backend β] [Conduct ρ] (o : Observed β ρ) (key : String) (value : Value) :
    Except (Halt StoreError) Unit × Observed β ρ :=
  o.editStep (·.put key value)

/-- Removes a key. -/
def remove [Backend β] [Conduct ρ] (o : Observed β ρ) (key : String) :
    Except (Halt StoreError) Unit × Observed β ρ :=
  o.editStep (·.remove key)

/-- Stores a value, or removes the key if there is none. -/
def put [Backend β] [Conduct ρ] (o : Observed β ρ) (key : String) :
    Option Value → Except (Halt StoreError) Unit × Observed β ρ
  | some value => o.set key value
  | none => o.remove key

/-- Removes every entry that clients see. -/
def reset [Backend β] [Conduct ρ] (o : Observed β ρ) :
    Except (Halt StoreError) Unit × Observed β ρ :=
  o.editStep fun draft => .ok draft.clear

/-- Runs a script as one edit. -/
def runScript [Backend β] [Conduct ρ] (o : Observed β ρ) (script : Script) :
    Except (Halt StoreError) Unit × List StepResult × Observed β ρ :=
  o.edit script.body []

/-- Publishes what others committed, without calling a listener. -/
def refresh [Backend β] (o : Observed β ρ) : Except StoreError Bool × Observed β ρ :=
  let (outcome, store) := o.store.refresh
  (outcome, { o with store })

end Observed

end PrefStore
