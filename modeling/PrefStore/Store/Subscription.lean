import PrefStore.Snapshot

/-!
# Subscriptions

A subscription follows the value at one key, read as the kind of its default. A poll yields
the value if it differs from the one yielded last; otherwise it waits, or the subscription has
ended because its store has. Values that agree count as one.
-/

namespace PrefStore

/-- A subscription and the value that it yielded last. -/
structure Subscription where
  key : String
  default : Value
  last : Option Value
  deriving DecidableEq

/-- What a poll gives. -/
inductive Poll where
  | yielded (value : Value)
  | pending
  | ended
  deriving DecidableEq

namespace Subscription

/-- A subscription that has yielded nothing yet. -/
def start (key : String) (default : Value) : Subscription := ⟨key, default, none⟩

/-- The value in a published snapshot: what stands at the key, read as the kind of the default, or
else the default, and that at a reserved key in any case. -/
def current (s : Subscription) (published : Snapshot) : Value :=
  if isReserved s.key then s.default
  else ((published.get? s.key).bind (·.readAs s.default.kind)).getD s.default

/-- The value is the one that a store reads with the default. -/
theorem current_eq_readOr (s : Subscription) (published : Snapshot) :
    s.current published = published.readOr s.key s.default := by
  unfold current Snapshot.readOr Snapshot.readAs Snapshot.visibleAt
  split <;> rfl

/-- Whether a value agrees with the one yielded last. -/
def repeats (s : Subscription) (value : Value) : Bool :=
  match s.last with
  | some last => last.same value
  | none => false

/-- Polls once, given the published snapshot and whether the store still has a handle. -/
def poll (s : Subscription) (published : Snapshot) (alive : Bool) : Poll × Subscription :=
  let value := s.current published
  if s.repeats value then (if alive then .pending else .ended, s)
  else (.yielded value, { s with last := some value })

end Subscription

end PrefStore
