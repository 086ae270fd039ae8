import PrefStore.Store.Observed

/-!
# Listeners with rules

Listeners have names, and a name stands for its latest registration. A rule lets one listener
act once, the first time that it is called for a key: the rule is spent before it acts. Each
nested action spends a rule, so actions nest no deeper than there are rules left.
-/

namespace PrefStore

/-- What a rule does. -/
inductive RuleAction where
  | set (key : String) (value : Value)
  | remove (key : String)
  | register (name : String)
  | unregister (name : String)
  deriving DecidableEq

/-- A rule of a listener. -/
structure Rule where
  listener : Nat
  key : String
  action : RuleAction
  spent : Bool := false
  deriving DecidableEq

/-- The names and rules of the listeners of a store. -/
structure Rulebook where
  /-- The latest registration under each name. -/
  names : Dict Nat
  /-- The name of each registration. -/
  labels : List (Nat × String)
  rules : List Rule

namespace Rulebook

/-- A rulebook without names. -/
def empty : Rulebook := ⟨Dict.empty, [], []⟩

/-- Names a registration. -/
def label (book : Rulebook) (listener : Nat) (name : String) : Rulebook :=
  { book with
    names := book.names.insert name listener
    labels := book.labels ++ [(listener, name)] }

/-- The name of a registration. -/
def nameOf (book : Rulebook) (listener : Nat) : String :=
  (book.labels.lookup listener).getD ""

/-- The number of rules that are not spent. -/
def unspent (book : Rulebook) : Nat := book.rules.countP fun rule => !rule.spent

/-- Spends a rule. -/
def spend (book : Rulebook) (turn : Nat) : Rulebook :=
  { book with rules := book.rules.modify turn fun rule => { rule with spent := true } }

/-- The action of a spent rule. -/
def resolve (book : Rulebook) (registry : Registry) : RuleAction → Option Action × Rulebook
  | .set key value => (some (.edit [⟨.put key value, false⟩]), book)
  | .remove key => (some (.edit [⟨.remove key, false⟩]), book)
  | .register name => (some .register, book.label registry.next name)
  | .unregister name => ((book.names.get? name).map .unregister, book)

/-- One turn of a listener: it may use the rule of that number. -/
def act (book : Rulebook) (listener : Nat) (key : String) (turn : Nat) (_ : Snapshot)
    (registry : Registry) : Option Action × Rulebook :=
  match book.rules[turn]? with
  | some rule =>
    if rule.listener = listener ∧ rule.key = key ∧ rule.spent = false then
      (book.spend turn).resolve registry rule.action
    else (none, book)
  | none => (none, book)

instance : Conduct Rulebook where
  turns book _ _ := book.rules.length
  act := act
  depth := unspent

end Rulebook

end PrefStore
