import Mathlib.Data.List.Induction
import PrefStore.Store.Basic

/-!
# Registrations

A registry changes by registrations and by drops. The numbers that it gives out strictly
increase, so no number is given out twice, whatever is dropped in between. A listener is there
exactly if it was registered and has not been dropped since, and the listeners stand in the
order of their registration.
-/

namespace PrefStore

/-- A change of a registry. -/
inductive Registration where
  | register
  | unregister (listener : Nat)
  deriving DecidableEq

namespace Registry

/-- Makes one change. -/
def change (r : Registry) : Registration → Registry
  | .register => r.register
  | .unregister listener => r.unregister listener

/-- The registry after changes to the empty one. -/
def after (changes : List Registration) : Registry := changes.foldl change empty

/-- A listener was registered by one of the changes, and none that followed dropped it. -/
def Remains (changes : List Registration) (listener : Nat) : Prop :=
  ∃ before later, changes = before ++ .register :: later ∧ (after before).next = listener ∧
    .unregister listener ∉ later

@[simp] theorem after_snoc (changes : List Registration) (last : Registration) :
    after (changes ++ [last]) = (after changes).change last := by
  simp [after]

private theorem next_after (changes : List Registration) :
    (after changes).next = changes.count .register := by
  induction changes using List.reverseRecOn with
  | nil => rfl
  | append_singleton changes last ih =>
    rw [after_snoc, List.count_append]
    cases last with
    | register => simp [change, register, ih]
    | unregister listener => simp [change, unregister, ih]

/-- A number that has been given out is not given out again. -/
theorem next_lt_next_after (before later : List Registration) :
    (after before).next < (after (before ++ .register :: later)).next := by
  rw [next_after, next_after, List.count_append, List.count_cons_self]
  omega

/-- The registration among changes is the last of them or stands before it. -/
private theorem snoc_eq_iff {changes before later : List Registration} {last : Registration} :
    changes ++ [last] = before ++ .register :: later ↔
      (changes = before ∧ last = .register ∧ later = []) ∨
        ∃ rest, changes = before ++ .register :: rest ∧ later = rest ++ [last] := by
  constructor
  · intro h
    rcases List.eq_nil_or_concat later with rfl | ⟨rest, other, rfl⟩
    · obtain ⟨rfl, hlast⟩ := List.append_inj' h rfl
      exact .inl ⟨rfl, by simpa using hlast, rfl⟩
    · have hsplit : changes ++ [last] = (before ++ .register :: rest) ++ [other] := by
        simpa using h
      obtain ⟨hchanges, hlast⟩ := List.append_inj' hsplit rfl
      obtain rfl : last = other := by simpa using hlast
      exact .inr ⟨rest, hchanges, by simp⟩
  · rintro (⟨rfl, rfl, rfl⟩ | ⟨rest, rfl, rfl⟩)
    · rfl
    · simp

/-- Whatever remained before a registration remains, and the new listener does. -/
theorem remains_register {changes : List Registration} {listener : Nat} :
    Remains (changes ++ [.register]) listener ↔
      Remains changes listener ∨ listener = (after changes).next := by
  constructor
  · rintro ⟨before, later, hchanges, hnext, hlater⟩
    rcases snoc_eq_iff.1 hchanges with ⟨rfl, -, -⟩ | ⟨rest, hrest, rfl⟩
    · exact .inr hnext.symm
    · exact .inl ⟨before, rest, hrest, hnext, fun hmem => hlater (by simp [hmem])⟩
  · rintro (⟨before, later, rfl, hnext, hlater⟩ | rfl)
    · exact ⟨before, later ++ [.register], by simp, hnext, by simpa using hlater⟩
    · exact ⟨changes, [], rfl, rfl, List.not_mem_nil⟩

/-- Whatever remained before a drop remains, except the listener that is dropped. -/
theorem remains_unregister {changes : List Registration} {dropped listener : Nat} :
    Remains (changes ++ [.unregister dropped]) listener ↔
      Remains changes listener ∧ listener ≠ dropped := by
  constructor
  · rintro ⟨before, later, hchanges, hnext, hlater⟩
    rcases snoc_eq_iff.1 hchanges with ⟨-, hlast, -⟩ | ⟨rest, hrest, rfl⟩
    · cases hlast
    · refine ⟨⟨before, rest, hrest, hnext, fun hmem => hlater (by simp [hmem])⟩, ?_⟩
      rintro rfl
      exact hlater (by simp)
  · rintro ⟨⟨before, later, rfl, hnext, hlater⟩, hne⟩
    exact ⟨before, later ++ [.unregister dropped], by simp, hnext, by simp [hlater, hne]⟩

/-- A listener is there exactly if it was registered and has not been dropped since. -/
theorem mem_active_after {changes : List Registration} {listener : Nat} :
    listener ∈ (after changes).active ↔ Remains changes listener := by
  induction changes using List.reverseRecOn with
  | nil =>
    have hnone : ¬ Remains [] listener := by
      rintro ⟨before, later, hchanges, -⟩
      simp at hchanges
    simpa [after, empty] using hnone
  | append_singleton changes last ih =>
    rw [after_snoc]
    cases last with
    | register => rw [remains_register, ← ih]; simp [change, register]
    | unregister dropped => rw [remains_unregister, ← ih]; simp [change, unregister]

private theorem lt_next_of_mem_active {changes : List Registration} {listener : Nat}
    (h : listener ∈ (after changes).active) : listener < (after changes).next := by
  obtain ⟨before, later, rfl, rfl, -⟩ := mem_active_after.1 h
  exact next_lt_next_after before later

/-- The listeners stand in the order of their numbers. -/
theorem active_after_ascending (changes : List Registration) :
    (after changes).active.Pairwise (· < ·) := by
  induction changes using List.reverseRecOn with
  | nil => exact List.Pairwise.nil
  | append_singleton changes last ih =>
    rw [after_snoc]
    cases last with
    | register =>
      refine List.pairwise_append.2 ⟨ih, List.pairwise_singleton _ _, ?_⟩
      intro listener hmem new hnew
      obtain rfl := List.mem_singleton.1 hnew
      exact lt_next_of_mem_active hmem
    | unregister dropped => exact ih.filter _

end Registry

end PrefStore
