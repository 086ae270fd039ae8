import PrefStore.Proofs.Edit.Lawful
import PrefStore.Store.Rulebook

/-!
# Edits and the calls they make

An edit that fails calls nobody. One that is committed calls the listeners for the keys that
were written, and if they are quiet, that is, if they never edit the store themselves, that is
all that happens: keys in ascending order, and for each key every listener once, in the order
of their registration.
-/

namespace PrefStore

variable {β ρ ν ε : Type}

/-- Listeners that never edit the store that calls them, whatever happens. They may still
register others or drop them. -/
def Conduct.Quiet [Conduct ρ] (conduct : ρ) : Prop :=
  ∃ P : ρ → Prop, P conduct ∧ ∀ c, P c → ∀ listener key turn published listeners,
    (∀ script, (Conduct.act c listener key turn published listeners).1 ≠ some (.edit script)) ∧
      P (Conduct.act c listener key turn published listeners).2

/-- Quiet listeners neither edit nor stop being quiet. -/
theorem Conduct.Quiet.act [Conduct ρ] {conduct : ρ} (h : Conduct.Quiet conduct)
    (listener : Nat) (key : String) (turn : Nat) (published : Snapshot) (listeners : Registry) :
    (∀ script, (Conduct.act conduct listener key turn published listeners).1 ≠
      some (.edit script)) ∧
      Conduct.Quiet (Conduct.act conduct listener key turn published listeners).2 := by
  obtain ⟨P, hP, hstep⟩ := h
  have hact := hstep conduct hP listener key turn published listeners
  exact ⟨hact.1, P, hact.2, hstep⟩

/-- Listeners that never act are quiet. -/
theorem Conduct.quiet_unit : Conduct.Quiet () :=
  ⟨fun _ => True, trivial, fun _ _ _ _ _ _ _ => ⟨nofun, trivial⟩⟩

/-- Whether a rule leaves the contents alone. -/
def RuleAction.isQuiet : RuleAction → Bool
  | .set _ _ | .remove _ => false
  | .register _ | .unregister _ => true

/-- A rulebook whose rules neither set nor remove anything is quiet. -/
theorem Rulebook.quiet {book : Rulebook} (h : ∀ rule ∈ book.rules, rule.action.isQuiet = true) :
    Conduct.Quiet book := by
  refine ⟨fun book => ∀ rule ∈ book.rules, rule.action.isQuiet = true, h, ?_⟩
  intro book hbook listener key turn published listeners
  show (∀ script, (book.act listener key turn published listeners).1 ≠ some (.edit script)) ∧
    ∀ rule ∈ (book.act listener key turn published listeners).2.rules, rule.action.isQuiet = true
  have hspend : ∀ rule ∈ (book.spend turn).rules, rule.action.isQuiet = true := by
    intro rule hrule
    obtain ⟨i, hi⟩ := List.mem_iff_getElem?.1 hrule
    rw [Rulebook.spend, List.getElem?_modify] at hi
    obtain ⟨old, hold, rfl⟩ := Option.map_eq_some_iff.1 hi
    have hquiet := hbook old (List.mem_of_getElem? hold)
    split
    · exact hquiet
    · exact hquiet
  unfold Rulebook.act
  split
  · next rule hrule =>
    have hquiet := hbook rule (List.mem_of_getElem? hrule)
    split
    · cases haction : rule.action with
      | set key value | remove key => simp [haction, RuleAction.isQuiet] at hquiet
      | register name => exact ⟨by simp [Rulebook.resolve], hspend⟩
      | unregister name => exact ⟨by simp [Rulebook.resolve], hspend⟩
    · exact ⟨by simp, hbook⟩
  · exact ⟨by simp, hbook⟩

namespace Observed

/-- An edit fails where its commit does, and calls nobody then. -/
theorem edit_eq_error_iff [Backend β] [Conduct ρ] [IncludesStore ε] {o o' : Observed β ρ}
    {body : EditBody ν ε} {notes notes' : ν} {cause : Halt ε} :
    o.edit body notes = (.error cause, notes', o') ↔
      ∃ s, o.store.commit body notes = (.error cause, notes', s) ∧ o' = { o with store := s } := by
  unfold edit editBy
  generalize o.store.commit body notes = result
  obtain ⟨outcome, found, s⟩ := result
  cases outcome with
  | ok touched => simp
  | error cause' =>
    simp only [Prod.mk.injEq, Except.error.injEq]
    constructor
    · rintro ⟨hcause, hnotes, rfl⟩
      exact ⟨s, ⟨hcause, hnotes, rfl⟩, rfl⟩
    · rintro ⟨s', ⟨hcause, hnotes, rfl⟩, rfl⟩
      exact ⟨hcause, hnotes, rfl⟩

/-- An edit succeeds where its commit does, and then calls the listeners for the keys that were
written. -/
theorem edit_eq_ok_iff [Backend β] [Conduct ρ] [IncludesStore ε] {o o' : Observed β ρ}
    {body : EditBody ν ε} {notes notes' : ν} :
    o.edit body notes = (.ok (), notes', o') ↔
      ∃ touched s, o.store.commit body notes = (.ok touched, notes', s) ∧
        o' = notify (respond (Conduct.depth o.conduct) 0) touched { o with store := s } := by
  unfold edit editBy
  generalize o.store.commit body notes = result
  obtain ⟨outcome, found, s⟩ := result
  cases outcome with
  | error cause => simp
  | ok touched =>
    simp only [Prod.mk.injEq, Except.ok.injEq, true_and]
    constructor
    · rintro ⟨hnotes, rfl⟩
      exact ⟨touched, s, ⟨rfl, hnotes, rfl⟩, rfl⟩
    · rintro ⟨touched', s', ⟨rfl, hnotes, rfl⟩, rfl⟩
      exact ⟨hnotes, rfl⟩

/-- A step is edited like any body; there are no notes to keep apart. -/
theorem editStep_eq_iff [Backend β] [Conduct ρ] [IncludesStore ε] {o o' : Observed β ρ}
    {step : Draft → Except ε Draft} {answer : Except (Halt ε) Unit} :
    o.editStep step = (answer, o') ↔ o.edit (.ofStep step) () = (answer, (), o') := by
  unfold editStep
  generalize o.edit (.ofStep step) () = result
  simp [Prod.ext_iff]

/-- One store comes from another by nothing but calls of quiet listeners. -/
structure Hears [Conduct ρ] (o o' : Observed β ρ) (calls : List Call) : Prop where
  backend : o'.store.backend = o.store.backend
  published : o'.store.published = o.store.published
  quiet : Conduct.Quiet o'.conduct
  calls : o'.calls = o.calls ++ calls

section Hears

variable [Conduct ρ] {o o' o'' : Observed β ρ} {calls calls' : List Call}

theorem Hears.refl (hquiet : Conduct.Quiet o.conduct) : Hears o o [] :=
  ⟨rfl, rfl, hquiet, by simp⟩

theorem Hears.trans (h : Hears o o' calls) (h' : Hears o' o'' calls') :
    Hears o o'' (calls ++ calls') where
  backend := h'.backend.trans h.backend
  published := h'.published.trans h.published
  quiet := h'.quiet
  calls := by rw [h'.calls, h.calls, List.append_assoc]

private theorem hears_foldl {α : Type} (step : Observed β ρ → α → Observed β ρ)
    (callsOf : Snapshot → α → List Call)
    (hstep : ∀ o a, Conduct.Quiet o.conduct → Hears o (step o a) (callsOf o.store.published a))
    (items : List α) (hquiet : Conduct.Quiet o.conduct) :
    Hears o (items.foldl step o) (items.flatMap (callsOf o.store.published)) := by
  induction items generalizing o with
  | nil => exact .refl hquiet
  | cons a rest ih =>
    have hfirst := hstep o a hquiet
    have hrest := ih hfirst.quiet
    rw [hfirst.published] at hrest
    rw [List.foldl_cons, List.flatMap_cons]
    exact hfirst.trans hrest

variable [Backend β]

/-- A quiet listener that takes a turn calls nobody. -/
theorem takeTurn_hears {respond : Nat → String → Observed β ρ → Observed β ρ} (listener : Nat)
    (key : String) (turn : Nat) (hquiet : Conduct.Quiet o.conduct) :
    Hears o (takeTurn respond listener key o turn) [] := by
  have hact := hquiet.act listener key turn o.store.published o.store.listeners
  unfold takeTurn
  generalize Conduct.act o.conduct listener key turn o.store.published o.store.listeners = act
    at hact ⊢
  obtain ⟨action, conduct⟩ := act
  match action with
  | none => exact ⟨rfl, rfl, hact.2, by simp⟩
  | some (.edit script) => exact absurd rfl (hact.1 script)
  | some .register => exact ⟨rfl, rfl, hact.2, by simp [perform]⟩
  | some (.unregister _) => exact ⟨rfl, rfl, hact.2, by simp [perform]⟩

/-- A call of a quiet listener is that call and no other. -/
theorem respond_hears (levels depth listener : Nat) (key : String)
    (hquiet : Conduct.Quiet o.conduct) :
    Hears o (respond levels depth listener key o)
      [⟨depth, listener, key, o.store.published⟩] := by
  have hrecord : Hears o (o.record depth listener key)
      [⟨depth, listener, key, o.store.published⟩] := ⟨rfl, rfl, hquiet, rfl⟩
  cases levels with
  | zero => exact hrecord
  | succ levels =>
    have hturns := hears_foldl (takeTurn (respond levels (depth + 1)) listener key)
      (fun _ _ => []) (fun o turn hquiet => takeTurn_hears listener key turn hquiet)
      (List.range (Conduct.turns o.conduct listener key)) hrecord.quiet
    have hnone : (List.range (Conduct.turns o.conduct listener key)).flatMap
        (fun _ => ([] : List Call)) = [] := List.flatMap_eq_nil_iff.2 fun _ _ => rfl
    rw [hnone] at hturns
    exact hrecord.trans hturns

/-- The calls of an edit that wrote certain keys, if nobody acts on them. -/
def callsFor (keys : StringSet) (listeners : List Nat) (published : Snapshot) : List Call :=
  keys.items.flatMap fun key => listeners.map fun listener => ⟨0, listener, key, published⟩

/-- Quiet listeners are notified by one call for each key and each of them. -/
theorem notify_hears (levels : Nat) (keys : StringSet) (hquiet : Conduct.Quiet o.conduct) :
    Hears o (notify (respond levels 0) keys o)
      (callsFor keys o.store.listeners.active o.store.published) := by
  refine hears_foldl _ (fun published key =>
    o.store.listeners.active.map fun listener => ⟨0, listener, key, published⟩)
    (fun o' key hquiet => ?_) keys.items hquiet
  rw [List.map_eq_flatMap]
  exact hears_foldl _ (fun published listener => [⟨0, listener, key, published⟩])
    (fun o listener hquiet => respond_hears levels 0 listener key hquiet) _ hquiet

end Hears

end Observed

end PrefStore
