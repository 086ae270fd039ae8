import PrefStore.Proofs.Client.Reserved
import PrefStore.Proofs.Store.Commit
import PrefStore.Proofs.Store.Lockstep
import PrefStore.Store.Rulebook

/-!
# Stores with other reserved entries

Listeners are blind if they see what clients see and edit as clients do. A store in memory whose
listeners are blind does not depend on its reserved entries: with other ones every edit comes to
the same, calls the same listeners inside of the same calls, and leaves the same store, with
these entries.
-/

namespace PrefStore

variable {ρ ν ε α : Type}

/-- Whether an action is one that clients have. -/
def Action.isClient : Action → Bool
  | edit script => script.isClient
  | register | unregister _ => true

/-- Listeners that see no reserved entry and act as clients only, whatever happens. -/
def Conduct.Blind [Conduct ρ] (conduct : ρ) : Prop :=
  ∃ P : ρ → Prop, P conduct ∧ ∀ c, P c → ∀ listener key turn published listeners,
    (∀ published', Snapshot.visible published = Snapshot.visible published' →
      Conduct.act c listener key turn published listeners =
        Conduct.act c listener key turn published' listeners) ∧
    (∀ action, (Conduct.act c listener key turn published listeners).1 = some action →
      action.isClient = true) ∧
    P (Conduct.act c listener key turn published listeners).2

/-- Blind listeners take the same action with other reserved entries, an action of a client, and
stay blind. -/
theorem Conduct.Blind.act [Conduct ρ] {conduct : ρ} (h : Conduct.Blind conduct) (listener : Nat)
    (key : String) (turn : Nat) (published : Snapshot) (listeners : Registry) :
    (∀ r, Conduct.act conduct listener key turn (published.withReserved r) listeners =
      Conduct.act conduct listener key turn published listeners) ∧
    (∀ action, (Conduct.act conduct listener key turn published listeners).1 = some action →
      action.isClient = true) ∧
    Conduct.Blind (Conduct.act conduct listener key turn published listeners).2 := by
  obtain ⟨P, hP, hstep⟩ := h
  obtain ⟨hsees, hclient, hnext⟩ := hstep conduct hP listener key turn published listeners
  exact ⟨fun r => (hsees _ (published.visible_withReserved r).symm).symm, hclient, P, hnext, hstep⟩

/-- Rules set and remove as clients do, and do not look at the store. -/
theorem Rulebook.blind (book : Rulebook) : Conduct.Blind book := by
  refine ⟨fun _ => True, trivial, fun book _ listener key turn published listeners => ?_⟩
  refine ⟨fun _ _ => rfl, ?_, trivial⟩
  show ∀ action, (book.act listener key turn published listeners).1 = some action →
    action.isClient = true
  intro action haction
  unfold Rulebook.act at haction
  split at haction
  · next rule _ =>
    split at haction
    · cases hrule : rule.action with
      | set key value | remove key | register name =>
        simp only [hrule, resolve, Option.some.injEq] at haction
        subst haction
        rfl
      | unregister name =>
        simp only [hrule, resolve, Option.map_eq_some_iff] at haction
        obtain ⟨listener, -, rfl⟩ := haction
        rfl
    · cases haction
  · cases haction

/-- A store in memory with other reserved entries. -/
def Store.withReserved (s : Store Memory) (r : Snapshot) : Store Memory :=
  ⟨⟨s.contents.withReserved r⟩, s.published.withReserved r, s.listeners⟩

/-- A blind edit comes to the same. -/
theorem Store.commit_withReserved [IncludesStore ε] {body : EditBody ν ε} (hbody : body.Blind)
    (s : Store Memory) (r : Snapshot) (notes : ν) :
    (s.withReserved r).commit body notes = ((s.commit body notes).1, (s.commit body notes).2.1,
      (s.commit body notes).2.2.withReserved r) := by
  have hdraft : (s.withReserved r).draft = s.draft.withReserved r := rfl
  rw [commit_memory, commit_memory, hdraft, hbody]
  generalize body s.draft notes = ended
  obtain ⟨outcome, found⟩ := ended
  cases outcome <;> rfl

/-- A call with other reserved entries. -/
def Call.withReserved (call : Call) (r : Snapshot) : Call :=
  { call with published := call.published.withReserved r }

namespace Observed

/-- A store and its calls with other reserved entries. -/
def withReserved (o : Observed Memory ρ) (r : Snapshot) : Observed Memory ρ :=
  ⟨o.store.withReserved r, o.conduct, o.calls.map (·.withReserved r)⟩

/-- A store and its calls, and the same with other reserved entries; the listeners are blind. -/
def Twinned [Conduct ρ] (r : Snapshot) (o o' : Observed Memory ρ) : Prop :=
  Conduct.Blind o.conduct ∧ o' = o.withReserved r

variable [Conduct ρ]

/-- Blind edits end alike. -/
theorem follows_withReserved [IncludesStore ε] {body : EditBody ν ε} (hbody : body.Blind)
    (r : Snapshot) : Follows (ρ := ρ) (Twinned r) body := by
  rintro o _ ⟨hblind, rfl⟩ notes
  have hstore : (o.withReserved r).store = o.store.withReserved r := rfl
  rw [hstore, Store.commit_withReserved hbody]
  exact ⟨rfl, rfl, hblind, rfl⟩

/-- Stores with blind listeners run in lockstep if they differ by reserved entries only. -/
theorem lockstep_withReserved (r : Snapshot) : Lockstep (ρ := ρ) (Twinned r) where
  conduct := by
    rintro o _ ⟨-, rfl⟩
    rfl
  listeners := by
    rintro o _ ⟨-, rfl⟩
    rfl
  record := by
    rintro o _ ⟨hblind, rfl⟩ depth listener key
    refine ⟨hblind, ?_⟩
    simp [record, Observed.withReserved, Store.withReserved, Call.withReserved]
  listen := by
    rintro o _ ⟨hblind, rfl⟩ listeners
    exact ⟨hblind, rfl⟩
  act := by
    rintro o _ ⟨hblind, rfl⟩ listener key turn
    obtain ⟨hsame, -, hnext⟩ := hblind.act listener key turn o.store.published o.store.listeners
    rw [show Conduct.act (o.withReserved r).conduct listener key turn
      (o.withReserved r).store.published (o.withReserved r).store.listeners = _ from hsame r]
    exact ⟨rfl, hnext, rfl⟩
  script := by
    rintro o _ ⟨hblind, rfl⟩ listener key turn script hscript
    obtain ⟨-, hclient, -⟩ := hblind.act listener key turn o.store.published o.store.listeners
    exact follows_withReserved (Script.blind_body (hclient (.edit script) hscript)) r

/-- An operation that comes to the same with other reserved entries if the listeners are blind,
and leaves them blind. -/
structure Oblivious (f : Observed Memory ρ → α × Observed Memory ρ) : Prop where
  same : ∀ o r, Conduct.Blind o.conduct → f (o.withReserved r) = ((f o).1, (f o).2.withReserved r)
  blind : ∀ o, Conduct.Blind o.conduct → Conduct.Blind (f o).2.conduct

/-- Operations that end alike on twinned stores come to the same. -/
theorem oblivious_of_paired {f : Observed Memory ρ → α × Observed Memory ρ}
    (h : ∀ r {o o'}, Twinned r o o' → Paired (Twinned r) (f o) (f o')) : Oblivious f where
  same o r hblind := by
    obtain ⟨hanswer, -, hstore⟩ := h r ⟨hblind, rfl⟩
    exact Prod.ext hanswer hstore
  blind o hblind := (h Dict.empty ⟨hblind, rfl⟩).2.1

/-- A step that does not depend on the reserved entries makes an edit of which this is true. -/
theorem oblivious_editStep [IncludesStore ε] {step : Draft → Except ε Draft}
    (h : ∀ d r, step (d.withReserved r) = (step d).map (·.withReserved r)) :
    Oblivious (ρ := ρ) (·.editStep step) :=
  oblivious_of_paired fun r _ _ ho => (lockstep_withReserved r).editStep
    (follows_withReserved (EditBody.blind_ofStep h) r) ho

/-- A value is set in the same way. -/
theorem oblivious_set (key : String) (value : Value) : Oblivious (ρ := ρ) (·.set key value) :=
  oblivious_editStep fun d r => d.put_withReserved r key value

/-- A key is removed in the same way. -/
theorem oblivious_remove (key : String) : Oblivious (ρ := ρ) (·.remove key) :=
  oblivious_editStep fun d r => d.remove_withReserved r key

/-- A value is stored or a key removed in the same way. -/
theorem oblivious_put (key : String) (value : Option Value) :
    Oblivious (ρ := ρ) (·.put key value) := by
  cases value with
  | some value => exact oblivious_set key value
  | none => exact oblivious_remove key

/-- All that clients see is removed in the same way. -/
theorem oblivious_reset : Oblivious (ρ := ρ) (·.reset) :=
  oblivious_editStep fun d r => congrArg Except.ok (d.clear_withReserved r)

/-- The script of a client is run in the same way. -/
theorem oblivious_runScript {script : Script} (h : script.isClient = true) :
    Oblivious (ρ := ρ) fun o =>
      (((o.runScript script).1, (o.runScript script).2.1), (o.runScript script).2.2) := by
  refine oblivious_of_paired fun r o o' ho => ?_
  have hbody : Follows (ρ := ρ) (Twinned r) script.body :=
    follows_withReserved (Script.blind_body h) r
  obtain ⟨houtcome, hresults, hstore⟩ := (lockstep_withReserved r).edit hbody [] ho
  exact ⟨Prod.ext houtcome hresults, hstore⟩

/-- The step of an import of entries does not depend on the reserved entries. -/
theorem follows_replace (values : List (String × Value)) (r : Snapshot) :
    Follows (ρ := ρ) (ε := ImportError) (Twinned r)
      (.ofStep fun draft => draft.clear.putAll values) := by
  refine follows_withReserved (EditBody.blind_ofStep fun d r => ?_) r
  rw [d.clear_withReserved, Draft.putAll_withReserved]

/-- A document is imported in the same way. -/
theorem oblivious_importDocument (document : Document) :
    Oblivious (ρ := ρ) (·.importDocument document) :=
  oblivious_of_paired fun r _ _ ho =>
    (lockstep_withReserved r).importDocument (follows_replace · r) document ho

/-- A tree is imported in the same way. -/
theorem oblivious_importJson (json : Json) : Oblivious (ρ := ρ) (·.importJson json) :=
  oblivious_of_paired fun r _ _ ho =>
    (lockstep_withReserved r).importJson (follows_replace · r) json ho

/-- Legacy pairs are imported in the same way. -/
theorem oblivious_importPairs (pairs : List LegacyRecord) :
    Oblivious (ρ := ρ) (·.importPairs pairs) :=
  oblivious_of_paired fun r _ _ ho =>
    (lockstep_withReserved r).importPairs (follows_withReserved (blind_pairsBody pairs) r) ho

end Observed

end PrefStore
