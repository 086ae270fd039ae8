import PrefStore.Backup.Transfer

/-!
# Stores in lockstep

Two stores with the same listeners, over backends that may differ, run in lockstep where a
relation between them survives whatever happens to both: a call is recorded, a listener comes or
goes, listeners decide on their next action, and the edits that they decide on are committed.
Every edit that ends alike on related stores then also causes the same calls, however deep
they nest, and leaves the stores related.
-/

namespace PrefStore

/-- Both sides answer the same and end up related. -/
def Paired {α A B : Type} (R : A → B → Prop) (x : α × A) (y : α × B) : Prop :=
  y.1 = x.1 ∧ R x.2 y.2

namespace Observed

variable {β γ ρ ν ε : Type} [Backend β] [Backend γ] {R : Observed β ρ → Observed γ ρ → Prop}

/-- The edits of a body end alike on related stores. -/
def Follows [IncludesStore ε] (R : Observed β ρ → Observed γ ρ → Prop) (body : EditBody ν ε) :
    Prop :=
  ∀ {o o'}, R o o' → ∀ notes,
    Paired (Paired fun store store' => R { o with store } { o' with store := store' })
      (o.store.commit body notes) (o'.store.commit body notes)

variable [Conduct ρ]

/-- A relation that survives whatever listeners do to both stores. -/
structure Lockstep (R : Observed β ρ → Observed γ ρ → Prop) : Prop where
  conduct : ∀ {o o'}, R o o' → o'.conduct = o.conduct
  listeners : ∀ {o o'}, R o o' → o'.store.listeners = o.store.listeners
  record : ∀ {o o'}, R o o' → ∀ depth listener key,
    R (o.record depth listener key) (o'.record depth listener key)
  listen : ∀ {o o'}, R o o' → ∀ listeners, R { o with store := { o.store with listeners } }
    { o' with store := { o'.store with listeners } }
  act : ∀ {o o'}, R o o' → ∀ listener key turn,
    Paired (fun conduct conduct' => R { o with conduct } { o' with conduct := conduct' })
      (Conduct.act o.conduct listener key turn o.store.published o.store.listeners)
      (Conduct.act o'.conduct listener key turn o'.store.published o'.store.listeners)
  /-- The scripts that listeners decide to run end alike. -/
  script : ∀ {o o'}, R o o' → ∀ listener key turn script,
    (Conduct.act o.conduct listener key turn o.store.published o.store.listeners).1 =
      some (.edit script) → Follows R script.body

namespace Lockstep

variable {o : Observed β ρ} {o' : Observed γ ρ}

section Responding

variable {respond : Nat → String → Observed β ρ → Observed β ρ}
  {respond' : Nat → String → Observed γ ρ → Observed γ ρ}
  (hrespond : ∀ {o o'}, R o o' → ∀ listener key,
    R (respond listener key o) (respond' listener key o'))

include hrespond

/-- The same listeners are notified of the same keys. -/
theorem notify (h : Lockstep R) (keys : StringSet) (ho : R o o') :
    R (Observed.notify respond keys o) (Observed.notify respond' keys o') := by
  unfold Observed.notify
  rw [h.listeners ho]
  refine List.foldl_rel ho fun key _ o o' ho => ?_
  exact List.foldl_rel ho fun listener _ o o' ho => hrespond ho listener key

/-- An edit ends alike and calls the same listeners. -/
theorem editBy [IncludesStore ε] (h : Lockstep R) {body : EditBody ν ε} (hbody : Follows R body)
    (notes : ν) (ho : R o o') :
    Paired (Paired R) (Observed.editBy respond body notes o)
      (Observed.editBy respond' body notes o') := by
  have hcommit := hbody ho notes
  unfold Observed.editBy
  generalize o.store.commit body notes = ended at hcommit ⊢
  generalize o'.store.commit body notes = ended' at hcommit ⊢
  obtain ⟨outcome, found, store⟩ := ended
  obtain ⟨outcome', found', store'⟩ := ended'
  obtain ⟨rfl, rfl, hstore⟩ := hcommit
  cases outcome' with
  | error cause => exact ⟨rfl, rfl, hstore⟩
  | ok touched => exact ⟨rfl, rfl, h.notify hrespond touched hstore⟩

/-- An action comes to the same. -/
theorem perform (h : Lockstep R) {action : Action}
    (hscript : ∀ script, action = .edit script → Follows R script.body) (ho : R o o') :
    R (Observed.perform respond o action) (Observed.perform respond' o' action) := by
  cases action with
  | edit script => exact (h.editBy hrespond (hscript script rfl) [] ho).2.2
  | register =>
    unfold Observed.perform
    rw [h.listeners ho]
    exact h.listen ho o.store.listeners.register
  | unregister listener =>
    unfold Observed.perform
    rw [h.listeners ho]
    exact h.listen ho (o.store.listeners.unregister listener)

/-- A listener uses its turn in the same way. -/
theorem takeTurn (h : Lockstep R) (listener : Nat) (key : String) (turn : Nat) (ho : R o o') :
    R (Observed.takeTurn respond listener key o turn)
      (Observed.takeTurn respond' listener key o' turn) := by
  have hact := h.act ho listener key turn
  have hscript := h.script ho listener key turn
  unfold Observed.takeTurn
  generalize Conduct.act o.conduct listener key turn o.store.published o.store.listeners = decided
    at hact hscript ⊢
  generalize Conduct.act o'.conduct listener key turn o'.store.published o'.store.listeners =
    decided' at hact ⊢
  obtain ⟨action, conduct⟩ := decided
  obtain ⟨action', conduct'⟩ := decided'
  obtain ⟨rfl, hconduct⟩ := hact
  cases action' with
  | none => exact hconduct
  | some action =>
    exact h.perform hrespond (fun script haction => hscript script (congrArg some haction)) hconduct

end Responding

/-- A call comes to the same, with all the calls inside of it. -/
theorem respond (h : Lockstep R) (levels depth listener : Nat) (key : String) (ho : R o o') :
    R (Observed.respond levels depth listener key o)
      (Observed.respond levels depth listener key o') := by
  induction levels generalizing depth listener key o o' with
  | zero => exact h.record ho depth listener key
  | succ levels ih =>
    unfold Observed.respond
    dsimp only
    rw [h.conduct ho]
    refine List.foldl_rel (h.record ho depth listener key) fun turn _ o o' ho => ?_
    exact h.takeTurn (fun ho listener key => ih (depth + 1) listener key ho) listener key turn ho

variable [IncludesStore ε]

/-- An edit comes to the same, with all the calls that it causes. -/
theorem edit (h : Lockstep R) {body : EditBody ν ε} (hbody : Follows R body) (notes : ν)
    (ho : R o o') : Paired (Paired R) (o.edit body notes) (o'.edit body notes) := by
  unfold Observed.edit
  rw [h.conduct ho]
  exact h.editBy (fun ho listener key => h.respond _ 0 listener key ho) hbody notes ho

/-- An edit without notes comes to the same. -/
theorem editStep (h : Lockstep R) {step : Draft → Except ε Draft}
    (hstep : Follows R (.ofStep step)) (ho : R o o') :
    Paired R (o.editStep step) (o'.editStep step) := by
  obtain ⟨houtcome, -, hrelated⟩ := h.edit hstep () ho
  exact ⟨houtcome, hrelated⟩

omit [IncludesStore ε] in
/-- An import of a document comes to the same. -/
theorem importDocument (h : Lockstep R)
    (hstep : ∀ values, Follows R (.ofStep fun draft => draft.clear.putAll values))
    (document : Document) (ho : R o o') :
    Paired R (o.importDocument document) (o'.importDocument document) := by
  unfold Observed.importDocument
  cases document.decode with
  | error cause => exact ⟨rfl, ho⟩
  | ok values => exact h.editStep (hstep values) ho

omit [IncludesStore ε] in
/-- An import of a tree comes to the same. -/
theorem importJson (h : Lockstep R)
    (hstep : ∀ values, Follows R (.ofStep fun draft => draft.clear.putAll values))
    (json : Json) (ho : R o o') : Paired R (o.importJson json) (o'.importJson json) := by
  unfold Observed.importJson
  dsimp only
  split
  · exact ⟨rfl, ho⟩
  · next document _ => exact h.importDocument hstep document ho

omit [IncludesStore ε] in
/-- An import of legacy pairs comes to the same. -/
theorem importPairs (h : Lockstep R) {pairs : List LegacyRecord}
    (hbody : Follows R (pairsBody pairs)) (ho : R o o') :
    Paired R (o.importPairs pairs) (o'.importPairs pairs) := by
  unfold Observed.importPairs
  cases checkPairs pairs with
  | error cause => exact ⟨rfl, ho⟩
  | ok _ =>
    obtain ⟨houtcome, -, hrelated⟩ := h.edit hbody 0 ho
    exact ⟨houtcome, hrelated⟩

end Lockstep

end Observed

end PrefStore
