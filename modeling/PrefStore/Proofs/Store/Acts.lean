import PrefStore.Proofs.Edit.Lawful
import PrefStore.Store.Observed

/-!
# Operations as acts

Whatever is done with a store is a sequence of indivisible acts: commits, refreshes, and what
happens to its listeners in between. An edit is a commit that is followed by the acts of the
listeners that it calls, however deep they nest. Every operation of a client comes down to such
acts, so what every act preserves, every operation preserves.
-/

namespace PrefStore

namespace Observed

variable {β ρ ν ε : Type} [Backend β]

/-- What can be done to a store without anything happening to it in between. -/
inductive Act (o : Observed β ρ) : Observed β ρ → Prop where
  | commit {ν ε : Type} [IncludesStore ε] (edit : Edit ν ε) (notes : ν) :
      Act o { o with store := (o.store.commit edit.body notes).2.2 }
  | refresh : Act o o.refresh.2
  /-- Something happens to the listeners, or a call is recorded. -/
  | listen {o' : Observed β ρ} (hbackend : o'.store.backend = o.store.backend)
      (hpublished : o'.store.published = o.store.published) : Act o o'

/-- One store comes from another by acts. -/
def Acts : Observed β ρ → Observed β ρ → Prop := Relation.ReflTransGen Act

theorem Acts.refl (o : Observed β ρ) : o.Acts o := Relation.ReflTransGen.refl

theorem Acts.trans {o o' o'' : Observed β ρ} (h : o.Acts o') (h' : o'.Acts o'') : o.Acts o'' :=
  Relation.ReflTransGen.trans h h'

/-- One act is a sequence of acts. -/
theorem Act.acts {o o' : Observed β ρ} (h : o.Act o') : o.Acts o' :=
  Relation.ReflTransGen.single h

/-- What every act preserves holds after acts if it held before. -/
theorem Acts.preserves {P : Observed β ρ → Prop} (hstep : ∀ {o o'}, Act o o' → P o → P o')
    {o o' : Observed β ρ} (h : o.Acts o') (hP : P o) : P o' := by
  induction h with
  | refl => exact hP
  | tail _ hact ih => exact hstep hact ih

/-- What happens to the listeners only is an act. -/
theorem acts_of_listen {o o' : Observed β ρ} (hbackend : o'.store.backend = o.store.backend)
    (hpublished : o'.store.published = o.store.published) : o.Acts o' :=
  (Act.listen hbackend hpublished).acts

private theorem acts_record (o : Observed β ρ) (depth listener : Nat) (key : String) :
    o.Acts (o.record depth listener key) :=
  acts_of_listen rfl rfl

private theorem acts_foldl {α : Type} {step : Observed β ρ → α → Observed β ρ}
    (hstep : ∀ o a, Acts o (step o a)) (items : List α) (o : Observed β ρ) :
    o.Acts (items.foldl step o) := by
  induction items generalizing o with
  | nil => exact .refl o
  | cons a rest ih => exact (hstep o a).trans (ih (step o a))

section Responding

variable {respond : Nat → String → Observed β ρ → Observed β ρ}
  (hrespond : ∀ listener key o, Acts o (respond listener key o))

include hrespond

/-- Listeners that respond by acts are notified by acts. -/
theorem notify_acts (keys : StringSet) (o : Observed β ρ) : o.Acts (notify respond keys o) := by
  refine acts_foldl (fun o key => ?_) keys.items o
  exact acts_foldl (fun o listener => hrespond listener key o) _ o

/-- An edit whose listeners respond by acts is done by acts. -/
theorem editBy_acts [IncludesStore ε] (edit : Edit ν ε) (notes : ν) (o : Observed β ρ) :
    o.Acts (editBy respond edit.body notes o).2.2 := by
  have hcommit := (Act.commit (o := o) edit notes).acts
  unfold editBy
  generalize o.store.commit edit.body notes = result at hcommit ⊢
  obtain ⟨outcome, notes', store⟩ := result
  cases outcome with
  | error cause => exact hcommit
  | ok touched => exact hcommit.trans (notify_acts hrespond touched _)

/-- What a listener does is done by acts. -/
theorem perform_acts (o : Observed β ρ) (action : Action) : o.Acts (perform respond o action) := by
  cases action with
  | edit script => exact editBy_acts hrespond script.edit [] o
  | register => exact acts_of_listen rfl rfl
  | unregister listener => exact acts_of_listen rfl rfl

/-- A turn of a listener is taken by acts. -/
theorem takeTurn_acts [Conduct ρ] (listener : Nat) (key : String) (o : Observed β ρ)
    (turn : Nat) : o.Acts (takeTurn respond listener key o turn) := by
  unfold takeTurn
  split
  · exact acts_of_listen rfl rfl
  · next action conduct _ =>
    have hconduct : o.Acts { o with conduct } := acts_of_listen rfl rfl
    exact hconduct.trans (perform_acts hrespond { o with conduct } action)

end Responding

/-- Listeners respond by acts, whatever the depth. -/
theorem respond_acts [Conduct ρ] (levels depth listener : Nat) (key : String)
    (o : Observed β ρ) : o.Acts (respond levels depth listener key o) := by
  induction levels generalizing depth listener key o with
  | zero => exact acts_record o depth listener key
  | succ levels ih =>
    refine (acts_record o depth listener key).trans (acts_foldl (fun o turn => ?_) _ _)
    exact takeTurn_acts (ih (depth + 1)) listener key o turn

/-- An edit is done by acts. -/
theorem edit_acts [Conduct ρ] [IncludesStore ε] (o : Observed β ρ) (edit : Edit ν ε) (notes : ν) :
    o.Acts (o.edit edit.body notes).2.2 :=
  editBy_acts (respond_acts _ 0) edit notes o

variable [Conduct ρ]

/-- What a client can do with a store in one call. -/
inductive Operation (o : Observed β ρ) : Observed β ρ → Prop where
  | edit {ν ε : Type} [IncludesStore ε] (edit : Edit ν ε) (notes : ν) :
      Operation o (o.edit edit.body notes).2.2
  | set (key : String) (value : Value) : Operation o (o.set key value).2
  | remove (key : String) : Operation o (o.remove key).2
  | put (key : String) (value : Option Value) : Operation o (o.put key value).2
  | reset : Operation o o.reset.2
  | runScript (script : Script) : Operation o (o.runScript script).2.2
  | importDocument (document : Document) : Operation o (o.importDocument document).2
  | importJson (json : Json) : Operation o (o.importJson json).2
  | importPairs (pairs : List LegacyRecord) : Operation o (o.importPairs pairs).2
  | refresh : Operation o o.refresh.2

/-- An import of a document is done by acts, if it gets as far as an edit. -/
theorem importDocument_acts (o : Observed β ρ) (document : Document) :
    o.Acts (o.importDocument document).2 := by
  unfold importDocument
  split
  · exact .refl o
  · next values _ => exact o.edit_acts (.replace values) ()

/-- Whatever a client does is done by acts. -/
theorem Operation.acts {o o' : Observed β ρ} (h : o.Operation o') : o.Acts o' := by
  cases h with
  | edit edit notes => exact o.edit_acts edit notes
  | set key value => exact o.edit_acts (.put key value) ()
  | remove key => exact o.edit_acts (.remove key) ()
  | put key value =>
    cases value with
    | some value => exact o.edit_acts (.put key value) ()
    | none => exact o.edit_acts (.remove key) ()
  | reset => exact o.edit_acts .clear ()
  | runScript script => exact o.edit_acts script.edit []
  | importDocument document => exact o.importDocument_acts document
  | importJson json =>
    unfold Observed.importJson
    dsimp only
    split
    · exact .refl o
    · next document _ => exact o.importDocument_acts document
  | importPairs pairs =>
    unfold Observed.importPairs
    split
    · exact .refl o
    · exact o.edit_acts (.pairs pairs) 0
  | refresh => exact Act.refresh.acts

end Observed

end PrefStore
