import PrefStore.Proofs.Backup.RoundTrip
import PrefStore.Proofs.Store.Refinement

/-!
# What a database keeps of what a store publishes

A store publishes the draft that it commits, but the database is given only the values that do not
agree with those before. Values that agree without being equal are the two zeros: where an edit
puts one zero over the other, the new one is published and the old one is kept. In every other
respect a store that is opened again publishes what it published when it was closed.
-/

namespace PrefStore

variable {ρ ν ε : Type}

namespace Value

/-- A zero, and the zero of the other sign. -/
inductive Flips : Value → Value → Prop where
  | zero (negative : Bool) : Flips (.float (.zero negative)) (.float (.zero !negative))

/-- The two zeros agree. -/
theorem Flips.same {v w : Value} (h : v.Flips w) : v.same w = true := by
  cases h
  rfl

/-- The two zeros are not equal. -/
theorem Flips.ne {v w : Value} (h : v.Flips w) : v ≠ w := by
  cases h with
  | zero negative => cases negative <;> decide

private theorem eq_or_flips_of_same {v w : Value} (h : v.same w = true) : v = w ∨ v.Flips w := by
  cases v with
  | boolean | int | long | string | stringSet => exact .inl (by simpa [same] using h)
  | float x =>
    cases w with
    | boolean | int | long | string | stringSet => simp [same] at h
    | float y =>
      cases x with
      | nan => simp [same, Binary.same] at h
      | infinite | finite => cases y <;> simp_all [same, Binary.same]
      | zero negative =>
        cases y with
        | nan | infinite | finite => simp [same, Binary.same] at h
        | zero other =>
          by_cases hsign : other = negative
          · exact .inl (by rw [hsign])
          · obtain rfl : other = !negative := Bool.eq_not.2 hsign
            exact .inr (.zero negative)

end Value

namespace Snapshot

variable {s t : Snapshot} {key : String}

/-- At a key one snapshot has a zero, and another has the zero of the other sign. -/
def FlipsAt (s t : Snapshot) (key : String) : Prop :=
  ∃ v w, s.get? key = some v ∧ t.get? key = some w ∧ v.Flips w

private theorem eq_or_flipsAt_of_same (h : s.same t = true) (key : String) :
    s.get? key = t.get? key ∨ s.FlipsAt t key := by
  have hkey := same_iff.1 h key
  cases hs : s.get? key with
  | none => cases ht : t.get? key <;> simp_all [Value.SameAnswer]
  | some v =>
    cases ht : t.get? key with
    | none => simp [hs, ht, Value.SameAnswer] at hkey
    | some w =>
      simp only [hs, ht, Value.SameAnswer] at hkey
      rcases Value.eq_or_flips_of_same hkey with rfl | hflips
      · exact .inl rfl
      · exact .inr ⟨v, w, hs, ht, hflips⟩

/-- A zero stays if the zero of the other sign is written over it. -/
theorem FlipsAt.settle (h : s.FlipsAt t key) :
    Value.settle (s.get? key) (t.get? key) = s.get? key := by
  obtain ⟨v, w, hs, ht, hflips⟩ := h
  simp [hs, ht, Value.settle, hflips.same]

private theorem settle_of_not_flipsAt (h : ¬s.FlipsAt t key) :
    Value.settle (s.get? key) (t.get? key) = t.get? key := by
  unfold Value.settle
  split
  · next v w hs ht =>
    split
    · next hsame =>
      rcases Value.eq_or_flips_of_same hsame with rfl | hflips
      · rw [ht]
      · exact absurd ⟨v, w, hs, ht, hflips⟩ h
    · rw [ht]
  · rfl

end Snapshot

/-! ## Exports -/

namespace Holder

private theorem toJson_ne_of_flips {v w : Value} (h : v.Flips w) :
    (ofValue v).toJson ≠ (ofValue w).toJson := by
  intro heq
  have hholders : ofValue v = ofValue w := by
    have hread := ofJson_toJson "" (ofValue v)
    rw [heq, ofJson_toJson] at hread
    exact (Except.ok.inj hread).symm
  have hv : v.storable = true := by
    cases h
    rfl
  have hw : w.storable = true := by
    cases h
    rfl
  have hdecode := decode_ofValue hv ""
  rw [hholders, decode_ofValue hw] at hdecode
  exact h.ne (Except.ok.inj hdecode).symm

end Holder

namespace Store

variable {β β' : Type} {s : Store β} {t : Store β'}

/-- An export holds at each key what clients see there. -/
theorem get?_exportDocument (s : Store β) (key : String) :
    s.exportDocument.entries.get? key = (s.getValue? key).map Holder.ofValue := by
  have hentries : s.exportDocument.entries =
      (s.published.filterKeys fun key => !isReserved key).mapValues Holder.ofValue :=
    Dict.ofList_entries
      ((s.published.filterKeys fun key => !isReserved key).mapValues Holder.ofValue)
  rw [hentries, Dict.get?_mapValues, Dict.get?_filterKeys, getValue?, Snapshot.visibleAt]
  cases isReserved key <;> rfl

/-- Stores in which clients see the same export the same tree. -/
theorem exportJson_congr (h : ∀ key, s.getValue? key = t.getValue? key) :
    s.exportJson = t.exportJson := by
  have hentries : s.exportDocument.entries = t.exportDocument.entries := by
    refine Dict.ext_get? fun key => ?_
    rw [get?_exportDocument, get?_exportDocument, h key]
  exact congrArg (fun entries => (Document.ofEntries entries).toJson) hentries

private theorem holder_of_exportJson (h : s.exportJson = t.exportJson) {key : String}
    (hkey : isReserved key = false) :
    ((s.getValue? key).map Holder.ofValue).map Holder.toJson =
      ((t.getValue? key).map Holder.ofValue).map Holder.toJson := by
  have hne : versionKey ≠ key := by
    rintro rfl
    simp [isReserved] at hkey
  have hfield (document : Document) : document.fields.get? key =
      (document.entries.get? key).map Holder.toJson := by
    rw [Document.get?_fields, if_neg hne, Option.or_none]
  have hfields : s.exportDocument.fields = t.exportDocument.fields := by
    rw [exportJson, exportJson, Document.toJson_eq, Document.toJson_eq, Json.obj.injEq] at h
    exact Dict.ext_entries h
  rw [← get?_exportDocument, ← get?_exportDocument, ← hfield, ← hfield, hfields]

/-- Stores whose published snapshots agree export the same tree unless one shows clients a zero
where the other shows them the zero of the other sign. -/
theorem exportJson_eq_iff (h : s.published.same t.published = true) :
    s.exportJson = t.exportJson ↔
      ∀ key, isReserved key = false → ¬s.published.FlipsAt t.published key := by
  constructor
  · rintro hexport key hkey ⟨v, w, hv, hw, hflips⟩
    have hholder := holder_of_exportJson hexport hkey
    simp only [getValue?, Snapshot.visibleAt, hkey, Bool.false_eq_true, if_false, hv, hw,
      Option.map_some, Option.some.injEq] at hholder
    exact Holder.toJson_ne_of_flips hflips hholder
  · intro hflips
    apply exportJson_congr
    intro key
    unfold getValue? Snapshot.visibleAt
    split
    · rfl
    · next hkey =>
      rcases Snapshot.eq_or_flipsAt_of_same h key with heq | hflip
      · exact heq
      · exact absurd hflip (hflips key (by simpa using hkey))

end Store

/-! ## Opening again -/

namespace Store

/-- The store that is found when the database of a store is opened again. -/
def reopen? (s : Store Connection) : Except StoreError (Store Connection) :=
  (Reopens.reopen? s.backend).bind ofBackend?

/-- A store that nobody else shares a database with: its schema is current, and what is published
agrees with what the rows hold. -/
structure Alone (s : Store Connection) : Prop where
  counts : s.backend.Counts
  schema : s.backend.database.Current
  synced : s.published.same s.contents = true

/-- A store that was just opened is alone, and publishes what the rows hold. -/
theorem alone_of_open {d : Database} {c : Connection} (hopen : Connection.open? d = .ok c) :
    ∃ s, ofBackend? c = .ok s ∧ s.Alone ∧ s.published = d.contents ∧ s.contents = d.contents := by
  have hcounts := (Connection.counts_open? hopen).1
  have hschema := Connection.current_open? hopen
  have hcontents : c.table = d.contents := Connection.contents_open? hopen
  refine ⟨⟨{ c with seen := c.foreign }, c.table, .empty⟩, rfl, ?_, hcontents, hcontents⟩
  exact ⟨⟨hcounts.table, hcounts.own_le, le_rfl⟩, hschema,
    (Connection.contents_regular _).same_self⟩

/-- A store that is alone can be opened again, and then publishes what the rows hold. -/
theorem Alone.reopen {s : Store Connection} (h : s.Alone) :
    ∃ again, s.reopen? = .ok again ∧ again.Alone ∧ again.published = s.contents := by
  obtain ⟨c, hopen⟩ := Connection.open?_of_current h.schema h.counts.table
  obtain ⟨again, hload, halone, hpublished, -⟩ := alone_of_open hopen
  have hreopen : Reopens.reopen? s.backend = .ok c := hopen
  refine ⟨again, ?_, halone, hpublished⟩
  rw [reopen?, hreopen]
  exact hload

/-- A committed edit leaves of the contents what its values leave of those before. -/
theorem contents_of_commit [IncludesStore ε] {s s' : Store Connection} (h : s.backend.Counts)
    {edit : Edit ν ε} {notes notes' : ν} {touched : StringSet}
    (hcommit : s.commit edit.body notes = (.ok touched, notes', s')) (key : String) :
    s'.contents.get? key = Value.settle (s.contents.get? key) (s'.published.get? key) := by
  obtain ⟨rows, hrows⟩ := Option.isSome_iff_exists.1 h.table
  cases hrun : edit.body s.draft notes with
  | mk outcome found =>
    cases outcome with
    | error cause =>
      rw [commit_stop h hrun] at hcommit
      cases hcommit
    | ok e =>
      obtain ⟨rows', hended, hsettles⟩ := commit_connection hrows hrun
      rw [hended] at hcommit
      cases hcommit
      rw [contents_of_rows (Connection.commitRows_preferences s.backend rows')]
      exact hsettles key

end Store

namespace Observed

/-- One act leaves a store alone on its database. -/
theorem Act.alone {o o' : Observed Connection ρ} (h : o.Act o') (ho : o.store.Alone) :
    o'.store.Alone := by
  obtain ⟨hsound, -, hsynced⟩ := h.sound ⟨ho.counts, fun _ => ho.synced⟩
  refine ⟨hsound.counts, ?_, hsynced ho.synced⟩
  cases h with
  | commit edit notes =>
    cases hcommit : o.store.commit edit.body notes with
    | mk answer ended =>
      obtain ⟨notes', s⟩ := ended
      cases answer with
      | error cause =>
        obtain ⟨_, _, hstop, -⟩ := Store.commit_error hcommit
        rw [show s.backend = o.store.backend from Connection.transact_error hstop]
        exact ho.schema
      | ok touched =>
        obtain ⟨rows, hrows⟩ := Connection.transact_ok (Store.commit_eq_ok_iff.1 hcommit).1
        rw [hrows]
        exact ho.schema.commitRows rows
  | refresh =>
    obtain ⟨_, s, hrefresh, hbackend, -⟩ := Store.refresh_connection fun _ => ho.synced
    have hrefresh' : o.refresh.2 = { o with store := s } := by rw [Observed.refresh, hrefresh]
    rw [hrefresh', hbackend]
    exact ho.schema
  | listen hbackend _ =>
    rw [hbackend]
    exact ho.schema

/-- Acts leave a store alone on its database. -/
theorem Acts.alone {o o' : Observed Connection ρ} (h : o.Acts o') (ho : o.store.Alone) :
    o'.store.Alone :=
  h.preserves (P := fun o => o.store.Alone) Act.alone ho

/-- An act after which no zero is published in place of the zero of the other sign. -/
def SteadyAct (o o' : Observed Connection ρ) : Prop :=
  o.Act o' ∧ ∀ key, ¬o.store.contents.FlipsAt o'.store.published key

/-- Steady acts keep what is published and what the rows hold one and the same. -/
theorem SteadyAct.published {o o' : Observed Connection ρ} (h : o.SteadyAct o')
    (ho : o.store.Alone) (hsame : o.store.published = o.store.contents) :
    o'.store.published = o'.store.contents := by
  obtain ⟨hact, hsteady⟩ := h
  cases hact with
  | commit edit notes =>
    cases hcommit : o.store.commit edit.body notes with
    | mk outcome rest =>
      obtain ⟨notes', s⟩ := rest
      rw [hcommit] at hsteady
      cases outcome with
      | ok touched =>
        refine Dict.ext_get? fun key => ?_
        rw [Store.contents_of_commit ho.counts hcommit]
        exact (Snapshot.settle_of_not_flipsAt (hsteady key)).symm
      | error cause =>
        show s.published = s.contents
        rw [Store.published_of_commit_error hcommit, Store.contents_of_commit_error hcommit]
        exact hsame
  | refresh =>
    have hrefreshed := o.store.refresh_refreshed
    unfold Observed.refresh
    generalize o.store.refresh = result at hrefreshed ⊢
    cases hrefreshed with
    | unchanged _ hkept => exact hsame.trans hkept.symm
    | renewed _ hkept => exact hkept.symm
  | listen hbackend hpublished =>
    rw [hpublished, hsame, Store.contents, Store.contents, hbackend]

private theorem published_of_steadyActs {o o' : Observed Connection ρ}
    (h : Relation.ReflTransGen SteadyAct o o') (ho : o.store.Alone)
    (hsame : o.store.published = o.store.contents) :
    o'.store.Alone ∧ o'.store.published = o'.store.contents := by
  induction h with
  | refl => exact ⟨ho, hsame⟩
  | tail _ hact ih => exact ⟨hact.1.alone ih.1, hact.published ih.1 ih.2⟩

/-- What is published lasts, but for the sign of zeros. Whatever is done with a store that alone has
opened a database, the database can be opened again, and the store that is found then publishes at
every key what was published, or the zero of the other sign. It exports the same tree unless clients
see such a zero. An edit that is committed makes for a difference just where it puts a zero over the
zero of the other sign that was there: that one is found again, and all else as it was published. So
where no edit does this, the store that is found publishes and exports the same. -/
theorem published_lasts_up_to_zeros {d : Database} {c : Connection} {store : Store Connection}
    (hopen : Connection.open? d = .ok c) (hload : Store.ofBackend? c = .ok store) (conduct : ρ) :
    (∀ o, Acts ⟨store, conduct, []⟩ o → ∃ again, o.store.reopen? = .ok again ∧
      (∀ key, again.published.get? key = o.store.published.get? key ∨
        again.published.FlipsAt o.store.published key) ∧
      (again.exportJson = o.store.exportJson ↔
        ∀ key, isReserved key = false → ¬again.published.FlipsAt o.store.published key) ∧
      ∀ {ν ε : Type} [IncludesStore ε] (edit : Edit ν ε) {notes notes' : ν} {touched : StringSet}
        {s : Store Connection}, o.store.commit edit.body notes = (.ok touched, notes', s) →
        ∃ next, s.reopen? = .ok next ∧ ∀ key,
          (again.published.FlipsAt s.published key →
            next.published.get? key = again.published.get? key) ∧
          (¬again.published.FlipsAt s.published key →
            next.published.get? key = s.published.get? key)) ∧
    ∀ o, Relation.ReflTransGen SteadyAct ⟨store, conduct, []⟩ o → ∃ again,
      o.store.reopen? = .ok again ∧ again.published = o.store.published ∧
        again.exportJson = o.store.exportJson := by
  obtain ⟨s, hs, halone, hpublished, hcontents⟩ := Store.alone_of_open hopen
  obtain rfl : s = store := Except.ok.inj (hs.symm.trans hload)
  constructor
  · intro o hacts
    have ho : o.store.Alone := hacts.alone halone
    obtain ⟨again, hreopen, -, hagain⟩ := ho.reopen
    have hsynced : again.published.same o.store.published = true := by
      rw [hagain, Snapshot.same_comm]
      exact ho.synced
    refine ⟨again, hreopen, Snapshot.eq_or_flipsAt_of_same hsynced,
      Store.exportJson_eq_iff hsynced, ?_⟩
    intro ν ε _ edit notes notes' touched s' hcommit
    have hact : o.Act { o with store := s' } := by
      have hact := Act.commit (o := o) edit notes
      rwa [hcommit] at hact
    obtain ⟨next, hnext, -, hnextPublished⟩ := (hact.alone ho).reopen
    refine ⟨next, hnext, fun key => ?_⟩
    rw [hnextPublished, hagain, Store.contents_of_commit ho.counts hcommit]
    exact ⟨Snapshot.FlipsAt.settle, Snapshot.settle_of_not_flipsAt⟩
  · intro o hsteady
    obtain ⟨ho, hsame⟩ :=
      published_of_steadyActs hsteady halone (hpublished.trans hcontents.symm)
    obtain ⟨again, hreopen, -, hagain⟩ := ho.reopen
    have heq : again.published = o.store.published := hagain.trans hsame.symm
    refine ⟨again, hreopen, heq, Store.exportJson_congr fun key => ?_⟩
    rw [Store.getValue?, Store.getValue?, heq]

/-- The zero that is put first at a key of a new database is found again as it was published, and it
is still what is found after the zero of the other sign was put over it. -/
theorem first_zero_lasts :
    let opened : Connection :=
      ⟨{ versions := some [1], preferences := some [], commits := 1 }, 0, 1⟩
    let o : Observed Connection Unit := ⟨⟨opened, Dict.empty, .empty⟩, (), []⟩
    let first := Edit.put "k" (.float (.zero false))
    let second := Edit.put "k" (.float (.zero true))
    let o' := { o with store := (o.store.commit first.body ()).2.2 }
    let s := (o'.store.commit second.body ()).2.2
    let keys := StringSet.ofList ["k"]
    Connection.open? {} = .ok opened ∧ Store.ofBackend? opened = .ok o.store ∧
      o.SteadyAct o' ∧ o'.store.commit second.body () = (.ok keys, (), s) ∧
      ∃ again, o'.store.reopen? = .ok again ∧ again.published = o'.store.published ∧
        again.published.FlipsAt s.published "k" ∧
        ∃ next, s.reopen? = .ok next ∧
          next.published.get? "k" = again.published.get? "k" := by
  intro opened o first second o' s keys
  have hopen : Connection.open? {} = .ok opened := rfl
  have hload : Store.ofBackend? opened = .ok o.store := rfl
  have hact : o.Act o' := .commit first ()
  have hsteady : o.SteadyAct o' := by
    refine ⟨hact, ?_⟩
    rintro key ⟨v, -, hv, -⟩
    cases hv
  have hcommit : o'.store.commit second.body () = (.ok keys, (), s) := rfl
  obtain ⟨hany, hall⟩ := published_lasts_up_to_zeros hopen hload ()
  obtain ⟨again, hreopen, -, -, hedit⟩ := hany o' hact.acts
  obtain ⟨next, hnext, hkey⟩ := hedit second hcommit
  obtain ⟨again', hreopen', hsame, -⟩ := hall o' (.single hsteady)
  obtain rfl : again = again' := Except.ok.inj (hreopen.symm.trans hreopen')
  have hflips : again.published.FlipsAt s.published "k" := by
    rw [hsame]
    exact ⟨_, _, rfl, rfl, .zero false⟩
  exact ⟨hopen, hload, hsteady, hcommit, again, hreopen, hsame, hflips, next, hnext,
    (hkey "k").1 hflips⟩

/-- On a new database the negative zero is put over the positive one. Both edits succeed, and the
store exports the negative zero; opened again it exports the positive one. -/
theorem second_zero_does_not_last :
    let opened : Connection :=
      ⟨{ versions := some [1], preferences := some [], commits := 1 }, 0, 1⟩
    let o : Observed Connection Unit := ⟨⟨opened, Dict.empty, .empty⟩, (), []⟩
    let backup (zero : String) : String :=
      "\x7b\"__version\":2,\"k\":\x7b\"type\":1,\"value\":" ++ zero ++ "\x7d\x7d"
    let (outcome, o') := o.set "k" (.float (.zero false))
    let (outcome', o'') := o'.set "k" (.float (.zero true))
    Connection.open? {} = .ok opened ∧ Store.ofBackend? opened = .ok o.store ∧
      outcome = .ok () ∧ outcome' = .ok () ∧
      o''.store.exportJson.text = backup "-0.0" ∧
      o''.store.reopen?.map (·.exportJson.text) = .ok (backup "0.0") :=
  ⟨rfl, rfl, rfl, rfl, by decide, by decide⟩

end Observed

end PrefStore
