import PrefStore.Proofs.Fleet.Basic
import PrefStore.Proofs.Store.Notify

/-!
# No handle hides or loses what others commit

A handle is sound if what it publishes are the contents whenever it has seen every foreign
commit. Its own commits and refreshes make it so, and a commit through another handle raises
the number of foreign commits above what it has seen, so every fleet that can be reached has
sound handles only. An edit works on the contents, never on what its handle publishes.
-/

namespace PrefStore

variable {ρ ν ε : Type}

namespace Connection

/-- A connection that works on a table and counts no more commits than there are. -/
structure Counts (c : Connection) : Prop where
  table : c.database.preferences.isSome = true
  own_le : c.own ≤ c.database.commits
  seen_le : c.seen ≤ c.foreign

/-- A commit through a connection leaves it with all foreign commits seen. -/
theorem seen_commitRows (c : Connection) (rows : List PreferenceRow) :
    (c.commitRows rows).seen = (c.commitRows rows).foreign := by
  rcases c.commitRows_cases rows with ⟨-, heq⟩ | ⟨hcommits, hown, hseen⟩
  · rw [heq]
    rfl
  · rw [hseen, foreign, foreign, hcommits, hown]
    omega

/-- A connection counts on after a commit. -/
theorem Counts.commitRows {c : Connection} (h : c.Counts) (rows : List PreferenceRow) :
    (c.commitRows rows).Counts where
  table := by simp
  own_le := by
    have hown := h.own_le
    rcases c.commitRows_cases rows with ⟨-, heq⟩ | ⟨hcommits, hown', -⟩
    · rw [heq]
      exact hown
    · omega
  seen_le := (c.seen_commitRows rows).le

end Connection

/-- A database that comes from another is that one or has more commits, and its table stays. -/
structure Database.Grows (d d' : Database) : Prop where
  table : d.preferences.isSome = true → d'.preferences.isSome = true
  commits : d' = d ∨ d.commits < d'.commits

theorem Database.Grows.refl (d : Database) : d.Grows d := ⟨id, .inl rfl⟩

theorem Database.Grows.trans {d d' d'' : Database} (h : d.Grows d') (h' : d'.Grows d'') :
    d.Grows d'' where
  table := h'.table ∘ h.table
  commits := by
    rcases h.commits with heq | hlt
    · exact heq ▸ h'.commits
    · rcases h'.commits with heq | hlt'
      · exact .inr (heq ▸ hlt)
      · exact .inr (hlt.trans hlt')

/-- A commit lets the database grow. -/
theorem Connection.grows_commitRows (c : Connection) (rows : List PreferenceRow) :
    c.database.Grows (c.commitRows rows).database where
  table _ := by simp
  commits := by
    rcases c.commitRows_cases rows with ⟨-, heq⟩ | ⟨hcommits, -, -⟩
    · exact .inl (by rw [heq])
    · exact .inr (by omega)

/-- An opened connection counts, and opening it lets the database grow. -/
theorem Connection.counts_open? {d : Database} {c : Connection} (h : open? d = .ok c) :
    c.Counts ∧ d.Grows c.database := by
  obtain ⟨d', rows, hmigrate, hrows, hc⟩ := open?_eq_ok h
  have hcounts : Counts ⟨d', 0, d'.commits⟩ := by
    refine ⟨by simp [hrows], Nat.zero_le _, ?_⟩
    rw [foreign]
    exact le_rfl
  have hgrows : d.Grows d' := by
    rcases Database.migrate_cases hmigrate with rfl | ⟨hnone, -, hcommits⟩
    · exact .refl _
    · exact ⟨by simp [hnone], .inr (by omega)⟩
  rcases hc with rfl | ⟨-, rfl⟩
  · exact ⟨hcounts, hgrows⟩
  · exact ⟨hcounts.commitRows [], hgrows.trans (grows_commitRows ⟨d', 0, d'.commits⟩ [])⟩

namespace Store

variable [IncludesStore ε]

/-- The contents of a store over a connection are what its rows are read as. -/
theorem contents_of_rows {s : Store Connection} {rows : List PreferenceRow}
    (hrows : s.backend.database.preferences = some rows) :
    s.contents = Connection.contents rows := by
  show Connection.contents (s.backend.database.preferences.getD []) = _
  rw [hrows, Option.getD_some]

omit [IncludesStore ε] in
/-- What the body of an edit over a connection makes of the contents is regular. -/
theorem regular_of_run {s : Store Connection} {edit : Edit ν ε} {notes notes' : ν} {e : Draft}
    (hrun : edit.body s.draft notes = (.ok e, notes')) : e.entries.Regular := by
  have hcareful : s.contents.Careful e.entries := (edit.leads hrun).careful
  exact hcareful.regular (Connection.contents_regular _)

/-- An edit over a connection runs its body once, on the contents, and leaves rows that are read as
what is left of the contents and of what the body made of them. -/
theorem commit_connection {s : Store Connection} {rows : List PreferenceRow}
    (hrows : s.backend.database.preferences = some rows) {edit : Edit ν ε} {notes notes' : ν}
    {e : Draft} (hrun : edit.body s.draft notes = (.ok e, notes')) :
    ∃ rows', s.commit edit.body notes =
        (.ok e.touched, notes', ⟨s.backend.commitRows rows', e.entries, s.listeners⟩) ∧
      ∀ key, (Connection.contents rows').get? key =
        Value.settle (s.contents.get? key) (e.entries.get? key) := by
  have hcontents := contents_of_rows hrows
  have hended : transform edit.body (Connection.contents rows) (notes, Dict.empty) =
      (.ok e.entries, notes', e.touched) := transform_eq_ok_iff.2 (hcontents ▸ hrun)
  obtain ⟨rows', s', htransact, hhold, hsettles, -⟩ :=
    Connection.transact_of_regular hrows hended (regular_of_run hrun)
  have htransact' : Backend.transact s.backend (transform edit.body) (notes, Dict.empty) = _ :=
    htransact
  refine ⟨rows', ?_, fun key => ?_⟩
  · simp only [commit, htransact']
  · rw [Connection.contents_of_hold hhold, hcontents]
    exact hsettles key

/-- What an edit over a connection commits agrees with what its body made of the contents, and
is what the store publishes. -/
theorem commit_ok {s : Store Connection} (hcounts : s.backend.Counts) {edit : Edit ν ε}
    {notes notes' : ν} {e : Draft} (hrun : edit.body s.draft notes = (.ok e, notes')) :
    ∃ s', s.commit edit.body notes = (.ok e.touched, notes', s') ∧
      s'.published = e.entries ∧ s'.contents.same e.entries = true ∧
      s'.backend.Counts ∧ s.backend.database.Grows s'.backend.database := by
  obtain ⟨rows, hrows⟩ := Option.isSome_iff_exists.1 hcounts.table
  obtain ⟨rows', hcommit, hsettles⟩ := commit_connection hrows hrun
  refine ⟨_, hcommit, rfl, ?_, hcounts.commitRows _, s.backend.grows_commitRows _⟩
  rw [contents_of_rows (Connection.commitRows_preferences s.backend rows')]
  exact Rows.same_of_settles (regular_of_run hrun) hsettles

/-- A store that publishes what its contents agree with publishes its contents. -/
theorem synced_of_same {s : Store Connection} {entries : Snapshot}
    (hpublished : s.published = entries) (hsame : s.contents.same entries = true) :
    s.published.same s.contents = true := by
  rw [hpublished, Snapshot.same_comm]
  exact hsame

/-- An edit over a connection whose body stops leaves the store as it was. -/
theorem commit_stop {s : Store Connection} (hcounts : s.backend.Counts) {body : EditBody ν ε}
    {notes notes' : ν} {cause : Halt ε} (hrun : body s.draft notes = (.error cause, notes')) :
    s.commit body notes = (.error cause, notes', s) := by
  obtain ⟨rows, hrows⟩ := Option.isSome_iff_exists.1 hcounts.table
  have hended : transform body (Connection.contents rows) (notes, Dict.empty) =
      (.error cause, notes', Dict.empty) :=
    transform_eq_error_iff.2 ⟨contents_of_rows hrows ▸ hrun, rfl⟩
  have htransact : Backend.transact s.backend (transform body) (notes, Dict.empty) = _ :=
    Connection.transact_of_halt hrows hended
  simp only [commit, htransact]
  rfl

/-- A refresh over a connection never fails. It publishes the contents, and answers whether
that changed anything. -/
theorem refresh_connection {s : Store Connection}
    (hcurrent : s.backend.foreign = s.backend.seen → s.published.same s.contents = true) :
    ∃ changed s', s.refresh = (.ok changed, s') ∧
      s'.backend = { s.backend with seen := s.backend.foreign } ∧
      s'.contents = s.contents ∧ s'.listeners = s.listeners ∧
      s'.published.same s.contents = true ∧ changed = !s.published.same s'.published := by
  have hrefresh : s.refresh = if s.backend.foreign = s.backend.seen then (.ok false, s)
      else if s.published.same s.contents then
        (.ok false, ⟨{ s.backend with seen := s.backend.foreign }, s.published, s.listeners⟩)
      else (.ok true, ⟨{ s.backend with seen := s.backend.foreign }, s.contents, s.listeners⟩) := by
    have hchanged : Backend.changed s.backend =
        (.ok (s.backend.foreign ≠ s.backend.seen), s.backend) := rfl
    have hload : Backend.load s.backend =
        (.ok s.contents, { s.backend with seen := s.backend.foreign }) := rfl
    unfold refresh
    rw [hchanged]
    by_cases hseen : s.backend.foreign = s.backend.seen
    · simp [hseen]
    · simp [hseen, hload]
  rw [hrefresh]
  by_cases hseen : s.backend.foreign = s.backend.seen
  · have hsame := hcurrent hseen
    rw [if_pos hseen]
    refine ⟨false, s, rfl, by rw [hseen], rfl, rfl, hsame, ?_⟩
    rw [(Snapshot.regular_of_same hsame).same_self, Bool.not_true]
  · rw [if_neg hseen]
    cases hsame : s.published.same s.contents with
    | true =>
      rw [if_pos rfl]
      refine ⟨false, ⟨{ s.backend with seen := s.backend.foreign }, s.published, s.listeners⟩,
        rfl, rfl, rfl, rfl, hsame, ?_⟩
      rw [(Snapshot.regular_of_same hsame).same_self, Bool.not_true]
    | false =>
      rw [if_neg (by simp)]
      have hregular : s.contents.Regular := Connection.contents_regular _
      refine ⟨true, ⟨{ s.backend with seen := s.backend.foreign }, s.contents, s.listeners⟩,
        rfl, rfl, rfl, rfl, hregular.same_self, ?_⟩
      rw [hsame, Bool.not_false]

end Store

namespace Observed

/-- A handle that publishes the contents whenever it has seen every foreign commit. -/
structure Sound (o : Observed Connection ρ) : Prop where
  counts : o.store.backend.Counts
  current : o.store.backend.foreign = o.store.backend.seen →
    o.store.published.same o.store.contents = true

/-- One act keeps a handle sound, lets the database grow, and keeps a handle that publishes the
contents publishing them. -/
theorem Act.sound {o o' : Observed Connection ρ} (h : o.Act o') (hsound : o.Sound) :
    o'.Sound ∧ o.database.Grows o'.database ∧
      (o.store.published.same o.store.contents = true →
        o'.store.published.same o'.store.contents = true) := by
  cases h with
  | commit edit notes =>
    cases hrun : edit.body o.store.draft notes with
    | mk outcome notes' =>
      cases outcome with
      | ok e =>
        obtain ⟨s, hcommit, hpublished, hsame, hcounts, hgrows⟩ :=
          Store.commit_ok hsound.counts hrun
        have hsynced := Store.synced_of_same hpublished hsame
        rw [hcommit]
        exact ⟨⟨hcounts, fun _ => hsynced⟩, hgrows, fun _ => hsynced⟩
      | error cause =>
        rw [Store.commit_stop hsound.counts hrun]
        exact ⟨hsound, .refl _, id⟩
  | refresh =>
    obtain ⟨changed, s, hrefresh, hbackend, hcontents, -, hsame, -⟩ :=
      Store.refresh_connection hsound.current
    have hrefresh' : o.refresh.2 = { o with store := s } := by rw [Observed.refresh, hrefresh]
    have hsynced : s.published.same s.contents = true := by rw [hcontents]; exact hsame
    have hcounts : s.backend.Counts := by
      rw [hbackend]
      exact ⟨hsound.counts.table, hsound.counts.own_le, le_rfl⟩
    have hdatabase : s.backend.database = o.store.backend.database := by rw [hbackend]
    rw [hrefresh']
    refine ⟨⟨hcounts, fun _ => hsynced⟩, ?_, fun _ => hsynced⟩
    show o.store.backend.database.Grows s.backend.database
    rw [hdatabase]
    exact .refl _
  | listen hbackend hpublished =>
    have hcontents : o'.store.contents = o.store.contents :=
      congrArg Transactional.contents hbackend
    have hdatabase : o'.database = o.database := congrArg Connection.database hbackend
    refine ⟨⟨?_, ?_⟩, ?_, ?_⟩
    · rw [hbackend]
      exact hsound.counts
    · rw [hbackend, hpublished, hcontents]
      exact hsound.current
    · rw [hdatabase]
      exact .refl _
    · rw [hpublished, hcontents]
      exact id

/-- Acts keep a sound handle that publishes the contents publishing them. -/
theorem Acts.synced {o o' : Observed Connection ρ} (h : o.Acts o') (hsound : o.Sound)
    (hsame : o.store.published.same o.store.contents = true) :
    o'.store.published.same o'.store.contents = true := by
  have hboth : o'.Sound ∧ o'.store.published.same o'.store.contents = true := by
    refine h.preserves (P := fun o => o.Sound ∧ o.store.published.same o.store.contents = true)
      ?_ ⟨hsound, hsame⟩
    intro p q hact hp
    obtain ⟨hq, -, hsynced⟩ := hact.sound hp.1
    exact ⟨hq, hsynced hp.2⟩
  exact hboth.2

/-- A handle stays sound while others let the database grow: it has not seen their commits. -/
theorem Sound.rejoin {o : Observed Connection ρ} (h : o.Sound) {d : Database}
    (hgrows : o.database.Grows d) : (o.rejoin d).Sound := by
  rcases hgrows.commits with heq | hlt
  · have hsame : o.rejoin d = o := by rw [heq, rejoin_database]
    rw [hsame]
    exact h
  · have hcommits : o.store.backend.database.commits < d.commits := hlt
    have hown := h.counts.own_le
    have hseen := h.counts.seen_le
    have hforeign : o.store.backend.seen < d.commits - o.store.backend.own := by
      rw [Connection.foreign] at hseen
      omega
    refine ⟨⟨hgrows.table h.counts.table, ?_, hforeign.le⟩, ?_⟩
    · show o.store.backend.own ≤ d.commits
      omega
    · intro hcurrent
      exact absurd hcurrent.symm hforeign.ne

end Observed

namespace Fleet

/-- A fleet whose handles are all sound. -/
def Sound (f : Fleet Connection ρ) : Prop :=
  ∀ {i : Nat} {o : Observed Connection ρ}, f.handle? i = some o → o.Sound

/-- A fleet without handles is sound. -/
theorem sound_start (d : Database) : (start d : Fleet Connection ρ).Sound := by
  intro i o h
  simp [handle?, start] at h

/-- Handles stay sound while the database grows. -/
theorem Sound.rejoin {f : Fleet Connection ρ} (h : f.Sound) {d : Database}
    (hgrows : f.database.Grows d) {i : Nat} {o : Observed Connection ρ}
    (ho : f.handles[i]?.map (·.rejoin d) = some o) : o.Sound := by
  obtain ⟨stored, hstored, rfl⟩ := Option.map_eq_some_iff.1 ho
  have hhandle : f.handle? i = some (stored.rejoin f.database) := by
    rw [handle?, hstored, Option.map_some]
  have hold : (stored.rejoin f.database).database.Grows d := by
    rw [Observed.database_rejoin]
    exact hgrows
  exact (h hhandle).rejoin hold

/-- One step keeps a fleet sound. -/
theorem Step.sound {f g : Fleet Connection ρ} (hstep : f.Step g) (h : f.Sound) : g.Sound := by
  intro j p hp
  cases hstep with
  | @opens c hopen conduct =>
    obtain ⟨hcounts, hgrows⟩ := Connection.counts_open? hopen
    have hadd : f.add c conduct = ⟨c.database, f.handles ++
        [⟨⟨{ c with seen := c.foreign }, c.table, .empty⟩, conduct, []⟩]⟩ := rfl
    rw [hadd, handle?] at hp
    dsimp only at hp
    rw [List.getElem?_append] at hp
    split at hp
    · exact h.rejoin hgrows hp
    · rw [List.getElem?_singleton] at hp
      split at hp
      · cases hp
        have hregular : c.table.Regular := Connection.contents_regular _
        exact ⟨⟨hcounts.table, hcounts.own_le, le_rfl⟩, fun _ => hregular.same_self⟩
      · cases hp
  | @acts i o o' hhandle hact =>
    obtain ⟨hsound, hgrows, -⟩ := hact.sound (h hhandle)
    rw [database_of_handle? hhandle] at hgrows
    by_cases hij : i = j
    · subst hij
      rw [handle?_keep_self hhandle o', Option.some.injEq] at hp
      exact hp ▸ hsound
    · rw [handle?_keep_ne hij] at hp
      exact h.rejoin hgrows hp

/-- Every fleet that is reached from a database alone is sound. -/
theorem Reaches.sound {d : Database} {f : Fleet Connection ρ} (h : (start d).Reaches f) :
    f.Sound := by
  induction h with
  | refl => exact sound_start d
  | tail _ hstep ih => exact hstep.sound ih

/-- One fleet comes from another by a committed edit, which makes of the contents what its body
makes of them. -/
inductive Edited (f g : Fleet Connection ρ) : Prop where
  | mk {i : Nat} {o : Observed Connection ρ} {ν ε : Type} [IncludesStore ε] {edit : Edit ν ε}
      {notes notes' : ν} {e : Draft} (hhandle : f.handle? i = some o)
      (hrun : edit.body (.ofSnapshot f.contents) notes = (.ok e, notes'))
      (hstep : g = f.keep i { o with store := (o.store.commit edit.body notes).2.2 })
      (hagrees : g.contents.same e.entries = true)

/-- Nothing but committed edits changes the contents. -/
theorem Step.contents_or_edited {f g : Fleet Connection ρ} (hstep : f.Step g) (h : f.Sound) :
    g.contents = f.contents ∨ f.Edited g := by
  cases hstep with
  | opens hopen conduct => exact .inl (contents_add hopen conduct)
  | @acts i o o' hhandle hact =>
    have hkeep := f.contents_keep i o'
    have hcontents := contents_of_handle? hhandle
    cases hact with
    | commit edit notes =>
      cases hrun : edit.body o.store.draft notes with
      | mk outcome notes' =>
        cases outcome with
        | ok e =>
          obtain ⟨s, hcommit, -, hsame, -⟩ := Store.commit_ok (h hhandle).counts hrun
          rw [Store.draft, hcontents] at hrun
          refine .inr ⟨hhandle, hrun, rfl, ?_⟩
          rw [hkeep, hcommit]
          exact hsame
        | error cause =>
          left
          rw [hkeep, Store.commit_stop (h hhandle).counts hrun]
          exact hcontents
    | refresh =>
      obtain ⟨changed, s, hrefresh, -, hsame, -⟩ :=
        Store.refresh_connection (h hhandle).current
      left
      rw [hkeep, Observed.refresh, hrefresh, ← hcontents]
      exact hsame
    | listen hbackend _ =>
      left
      rw [hkeep, ← hcontents]
      exact congrArg Transactional.contents hbackend

/-- An edit through a sound handle runs its body once, on the contents. If the body completes, its
draft is committed and published and nothing else; otherwise nothing at all happens. -/
theorem commit_of_sound {f : Fleet Connection ρ} (h : f.Sound) {i : Nat}
    {o : Observed Connection ρ} (hhandle : f.handle? i = some o) {ν ε : Type} [IncludesStore ε]
    (edit : Edit ν ε) (notes : ν) :
    match edit.body (.ofSnapshot f.contents) notes with
    | (.ok e, notes') => ∃ s, o.store.commit edit.body notes = (.ok e.touched, notes', s) ∧
        s.published = e.entries ∧ s.contents.same e.entries = true
    | (.error cause, notes') =>
      o.store.commit edit.body notes = (.error cause, notes', o.store) := by
  have hdraft : o.store.draft = .ofSnapshot f.contents := by
    rw [Store.draft, contents_of_handle? hhandle]
  rw [← hdraft]
  cases hrun : edit.body o.store.draft notes with
  | mk outcome notes' =>
    cases outcome with
    | ok e =>
      obtain ⟨s, hcommit, hpublished, hsame, -⟩ := Store.commit_ok (h hhandle).counts hrun
      exact ⟨s, hcommit, hpublished, hsame⟩
    | error cause =>
      exact Store.commit_stop (h hhandle).counts hrun

/-- A whole edit through a sound handle, calls of its listeners included, leaves the handle
publishing the contents if the edit is committed, and leaves everything as it was otherwise. -/
theorem edit_of_sound [Conduct ρ] {f : Fleet Connection ρ} (h : f.Sound) {i : Nat}
    {o : Observed Connection ρ} (hhandle : f.handle? i = some o) {ν ε : Type} [IncludesStore ε]
    (edit : Edit ν ε) (notes : ν) :
    match edit.body (.ofSnapshot f.contents) notes with
    | (.ok _, notes') => ∃ o', o.edit edit.body notes = (.ok (), notes', o') ∧
        f.Reaches (f.keep i o') ∧ o'.store.published.same (f.keep i o').contents = true
    | (.error cause, notes') => o.edit edit.body notes = (.error cause, notes', o) := by
  have hcommit := commit_of_sound h hhandle edit notes
  have hact := Observed.Act.commit (o := o) edit notes
  have hacts := o.edit_acts edit notes
  cases hrun : edit.body (.ofSnapshot f.contents) notes with
  | mk outcome notes' =>
    rw [hrun] at hcommit
    cases outcome with
    | error cause => exact Observed.edit_eq_error_iff.2 ⟨o.store, hcommit, rfl⟩
    | ok e =>
      obtain ⟨s, hcommit, hpublished, hsame⟩ := hcommit
      have hedit := Observed.edit_eq_ok_iff.2 ⟨e.touched, s, hcommit, rfl⟩
      rw [hedit] at hacts
      refine ⟨_, hedit, reaches_of_acts hhandle hacts, ?_⟩
      rw [hcommit] at hact
      obtain ⟨hsound, -, -⟩ := hact.sound (h hhandle)
      have hsynced := Store.synced_of_same hpublished hsame
      -- What the listeners do is done by acts on the handle after the commit.
      exact (Observed.notify_acts (Observed.respond_acts _ 0) e.touched
        { o with store := s }).synced hsound hsynced

/-- A refresh of a sound handle does not fail, changes nothing that is committed and calls nobody.
It leaves the handle publishing the contents and answers whether that changed anything. -/
theorem refresh_of_sound {f : Fleet Connection ρ} (h : f.Sound) {i : Nat}
    {o : Observed Connection ρ} (hhandle : f.handle? i = some o) :
    ∃ changed o', o.refresh = (.ok changed, o') ∧ f.Reaches (f.keep i o') ∧
      (f.keep i o').contents = f.contents ∧
      o'.store.published.same f.contents = true ∧
      changed = !o.store.published.same o'.store.published ∧
      o'.calls = o.calls ∧ o'.conduct = o.conduct ∧ o'.store.listeners = o.store.listeners := by
  have hcontents := contents_of_handle? hhandle
  obtain ⟨changed, s, hrefresh, -, hkept, hlisteners, hsame, hchanged⟩ :=
    Store.refresh_connection (h hhandle).current
  have hanswer : o.refresh = (.ok changed, { o with store := s }) := by
    rw [Observed.refresh, hrefresh]
  have hreaches := reaches_of_acts hhandle Observed.Act.refresh.acts
  rw [hanswer] at hreaches
  rw [hcontents] at hsame
  refine ⟨changed, _, hanswer, hreaches, ?_, hsame, hchanged, rfl, rfl, hlisteners⟩
  exact hkept.trans hcontents

/-- Any number of handles on one database, used in any order, never lose or hide what is
committed. Of the contents each committed edit makes exactly what its body makes of them, however
old what its handle publishes, and nothing else changes them. A handle that has seen every foreign
commit publishes the contents; so does every handle after an edit or a refresh that succeeds. A
refresh answers whether it changed what is published, and calls nobody. An edit that fails changes
nothing at all, so what others committed is still there for the next refresh to find. -/
theorem handles_keep_what_is_committed [Conduct ρ] {d : Database} {f : Fleet Connection ρ}
    (h : (start d).Reaches f) :
    (∀ g, f.Step g → g.contents = f.contents ∨ f.Edited g) ∧
    ∀ {i : Nat} {o : Observed Connection ρ}, f.handle? i = some o →
      (o.store.backend.foreign = o.store.backend.seen →
        o.store.published.same f.contents = true) ∧
      (∀ {ν ε : Type} [IncludesStore ε] (edit : Edit ν ε) (notes : ν),
        match edit.body (.ofSnapshot f.contents) notes with
        | (.ok e, notes') =>
          (∃ s, o.store.commit edit.body notes = (.ok e.touched, notes', s) ∧
            s.published = e.entries ∧ s.contents.same e.entries = true) ∧
          ∃ o', o.edit edit.body notes = (.ok (), notes', o') ∧ f.Reaches (f.keep i o') ∧
            o'.store.published.same (f.keep i o').contents = true
        | (.error cause, notes') =>
          o.store.commit edit.body notes = (.error cause, notes', o.store) ∧
          o.edit edit.body notes = (.error cause, notes', o)) ∧
      ∃ changed o', o.refresh = (.ok changed, o') ∧ f.Reaches (f.keep i o') ∧
        (f.keep i o').contents = f.contents ∧
        o'.store.published.same f.contents = true ∧
        changed = !o.store.published.same o'.store.published ∧
        o'.calls = o.calls ∧ o'.conduct = o.conduct ∧
        o'.store.listeners = o.store.listeners := by
  have hsound : f.Sound := h.sound
  refine ⟨fun g hstep => hstep.contents_or_edited hsound, ?_⟩
  intro i o hhandle
  refine ⟨?_, ?_, refresh_of_sound hsound hhandle⟩
  · rw [← contents_of_handle? hhandle]
    exact (hsound hhandle).current
  · intro ν ε _ edit notes
    have hcommit := commit_of_sound hsound hhandle edit notes
    have hedit := edit_of_sound hsound hhandle edit notes
    cases hrun : edit.body (.ofSnapshot f.contents) notes with
    | mk outcome notes' =>
      rw [hrun] at hcommit hedit
      cases outcome with
      | ok e => exact ⟨hcommit, hedit⟩
      | error cause => exact ⟨hcommit, hedit⟩

/-- Two handles on a new database, the first of which commits an edit: the second one publishes
old contents until it refreshes. -/
theorem two_handles_keep_what_is_committed :
    let opened : Connection :=
      ⟨{ versions := some [1], preferences := some [], commits := 1 }, 0, 1⟩
    let two : Fleet Connection Unit := ((start {}).add opened ()).add opened ()
    let first : Observed Connection Unit := ⟨⟨opened, Dict.empty, .empty⟩, (), []⟩
    let edit := Edit.put "a" (.boolean true)
    let f := two.keep 0 { first with store := (first.store.commit edit.body ()).2.2 }
    (start {}).Reaches f ∧ f.handle? 1 = some (first.rejoin f.database) ∧
      first.store.published.same f.contents = false ∧
      ∃ changed o', (first.rejoin f.database).refresh = (.ok changed, o') ∧
        o'.store.published.same f.contents = true := by
  intro opened two first edit f
  have hreaches : (start {}).Reaches f := by
    refine .tail (.tail (.tail .refl (.opens (b := opened) ?_ ())) (.opens (b := opened) ?_ ())) ?_
    · rfl
    · rfl
    · exact .acts (i := 0) (o := first) rfl (.commit edit ())
  have hhandle : f.handle? 1 = some (first.rejoin f.database) := rfl
  obtain ⟨-, -, changed, o', hrefresh, -, -, hsame, -⟩ :=
    (handles_keep_what_is_committed hreaches).2 hhandle
  exact ⟨hreaches, hhandle, by decide, changed, o', hrefresh, hsame⟩

end Fleet

end PrefStore
