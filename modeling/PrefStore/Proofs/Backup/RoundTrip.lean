import PrefStore.Proofs.Backup.Codec
import PrefStore.Proofs.Backup.Exportable
import PrefStore.Proofs.Backup.Import
import PrefStore.Proofs.Store.Working

/-!
# Backups are restored

What a reachable store exports is the wire form of its entries. It is imported by any store
whose backend works, which then shows the same entries and exports the same tree. Whatever tree
is imported, the export that follows is the wire form of the entries that the tree decodes to.
-/

namespace PrefStore

variable {β β' ρ ρ' : Type}

/-- A store exports the document of its entries. -/
theorem Store.exportJson_eq (s : Store β) : s.exportJson = (Document.ofValues s.entries).toJson :=
  rfl

private theorem Store.entries_ascending (s : Store β) : Assoc.Ascending s.entries :=
  s.published.ascending.filter _

private theorem Document.unreserved_ofValues {values : List (String × Value)}
    (hascending : Assoc.Ascending values) (h : ∀ entry ∈ values, Writable entry) :
    (ofValues values).Unreserved := by
  intro key hkey
  cases hget : (ofValues values).entries.get? key with
  | none => rfl
  | some holder =>
    have hmem := Dict.mem_entries_iff.2 hget
    rw [entries_ofValues hascending] at hmem
    obtain ⟨entry, hentry, heq⟩ := List.mem_map.1 hmem
    have hreserved := (h entry hentry).1.2
    rw [show entry.1 = key from congrArg Prod.fst heq, hkey] at hreserved
    cases hreserved

namespace Observed

/-- One store was restored from another's export: it shows the same entries and exports the same
tree, and its migration flag is what it was. -/
structure Restored [Backend β'] [Transactional β'] (source : Observed β ρ)
    (target target' : Observed β' ρ') : Prop where
  entries : target'.store.entries = source.store.entries
  exportJson : target'.store.exportJson = source.store.exportJson
  contents_isMigrated : target'.store.contents.isMigrated = target.store.contents.isMigrated
  /-- A store that publishes what it holds goes on publishing the same flag. -/
  isMigrated : target.store.contents.Agrees target.store.published →
    target'.store.isMigrated = target.store.isMigrated

/-- A store whose entries were replaced by another's is restored from it. -/
theorem Replaced.restored [Backend β'] [Transactional β'] {source : Observed β ρ}
    {target target' : Observed β' ρ'} (h : target.Replaced target' source.store.entries) :
    Restored source target target' where
  entries := h.entries
  exportJson := by rw [Store.exportJson_eq, Store.exportJson_eq, h.entries]
  contents_isMigrated := h.contents.isMigrated.trans h.isMigrated
  isMigrated hagrees := h.isMigrated.trans hagrees.isMigrated

variable [Backend β] [Conduct ρ]

/-- A tree is imported where the document that is read from it is. -/
theorem importJson_eq_ok_iff {o o' : Observed β ρ} {json : Json} :
    o.importJson json = (.ok (), o') ↔
      ∃ document, Document.ofJson json = .ok document ∧
        o.importDocument document = (.ok (), o') := by
  constructor
  · intro h
    unfold importJson at h
    dsimp only at h
    split at h
    · cases h
    · next document hdocument =>
      obtain ⟨fields, -, hdocument⟩ := bind_eq_ok_iff.1 hdocument
      obtain ⟨_, -, hdocument⟩ := bind_eq_ok_iff.1 hdocument
      exact ⟨document, hdocument, h⟩
  · rintro ⟨document, hdocument, h⟩
    -- The version is checked before the holders are read, and again when the document is decoded.
    obtain ⟨fields, hroot, hrest⟩ := bind_eq_ok_iff.1 hdocument
    have hcheck : Document.checkVersion (some document.version) = .ok () := by
      unfold importDocument at h
      split at h
      · cases h
      · next values hdecode =>
        obtain ⟨_, hcheck, -⟩ := bind_eq_ok_iff.1 hdecode
        exact hcheck
    have hversion : Document.version? (Assoc.get? versionKey fields) = some document.version := by
      split at hrest
      · cases hrest
      · next version hversion =>
        obtain ⟨holders, -, hrest⟩ := bind_eq_ok_iff.1 hrest
        cases hrest
        exact hversion
    simp only [importJson, hroot, hversion, hcheck, hdocument, bind, Except.bind]
    exact h

/-- What a document decodes to is imported by one edit. -/
theorem importDocument_of_decode {o : Observed β ρ} {document : Document}
    {values : List (String × Value)} (h : document.decode = .ok values) :
    o.importDocument document = o.editStep (·.clear.putAll values) := by
  simp only [importDocument, h]

variable [Transactional β]

/-- A document is imported by a store that works, if its entries may be written. -/
theorem importDocument_ok {o : Observed β ρ} (hworks : o.store.Works) {document : Document}
    {values : List (String × Value)} (hdecode : document.decode = .ok values)
    (hvalues : ∀ entry ∈ values, Writable entry) :
    ∃ o', o.importDocument document = (.ok (), o') := by
  obtain ⟨e, he⟩ := (Draft.putAll_ok_iff o.store.draft.clear).2 hvalues
  have houtcome := editStep_outcome hworks (Draft.replace_leads values)
  rw [he] at houtcome
  rw [importDocument_of_decode hdecode]
  exact ⟨_, Prod.ext houtcome rfl⟩

/-- Whatever is imported may be written. -/
theorem writable_of_importDocument {o o' : Observed β ρ} {document : Document}
    {values : List (String × Value)} (hdecode : document.decode = .ok values)
    (h : o.importDocument document = (.ok (), o')) : ∀ entry ∈ values, Writable entry := by
  rw [importDocument_of_decode hdecode] at h
  obtain ⟨touched, s, hcommit, -⟩ := edit_eq_ok_iff.1 (editStep_eq_iff.1 h)
  have hcommit : o.store.commit (Edit.replace values).body () = _ := hcommit
  obtain ⟨_, e, hrun, -⟩ := Store.exists_draft_of_commit hcommit
  exact (Draft.putAll_ok_iff _).1 ⟨e, mapError_eq_ok_iff.1 (congrArg Prod.fst hrun)⟩

private theorem import_ofValues {o : Observed β ρ} (hquiet : Conduct.Quiet o.conduct)
    (hworks : o.store.Works) {values : List (String × Value)}
    (hascending : Assoc.Ascending values) (hvalues : ∀ entry ∈ values, Writable entry) :
    ∃ o', o.importJson (Document.ofValues values).toJson = (.ok (), o') ∧ o.Replaced o' values := by
  have hread := Document.ofJson_toJson (Document.unreserved_ofValues hascending hvalues)
  have hdecode := Document.decode_ofValues hascending fun entry hentry => (hvalues entry hentry).2
  obtain ⟨o', himport⟩ := importDocument_ok hworks hdecode hvalues
  obtain ⟨decoded, hdecoded, hreplaced⟩ := replaced_of_importDocument hquiet himport
  obtain rfl : decoded = values := Except.ok.inj (hdecoded.symm.trans hdecode)
  exact ⟨o', importJson_eq_ok_iff.2 ⟨_, hread, himport⟩, hreplaced⟩

/-- A backup of any reachable store is restored by every store that works and whose listeners do
not edit it. Whatever tree is imported by such a store, what it exports then is the wire form of
the entries that the tree decodes to; this is restored by every other store as well. -/
theorem backup_is_restored [Backend β'] [Transactional β'] [Conduct ρ']
    {target : Observed β' ρ'} (hquiet : Conduct.Quiet target.conduct)
    (hworks : target.store.Works) :
    (∀ source : Observed β ρ, source.Reachable →
      ∃ target', target.importJson source.store.exportJson = (.ok (), target') ∧
        Restored source target target') ∧
    ∀ (o o' : Observed β ρ) (json : Json), Conduct.Quiet o.conduct →
      o.importJson json = (.ok (), o') →
        (∃ document values, Document.ofJson json = .ok document ∧
          document.decode = .ok values ∧ o'.store.entries = values ∧
          o'.store.exportJson = (Document.ofValues values).toJson) ∧
        ∃ target', target.importJson o'.store.exportJson = (.ok (), target') ∧
          Restored o' target target' := by
  have hrestore (source : Observed β ρ) (h : ∀ entry ∈ source.store.entries, Writable entry) :
      ∃ target', target.importJson source.store.exportJson = (.ok (), target') ∧
        Restored source target target' := by
    obtain ⟨target', himport, hreplaced⟩ :=
      import_ofValues hquiet hworks source.store.entries_ascending h
    exact ⟨target', himport, hreplaced.restored⟩
  constructor
  · intro source hsource
    exact hrestore source hsource.exportable.published.visible
  · intro o o' json ho himport
    obtain ⟨document, hdocument, himported⟩ := importJson_eq_ok_iff.1 himport
    obtain ⟨values, hdecode, hreplaced⟩ := replaced_of_importDocument ho himported
    have hvalues := writable_of_importDocument hdecode himported
    refine ⟨⟨document, values, hdocument, hdecode, hreplaced.entries, ?_⟩, ?_⟩
    · rw [Store.exportJson_eq, hreplaced.entries]
    · exact hrestore o' (hreplaced.entries.symm ▸ hvalues)

/-- A store in memory that was empty and now holds one value of each kind. -/
def sixKinds : Observed Memory Unit :=
  let s : Snapshot := Dict.empty
  let script : Script := [
    ⟨.put "flag" (.boolean true), false⟩, ⟨.put "ratio" (.float (.zero true)), false⟩,
    ⟨.put "small" (.int (-1)), false⟩, ⟨.put "large" (.long 9223372036854775807), false⟩,
    ⟨.put "text" (.string "é"), false⟩, ⟨.put "set" (.stringSet (.ofList ["b", "a"])), false⟩]
  let o : Observed Memory Unit := ⟨⟨⟨s⟩, s, .empty⟩, (), []⟩
  { o with store := (o.store.commit script.edit.body []).2.2 }

/-- The backup of a store in memory is restored by a store over a database whose flag is set, and
so is what that store exports after it imported a document of another form. -/
theorem backup_of_sixKinds :
    let rows := [PreferenceRow.ofEntry migrationKey (.boolean true)]
    let connection : Connection := ⟨{ versions := some [1], preferences := some rows }, 0, 0⟩
    let target : Observed Connection Unit :=
      ⟨⟨connection, ⟨[(migrationKey, .boolean true)], by decide⟩, .empty⟩, (), []⟩
    let json := Json.obj [("__version", .str " 2 "),
      ("k", .obj [("type", .str "LONG"), ("value", .ofInt64 5)])]
    Conduct.Quiet target.conduct ∧ target.store.Works ∧ sixKinds.Reachable ∧
      (∃ target', target.importJson sixKinds.store.exportJson = (.ok (), target') ∧
        Restored sixKinds target target') ∧
      ∃ o', sixKinds.importJson json = (.ok (), o') ∧
        o'.store.entries = [("k", .long 5)] ∧
        ∃ target', target.importJson o'.store.exportJson = (.ok (), target') ∧
          Restored o' target target' := by
  intro rows connection target json
  have hquiet : Conduct.Quiet () := ⟨fun _ => True, trivial, fun _ _ _ _ _ _ _ => ⟨nofun, trivial⟩⟩
  have hworks : target.store.Works := ⟨rfl, rfl⟩
  have hreachable : sixKinds.Reachable := .alone rfl rfl (Act.commit _ _).acts
  obtain ⟨hrestores, himports⟩ := backup_is_restored (β := Memory) (ρ := Unit) hquiet hworks
  have himport : sixKinds.importJson json = (.ok (), (sixKinds.importJson json).2) := by
    rfl
  obtain ⟨-, hagain⟩ := himports sixKinds _ json hquiet himport
  exact ⟨hquiet, hworks, hreachable, hrestores sixKinds hreachable, _, himport, by rfl, hagain⟩

end Observed

end PrefStore
