import PrefStore.Proofs.Backup.Verdict

/-!
# Imports replace everything or nothing

An import that succeeds leaves exactly the entries that its document says, keeps what the store
holds at its reserved keys, and calls the listeners for every key that was visible before or is
imported. What a document says is told by the grammar of holders and not by a decoder. An import
that fails, at whatever stage, leaves the store as it was.
-/

namespace PrefStore

variable {β ρ : Type}

private theorem Draft.putAll_eq_ok {d e : Draft} {entries : List (String × Value)}
    (h : d.putAll entries = .ok e) :
    (∀ entry ∈ entries, isReserved entry.1 = false) ∧
      e.entries = entries.foldl (fun s entry => s.insert entry.1 entry.2) d.entries ∧
      e.touched = (entries.map Prod.fst).foldl StringSet.add d.touched := by
  induction entries generalizing d with
  | nil =>
    cases h
    simp
  | cons entry rest ih =>
    obtain ⟨key, value⟩ := entry
    rw [putAll, List.foldlM_cons] at h
    obtain ⟨next, hput, h⟩ := bind_eq_ok_iff.1 h
    obtain ⟨⟨-, hkey⟩, -, rfl⟩ := Draft.put_eq_ok_iff.1 (mapError_eq_ok_iff.1 hput)
    obtain ⟨hrest, hentries, htouched⟩ := ih h
    refine ⟨?_, hentries, htouched⟩
    intro other hother
    rcases List.mem_cons.1 hother with rfl | hother
    · exact hkey
    · exact hrest other hother

/-- A document says a value at a key if the holder there holds the value. -/
def Document.Says (document : Document) (key : String) (v : Value) : Prop :=
  ∃ holder, document.entries.get? key = some holder ∧ holder.Holds v

/-- The fields of an object say a value at a key if the field there, which must not be reserved, is
the wire form of a holder of the value. -/
def Document.FieldsSay (fields : List (String × Json)) (key : String) (v : Value) : Prop :=
  ∃ json holder, HasField fields key json ∧ Holder.Written json holder ∧ holder.Holds v

/-- Decoding gives what the document says, and every holder holds a value. -/
theorem Document.says_of_decode {document : Document} {values : List (String × Value)}
    (h : document.decode = .ok values) :
    Assoc.Ascending values ∧
      (∀ key v, (key, v) ∈ values ↔ document.Says key v) ∧
      ∀ key holder, document.entries.get? key = some holder → ∃ v, holder.Holds v := by
  obtain ⟨_, -, hvalues⟩ := bind_eq_ok_iff.1 h
  have hdecoded : Assoc.traverse (fun key holder => Holder.decode holder key)
      document.entries.entries = .ok values := hvalues
  have hascending := document.entries.ascending.traverse hdecoded
  refine ⟨hascending, fun key v => ?_, fun key holder hholder => ?_⟩
  · rw [← Assoc.get?_eq_some_iff hascending,
      Assoc.get?_traverse document.entries.ascending hdecoded]
    simp only [Holder.decode_eq_ok_iff]
    rfl
  · obtain ⟨v, hv⟩ := (Assoc.exists_traverse_iff document.entries.ascending).1
      ⟨values, hdecoded⟩ key holder hholder
    exact ⟨v, Holder.decode_eq_ok_iff.1 hv⟩

/-- A store whose entries were replaced. -/
structure Observed.Replaced [Backend β] [Transactional β] (o o' : Observed β ρ)
    (values : List (String × Value)) : Prop where
  /-- Nothing stale survives and nothing is lost. -/
  entries : o'.store.entries = values
  contents : o'.store.contents.Agrees o'.store.published
  isMigrated : o'.store.isMigrated = o.store.contents.isMigrated
  /-- Every listener is called once for every key that was visible before or is imported, in
  ascending order. -/
  calls : ∃ keys : List String, keys.Pairwise (· < ·) ∧
    (∀ key, key ∈ keys ↔ key ∈ o.store.contents.visible.map Prod.fst ∨ key ∈ values.map Prod.fst) ∧
    o'.calls = o.calls ++ keys.flatMap fun key =>
      o.store.listeners.active.map fun listener => ⟨0, listener, key, o'.store.published⟩

/-- A key that no entry has is found in none. -/
theorem find?_reserved {α : Type} {values : List (String × α)}
    (hvalues : ∀ entry ∈ values, isReserved entry.1 = false) {key : String}
    (hkey : isReserved key = true) : values.reverse.find? (·.1 = key) = none := by
  rw [List.find?_eq_none]
  intro entry hentry heq
  have hfalse := hvalues entry (List.mem_reverse.1 hentry)
  rw [of_decide_eq_true heq, hkey] at hfalse
  cases hfalse

private theorem Draft.replace_eq_ok {s : Snapshot} {e : Draft} {values : List (String × Value)}
    (hascending : Assoc.Ascending values)
    (h : (Draft.ofSnapshot s).clear.putAll values = .ok e) :
    e.entries.visible = values ∧
      (∀ key, isReserved key = true → e.entries.get? key = s.get? key) ∧
      ∀ key, key ∈ e.touched.items ↔ key ∈ s.visible.map Prod.fst ∨ key ∈ values.map Prod.fst := by
  obtain ⟨hvalues, hentries, htouched⟩ := putAll_eq_ok h
  have hget (key : String) : e.entries.get? key =
      ((values.reverse.find? (·.1 = key)).map Prod.snd).or
        (if isReserved key then s.get? key else none) := by
    rw [hentries, Dict.get?_foldl_insert]
    exact congrArg _ (Dict.get?_filterKeys s isReserved key)
  refine ⟨?_, ?_, ?_⟩
  · have hvisible : e.entries.filterKeys (fun key => !isReserved key) =
        (⟨values, hascending⟩ : Dict Value) := by
      refine Dict.ext_get? fun key => ?_
      rw [← Dict.ofList_entries ⟨values, hascending⟩, Dict.get?_ofList, Dict.get?_filterKeys, hget]
      cases hkey : isReserved key with
      | true => simp [find?_reserved hvalues hkey]
      | false => simp
    exact congrArg Dict.entries hvisible
  · intro key hkey
    rw [hget, find?_reserved hvalues hkey, Option.map_none, Option.none_or, if_pos hkey]
  · intro key
    rw [htouched, StringSet.mem_items_foldl_add, or_comm]
    have hclear : key ∈ (Draft.ofSnapshot s).clear.touched.items ↔
        key ∈ s.visible.map Prod.fst := by
      simp [Draft.clear, StringSet.mem_items_foldl_add, Draft.keys, Draft.ofSnapshot]
    rw [hclear]

namespace Observed

/-- Where entries are written over a cleared store, they replace the others. -/
theorem replaced_of_editStep [Backend β] [Transactional β] [Conduct ρ] {o o' : Observed β ρ}
    (hquiet : Conduct.Quiet o.conduct) {values : List (String × Value)}
    (hascending : Assoc.Ascending values)
    (h : o.editStep (·.clear.putAll values) = (.ok (), o')) : o.Replaced o' values := by
  obtain ⟨_, e, hrun, hwrote⟩ :=
    exists_wrote_of_edit hquiet (Edit.replace values) (editStep_eq_iff.1 h)
  have hput : o.store.draft.clear.putAll values = .ok e :=
    mapError_eq_ok_iff.1 (congrArg Prod.fst hrun)
  obtain ⟨hvisible, hreserved, htouched⟩ := Draft.replace_eq_ok hascending hput
  constructor
  case entries =>
    rw [Store.entries, hwrote.published]
    exact hvisible
  case contents => exact hwrote.agrees
  case isMigrated =>
    rw [Store.isMigrated, hwrote.published, Snapshot.isMigrated, Snapshot.isMigrated,
      hreserved migrationKey isReserved_migrationKey]
  case calls => exact hwrote.notified.congr htouched

/-- A document that is imported decodes, and its entries replace the others. -/
theorem replaced_of_importDocument [Backend β] [Transactional β] [Conduct ρ]
    {o o' : Observed β ρ} (hquiet : Conduct.Quiet o.conduct) {document : Document}
    (h : o.importDocument document = (.ok (), o')) :
    ∃ values, document.decode = .ok values ∧ o.Replaced o' values := by
  unfold importDocument at h
  split at h
  · cases h
  · next values hdecode =>
    exact ⟨values, hdecode, replaced_of_editStep hquiet (Document.says_of_decode hdecode).1 h⟩

/-- A tree that is imported is an object whose fields all say a value, and these values replace the
others. -/
theorem replaced_of_importJson [Backend β] [Transactional β] [Conduct ρ]
    {o o' : Observed β ρ} (hquiet : Conduct.Quiet o.conduct) {json : Json} (htidy : json.Tidy)
    (h : o.importJson json = (.ok (), o')) :
    ∃ fields values, json = .obj fields ∧ o.Replaced o' values ∧
      (∀ key v, (key, v) ∈ values ↔ Document.FieldsSay fields key v) ∧
      ∀ key field, Document.HasField fields key field → ∃ v, Document.FieldsSay fields key v := by
  rw [importJson_eq htidy] at h
  split at h
  · cases h
  · next values hvalues =>
    obtain ⟨fields, _, rfl, -⟩ := Document.values_eq_ok_iff.1 hvalues
    have hfields := Document.ascending_of_tidy htidy
    have hascending := Document.ascending_values hfields hvalues
    refine ⟨fields, values, rfl, replaced_of_editStep hquiet hascending h, fun key v => ?_, ?_⟩
    · rw [← Assoc.get?_eq_some_iff hascending]
      exact Document.get?_values hfields hvalues
    · intro key field hfield
      obtain ⟨holder, v, hwritten, hholds⟩ :=
        ((Document.exists_values_iff hfields).1 ⟨values, hvalues⟩).2 key field hfield
      exact ⟨v, field, holder, hfield, hwritten, hholds⟩

/-- An import replaces everything or nothing. Where the listeners do not edit the store, one that
succeeds leaves exactly the entries that the document says, of which none is without a value, keeps
the flag, and calls every listener once for each key that was visible or is imported; one that fails
for any reason leaves the store alone. A tree is tidy if the keys of its objects ascend. -/
theorem import_replaces_all_or_nothing [Backend β] [Transactional β] [Conduct ρ]
    (o : Observed β ρ) (hquiet : Conduct.Quiet o.conduct) :
    (∀ document o', o.importDocument document = (.ok (), o') →
      ∃ values, o.Replaced o' values ∧ (∀ key v, (key, v) ∈ values ↔ document.Says key v) ∧
        ∀ key holder, document.entries.get? key = some holder → ∃ v, document.Says key v) ∧
    (∀ (json : Json) o', json.Tidy → o.importJson json = (.ok (), o') →
      ∃ fields values, json = .obj fields ∧ o.Replaced o' values ∧
        (∀ key v, (key, v) ∈ values ↔ Document.FieldsSay fields key v) ∧
        ∀ key field, Document.HasField fields key field →
          ∃ v, Document.FieldsSay fields key v) ∧
    (∀ document cause o', o.importDocument document = (.error cause, o') → o.Untouched o') ∧
    ∀ json cause o', o.importJson json = (.error cause, o') → o.Untouched o' := by
  refine ⟨?_, ?_, ?_, ?_⟩
  · intro document o' h
    obtain ⟨values, hdecode, hreplaced⟩ := replaced_of_importDocument hquiet h
    obtain ⟨-, hsays, hholds⟩ := Document.says_of_decode hdecode
    refine ⟨values, hreplaced, hsays, fun key holder hholder => ?_⟩
    obtain ⟨v, hv⟩ := hholds key holder hholder
    exact ⟨v, holder, hholder, hv⟩
  · intro json o' htidy h
    exact replaced_of_importJson hquiet htidy h
  · intro document cause o' h
    exact failures_untouched.importDocument document h
  · intro json cause o' h
    exact failures_untouched.importJson json h

/-- Imports into memory, over an entry and under a listener that registers another: the value of the
document comes in, the old entry goes, and the listener is called for both. -/
theorem import_replaces_all_in_memory :
    let book : Rulebook := ⟨Dict.empty, [], [⟨0, "a", .register "late", false⟩]⟩
    let o : Observed Memory Rulebook :=
      ⟨⟨⟨Dict.ofList [("b", .boolean true)]⟩, Dict.empty, ⟨1, [0]⟩⟩, book, []⟩
    let document := Document.ofEntries (Dict.ofList [("a", .ofValue (.int 1))])
    let json := Json.obj [("__version", .ofInt64 2),
      ("a", .obj [("type", .str "INT"), ("value", .ofInt64 1)])]
    Conduct.Quiet book ∧ json.Tidy ∧
      (∃ o', o.importDocument document = (.ok (), o') ∧ ("a", .int 1) ∈ o'.store.entries ∧
        (∀ v, ("b", v) ∉ o'.store.entries) ∧
        o'.calls.map (fun call => (call.listener, call.key)) = [(0, "a"), (0, "b")]) ∧
      ∃ o', o.importJson json = (.ok (), o') ∧ ("a", .int 1) ∈ o'.store.entries ∧
        ∀ v, ("b", v) ∉ o'.store.entries := by
  intro book o document json
  have hquiet : Conduct.Quiet book := Rulebook.quiet (by decide)
  have htidy : json.Tidy := by
    simp only [json, Json.Tidy, Json.TidyFields, Json.ofInt64]
    decide
  obtain ⟨hdocument, hjson, -⟩ := import_replaces_all_or_nothing o hquiet
  refine ⟨hquiet, htidy, ⟨_, rfl, ?_, ?_, rfl⟩, _, rfl, ?_, ?_⟩
  · obtain ⟨values, hreplaced, hsays, -⟩ := hdocument document _ rfl
    rw [hreplaced.entries, hsays]
    exact ⟨_, rfl, rfl, .int 1⟩
  · obtain ⟨values, hreplaced, hsays, -⟩ := hdocument document _ rfl
    intro v hv
    rw [hreplaced.entries, hsays] at hv
    obtain ⟨holder, hholder, -⟩ := hv
    cases hholder
  · obtain ⟨fields, values, hobj, hreplaced, hsays, -⟩ := hjson json _ htidy rfl
    obtain rfl := Json.obj.inj hobj
    rw [hreplaced.entries, hsays]
    have htag : Kind.TaggedBy .int (.str "INT") := .name
    exact ⟨_, _, ⟨by decide, rfl⟩, .intro rfl htag rfl, rfl, .int 1⟩
  · obtain ⟨fields, values, hobj, hreplaced, hsays, -⟩ := hjson json _ htidy rfl
    obtain rfl := Json.obj.inj hobj
    intro v hv
    rw [hreplaced.entries, hsays] at hv
    obtain ⟨field, holder, ⟨-, hfield⟩, -⟩ := hv
    cases hfield

end Observed

end PrefStore
