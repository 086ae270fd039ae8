import PrefStore.Backup.Transfer
import PrefStore.Proofs.Backup.Grammar
import PrefStore.Proofs.Dict.Traverse
import PrefStore.Proofs.Snapshot.WellFormed
import PrefStore.Proofs.Store.Working

/-!
# What becomes of an import

Whether a tree is imported by a store that works depends on the tree alone: the fields are read
as holders, the holders are decoded, and the entries must leave out the empty key. A store
accepts the trees of the grammar and no others, and reports the first reason for refusal that
applies.
-/

namespace PrefStore

variable {β ρ : Type}

namespace Document

/-- The entries that a tree decodes to. -/
def values (json : Json) : Except ImportError (List (String × Value)) := do
  let fields ← root json
  checkVersion (version? (Assoc.get? versionKey fields))
  let holders ← holders fields
  Assoc.traverse (fun key holder => holder.decode key) holders

/-- The tree of an object has its fields. -/
theorem root_eq_ok_iff {json : Json} {fields : List (String × Json)} :
    root json = .ok fields ↔ json = .obj fields := by
  cases json <;> simp [root]

/-- Every other tree is refused. -/
theorem root_eq_error_iff {json : Json} {cause : ImportError} :
    root json = .error cause ↔ (∀ fields, json ≠ .obj fields) ∧
      cause = .invalidDocument ("expected an object, got " ++ json.text) := by
  cases json <;> simp [root, eq_comm]

/-- The current version passes. -/
theorem checkVersion_eq_ok_iff {found : Option Int64} :
    checkVersion found = .ok () ↔ found = some backupVersion := by
  unfold checkVersion
  split <;> simp_all

/-- Every other version is refused, and so is none. -/
theorem checkVersion_eq_error_iff {found : Option Int64} {cause : ImportError} :
    checkVersion found = .error cause ↔
      found ≠ some backupVersion ∧ cause = .versionMismatch found := by
  unfold checkVersion
  split <;> simp_all [eq_comm]

section Holders

variable {fields : List (String × Json)} (hfields : Assoc.Ascending fields)

/-- The fields that are not reserved are those that are read. -/
theorem get?_unreserved {key : String} {json : Json} :
    Assoc.get? key (fields.filter fun field => !isReserved field.1) = some json ↔
      HasField fields key json := by
  rw [Assoc.get?_filter (fun key => !isReserved key), HasField]
  cases isReserved key <;> simp

include hfields

/-- The holders ascend as the fields do. -/
theorem ascending_holders {hs : List (String × Holder)} (h : holders fields = .ok hs) :
    Assoc.Ascending hs :=
  Assoc.Ascending.traverse (hfields.filter _) h

/-- A holder is read from the field of its key. -/
theorem get?_holders {hs : List (String × Holder)} (h : holders fields = .ok hs) {key : String}
    {holder : Holder} : Assoc.get? key hs = some holder ↔
      ∃ json, HasField fields key json ∧ Holder.Written json holder := by
  simp only [Assoc.get?_traverse (hfields.filter _) h, get?_unreserved, Holder.ofJson_eq_ok_iff]

/-- The holders are read if every field is the wire form of one. -/
theorem exists_holders_iff : (∃ hs, holders fields = .ok hs) ↔
    ∀ key json, HasField fields key json → ∃ holder, Holder.Written json holder := by
  refine (Assoc.exists_traverse_iff (hfields.filter _)).trans ?_
  simp only [get?_unreserved, Holder.ofJson_eq_ok_iff]

/-- The fields are refused for the least key whose field is not the wire form of a holder. -/
theorem holders_eq_error_iff {cause : ImportError} : holders fields = .error cause ↔
    ∃ key json, HasField fields key json ∧ Holder.Fault key json cause ∧
      ∀ other json', other < key → HasField fields other json' →
        ∃ holder, Holder.Written json' holder := by
  refine (Assoc.traverse_eq_error_iff (hfields.filter _)).trans ?_
  simp only [get?_unreserved, Holder.ofJson_eq_ok_iff, Holder.ofJson_eq_error_iff]

end Holders

/-- Decoding fails for the least key whose holder does not decode. -/
theorem decodeAll_eq_error_iff {fields : List (String × Json)} (hfields : Assoc.Ascending fields)
    {hs : List (String × Holder)} (h : holders fields = .ok hs) {cause : ImportError} :
    Assoc.traverse (fun key holder => holder.decode key) hs = .error cause ↔
      ∃ key json holder e, HasField fields key json ∧ Holder.Written json holder ∧
        Value.Fault holder.kind holder.value e ∧ cause = .invalidHolder key e.message ∧
        ∀ other json' holder', other < key → HasField fields other json' →
          Holder.Written json' holder' → ∃ v, holder'.Holds v := by
  rw [Assoc.traverse_eq_error_iff (ascending_holders hfields h)]
  simp only [get?_holders hfields h, Holder.decode_eq_ok_iff, Holder.decode_eq_error_iff]
  constructor
  · rintro ⟨key, holder, ⟨json, hfield, hholder⟩, ⟨e, he, rfl⟩, hleast⟩
    refine ⟨key, json, holder, e, hfield, hholder, he, rfl, ?_⟩
    intro other json' holder' hless hother hholder'
    exact hleast other holder' hless ⟨json', hother, hholder'⟩
  · rintro ⟨key, json, holder, e, hfield, hholder, he, rfl, hleast⟩
    refine ⟨key, holder, ⟨json, hfield, hholder⟩, ⟨e, he, rfl⟩, ?_⟩
    rintro other holder' hless ⟨json', hother, hholder'⟩
    exact hleast other json' holder' hless hother hholder'

/-- A tree decodes if it is an object of the current version and all its holders do. -/
theorem values_eq_ok_iff {json : Json} {entries : List (String × Value)} :
    values json = .ok entries ↔ ∃ fields hs, json = .obj fields ∧
      Version fields (some backupVersion) ∧ holders fields = .ok hs ∧
      Assoc.traverse (fun key holder => holder.decode key) hs = .ok entries := by
  simp only [values, bind_eq_ok_iff, root_eq_ok_iff]
  constructor
  · rintro ⟨fields, rfl, _, hcheck, hs, hholders, hentries⟩
    have hversion := version?_eq_iff.1 (checkVersion_eq_ok_iff.1 hcheck)
    exact ⟨fields, hs, rfl, hversion, hholders, hentries⟩
  · rintro ⟨fields, hs, rfl, hversion, hholders, hentries⟩
    have hcheck := checkVersion_eq_ok_iff.2 (version?_eq_iff.2 hversion)
    exact ⟨fields, rfl, (), hcheck, hs, hholders, hentries⟩

/-- An object does not decode if its version is another, a field is not the wire form of a holder,
or a holder does not decode. -/
theorem values_obj_eq_error_iff {fields : List (String × Json)} {cause : ImportError} :
    values (.obj fields) = .error cause ↔
      (∃ found, Version fields found ∧ found ≠ some backupVersion ∧
        cause = .versionMismatch found) ∨
      Version fields (some backupVersion) ∧ (holders fields = .error cause ∨
        ∃ hs, holders fields = .ok hs ∧
          Assoc.traverse (fun key holder => holder.decode key) hs = .error cause) := by
  have hobj : values (.obj fields) =
      checkVersion (version? (Assoc.get? versionKey fields)) >>= fun _ =>
        holders fields >>= Assoc.traverse fun key holder => holder.decode key := rfl
  rw [hobj, bind_eq_error_iff, checkVersion_eq_error_iff]
  constructor
  · rintro (⟨hother, rfl⟩ | ⟨_, hcheck, hrest⟩)
    · exact .inl ⟨_, version?_eq_iff.1 rfl, hother, rfl⟩
    · have hversion := version?_eq_iff.1 (checkVersion_eq_ok_iff.1 hcheck)
      exact .inr ⟨hversion, bind_eq_error_iff.1 hrest⟩
  · rintro (⟨found, hversion, hother, rfl⟩ | ⟨hversion, hrest⟩)
    · rw [version?_eq_iff.2 hversion]
      exact .inl ⟨hother, rfl⟩
    · have hcheck := checkVersion_eq_ok_iff.2 (version?_eq_iff.2 hversion)
      exact .inr ⟨(), hcheck, bind_eq_error_iff.2 hrest⟩

section Values

variable {fields : List (String × Json)} (hfields : Assoc.Ascending fields)
include hfields

/-- The entries are those that the fields stand for. -/
theorem get?_values {entries : List (String × Value)} (h : values (.obj fields) = .ok entries)
    {key : String} {v : Value} : Assoc.get? key entries = some v ↔
      ∃ json holder, HasField fields key json ∧ Holder.Written json holder ∧ holder.Holds v := by
  obtain ⟨_, hs, hobj, -, hholders, hentries⟩ := values_eq_ok_iff.1 h
  cases hobj
  rw [Assoc.get?_traverse (ascending_holders hfields hholders) hentries]
  simp only [get?_holders hfields hholders, Holder.decode_eq_ok_iff]
  constructor
  · rintro ⟨holder, ⟨json, hfield, hholder⟩, hholds⟩
    exact ⟨json, holder, hfield, hholder, hholds⟩
  · rintro ⟨json, holder, hfield, hholder, hholds⟩
    exact ⟨holder, ⟨json, hfield, hholder⟩, hholds⟩

/-- The entries ascend as the fields do. -/
theorem ascending_values {entries : List (String × Value)}
    (h : values (.obj fields) = .ok entries) : Assoc.Ascending entries := by
  obtain ⟨_, hs, hobj, -, hholders, hentries⟩ := values_eq_ok_iff.1 h
  cases hobj
  exact (ascending_holders hfields hholders).traverse hentries

/-- An object of the current version decodes if every field stands for a value. -/
theorem exists_values_iff : (∃ entries, values (.obj fields) = .ok entries) ↔
    Version fields (some backupVersion) ∧ ∀ key json, HasField fields key json →
      ∃ holder v, Holder.Written json holder ∧ holder.Holds v := by
  constructor
  · rintro ⟨entries, h⟩
    obtain ⟨_, hs, hobj, hversion, hholders, hentries⟩ := values_eq_ok_iff.1 h
    cases hobj
    refine ⟨hversion, fun key json hfield => ?_⟩
    obtain ⟨holder, hholder⟩ := (exists_holders_iff hfields).1 ⟨hs, hholders⟩ key json hfield
    have hdecodes := (Assoc.exists_traverse_iff (ascending_holders hfields hholders)).1
      ⟨entries, hentries⟩ key holder ((get?_holders hfields hholders).2 ⟨json, hfield, hholder⟩)
    obtain ⟨v, hv⟩ := hdecodes
    exact ⟨holder, v, hholder, Holder.decode_eq_ok_iff.1 hv⟩
  · rintro ⟨hversion, hholds⟩
    have hwritten : ∀ key json, HasField fields key json →
        ∃ holder, Holder.Written json holder := by
      intro key json hfield
      obtain ⟨holder, v, hholder, -⟩ := hholds key json hfield
      exact ⟨holder, hholder⟩
    obtain ⟨hs, hholders⟩ := (exists_holders_iff hfields).2 hwritten
    have hdecodes : ∀ key holder, Assoc.get? key hs = some holder →
        ∃ v, holder.decode key = .ok v := by
      intro key holder hget
      obtain ⟨json, hfield, hholder⟩ := (get?_holders hfields hholders).1 hget
      obtain ⟨holder', v, hholder', hv⟩ := hholds key json hfield
      have hread : Holder.ofJson key json = .ok holder := Holder.ofJson_eq_ok_iff.2 hholder
      rw [Holder.ofJson_eq_ok_iff.2 hholder'] at hread
      cases hread
      exact ⟨v, Holder.decode_eq_ok_iff.2 hv⟩
    obtain ⟨entries, hentries⟩ :=
      (Assoc.exists_traverse_iff (ascending_holders hfields hholders)).2 hdecodes
    exact ⟨entries, values_eq_ok_iff.2 ⟨fields, hs, rfl, hversion, hholders, hentries⟩⟩

end Values

/-- What becomes of an import into a store that works: the tree must decode, and the empty key is
refused when it is written. -/
def verdict (json : Json) : Except ImportError Unit := do
  let entries ← values json
  match Assoc.get? "" entries with
  | some _ => .error (.store (.invalidKey ""))
  | none => return ()

/-- The fields of a tidy object ascend. -/
theorem ascending_of_tidy {fields : List (String × Json)} (h : (Json.obj fields).Tidy) :
    Assoc.Ascending fields := by
  rw [Json.Tidy] at h
  exact h.1

/-- Exactly the trees of the grammar pass. -/
theorem verdict_eq_ok_iff {json : Json} (htidy : json.Tidy) :
    verdict json = .ok () ↔ ∃ fields, json = .obj fields ∧ Accepted fields := by
  constructor
  · intro h
    obtain ⟨entries, hvalues, hempty⟩ := bind_eq_ok_iff.1 h
    obtain ⟨fields, hs, rfl, -⟩ := values_eq_ok_iff.1 hvalues
    have hfields := ascending_of_tidy htidy
    obtain ⟨hversion, hholds⟩ := (exists_values_iff hfields).1 ⟨entries, hvalues⟩
    refine ⟨fields, rfl, hversion, hholds, ?_⟩
    rintro key json hfield rfl
    obtain ⟨holder, v, hholder, hv⟩ := hholds "" json hfield
    have hget := (get?_values hfields hvalues).2 ⟨json, holder, hfield, hholder, hv⟩
    rw [hget] at hempty
    cases hempty
  · rintro ⟨fields, rfl, haccepted⟩
    have hfields := ascending_of_tidy htidy
    obtain ⟨entries, hvalues⟩ :=
      (exists_values_iff hfields).2 ⟨haccepted.version, haccepted.holds⟩
    refine bind_eq_ok_iff.2 ⟨entries, hvalues, ?_⟩
    cases hget : Assoc.get? "" entries with
    | none => rfl
    | some v =>
      obtain ⟨json, holder, hfield, -⟩ := (get?_values hfields hvalues).1 hget
      exact absurd rfl (haccepted.key_ne_empty "" json hfield)

private theorem refused_of_values {json : Json} (htidy : json.Tidy) {cause : ImportError}
    (h : values json = .error cause) : Refused json cause := by
  rcases bind_eq_error_iff.1 h with hroot | ⟨fields, hroot, -⟩
  · obtain ⟨hobject, rfl⟩ := root_eq_error_iff.1 hroot
    exact .notObject hobject
  · obtain rfl := root_eq_ok_iff.1 hroot
    have hfields := ascending_of_tidy htidy
    rcases values_obj_eq_error_iff.1 h with
      ⟨found, hversion, hother, rfl⟩ | ⟨hversion, hholders | ⟨hs, hholders, hdecode⟩⟩
    · exact .version hversion hother
    · obtain ⟨key, json, hfield, hfault, hleast⟩ := (holders_eq_error_iff hfields).1 hholders
      exact .fault hversion hfield hfault hleast
    · obtain ⟨key, json, holder, e, hfield, hholder, he, rfl, hleast⟩ :=
        (decodeAll_eq_error_iff hfields hholders).1 hdecode
      have hwritten := (exists_holders_iff hfields).1 ⟨hs, hholders⟩
      exact .value hversion hwritten hfield hholder he hleast

/-- The first reason that applies is the one that is given. -/
theorem verdict_eq_error_iff {json : Json} (htidy : json.Tidy) {cause : ImportError} :
    verdict json = .error cause ↔ Refused json cause := by
  rw [verdict, bind_eq_error_iff]
  constructor
  · rintro (hvalues | ⟨entries, hvalues, hempty⟩)
    · exact refused_of_values htidy hvalues
    · obtain ⟨fields, hs, rfl, -⟩ := values_eq_ok_iff.1 hvalues
      have hfields := ascending_of_tidy htidy
      split at hempty
      · next v hget =>
        cases hempty
        obtain ⟨hversion, hholds⟩ := (exists_values_iff hfields).1 ⟨entries, hvalues⟩
        obtain ⟨json, holder, hfield, -⟩ := (get?_values hfields hvalues).1 hget
        exact .emptyKey hversion hholds hfield
      · cases hempty
  · intro h
    cases h with
    | notObject hobject =>
      have hroot := root_eq_error_iff.2 ⟨hobject, rfl⟩
      exact .inl (bind_eq_error_iff.2 (.inl hroot))
    | version hversion hother =>
      exact .inl (values_obj_eq_error_iff.2 (.inl ⟨_, hversion, hother, rfl⟩))
    | @fault fields key json _ hversion hfield hfault hleast =>
      have hholders := (holders_eq_error_iff (ascending_of_tidy htidy)).2
        ⟨key, json, hfield, hfault, hleast⟩
      exact .inl (values_obj_eq_error_iff.2 (.inr ⟨hversion, .inl hholders⟩))
    | @value fields key json holder e hversion hwritten hfield hholder he hleast =>
      have hfields := ascending_of_tidy htidy
      obtain ⟨hs, hholders⟩ := (exists_holders_iff hfields).2 hwritten
      have hdecode := (decodeAll_eq_error_iff hfields hholders).2
        ⟨key, json, holder, e, hfield, hholder, he, rfl, hleast⟩
      exact .inl (values_obj_eq_error_iff.2 (.inr ⟨hversion, .inr ⟨hs, hholders, hdecode⟩⟩))
    | @emptyKey fields json hversion hholds hfield =>
      have hfields := ascending_of_tidy htidy
      obtain ⟨entries, hvalues⟩ := (exists_values_iff hfields).2 ⟨hversion, hholds⟩
      obtain ⟨holder, v, hholder, hv⟩ := hholds "" json hfield
      have hget := (get?_values hfields hvalues).2 ⟨json, holder, hfield, hholder, hv⟩
      exact .inr ⟨entries, hvalues, by rw [hget]⟩

end Document

private theorem Draft.putAll_eq_error {entries : List (String × Value)}
    (hentries : ∀ entry ∈ entries, isReserved entry.1 = false ∧ entry.2.storable = true)
    {v : Value} (hempty : ("", v) ∈ entries) (d : Draft) :
    d.putAll entries = .error (.store (.invalidKey "")) := by
  induction entries generalizing d with
  | nil => cases hempty
  | cons entry rest ih =>
    obtain ⟨key, value⟩ := entry
    obtain ⟨⟨hkey, hvalue⟩, hrest⟩ := List.forall_mem_cons.1 hentries
    rw [putAll, List.foldlM_cons]
    by_cases hhead : key = ""
    · subst hhead
      rfl
    · have hput : d.put key value = .ok _ := put_eq_ok_iff.2 ⟨⟨hhead, hkey⟩, hvalue, rfl⟩
      have hmem : ("", v) ∈ rest := by
        rcases List.mem_cons.1 hempty with heq | hmem
        · cases heq
          exact absurd rfl hhead
        · exact hmem
      dsimp only
      rw [hput]
      exact ih hrest hmem _

namespace Observed

variable [Backend β] [Conduct ρ]

/-- An import decodes the tree and replaces all entries in one edit. -/
theorem importJson_eq {o : Observed β ρ} {json : Json} (htidy : json.Tidy) :
    o.importJson json = match Document.values json with
      | .error cause => (.error (.error cause), o)
      | .ok entries => o.editStep (·.clear.putAll entries) := by
  cases json with
  | null | bool | num | str | arr => rfl
  | obj fields =>
    unfold importJson Document.values
    simp only [Document.root, bind, Except.bind]
    cases hcheck : Document.checkVersion (Document.version? (Assoc.get? versionKey fields)) with
    | error cause => rfl
    | ok _ =>
      have hversion := Document.checkVersion_eq_ok_iff.1 hcheck
      simp only [Document.ofJson, Document.root, hversion, bind, Except.bind, pure, Except.pure]
      cases hholders : Document.holders fields with
      | error cause => rfl
      | ok hs =>
        have hascending := Document.ascending_holders (Document.ascending_of_tidy htidy) hholders
        have hlist : (Dict.ofList hs).entries = hs :=
          congrArg Dict.entries (Dict.ofList_entries ⟨hs, hascending⟩)
        have hdecode : Document.decode ⟨backupVersion, Dict.ofList hs⟩ =
            Assoc.traverse (fun key holder => holder.decode key) hs := by
          rw [Document.decode, hlist, Document.checkVersion, if_pos rfl]
          rfl
        show o.importDocument ⟨backupVersion, Dict.ofList hs⟩ = _
        unfold importDocument
        generalize Document.decode _ = decoded at hdecode ⊢
        subst hdecode
        rfl

private theorem importJson_congr {o : Observed β ρ} {fields fields' : List (String × Json)}
    (htidy : (Json.obj fields).Tidy) (htidy' : (Json.obj fields').Tidy)
    (hversion : ∀ found, Document.Version fields found ↔ Document.Version fields' found)
    (hfields : ∀ key json, Document.HasField fields key json ↔ Document.HasField fields' key json) :
    o.importJson (.obj fields) = o.importJson (.obj fields') := by
  have hfound : Document.version? (Assoc.get? versionKey fields) =
      Document.version? (Assoc.get? versionKey fields') := by
    rw [Document.version?_eq_iff, hversion, ← Document.version?_eq_iff]
  have hunreserved : (fields.filter fun field => !isReserved field.1) =
      fields'.filter fun field => !isReserved field.1 := by
    refine Assoc.ext_get? ((Document.ascending_of_tidy htidy).filter _)
      ((Document.ascending_of_tidy htidy').filter _) fun key => Option.ext fun json => ?_
    rw [Document.get?_unreserved, hfields, ← Document.get?_unreserved]
  have hvalues : Document.values (.obj fields) = Document.values (.obj fields') := by
    simp only [Document.values, Document.root, Document.holders, hfound, hunreserved, bind,
      Except.bind]
  rw [importJson_eq htidy, importJson_eq htidy', hvalues]

variable [Transactional β]

/-- What becomes of an import into a store that works is the verdict on the tree. -/
theorem importJson_outcome {o : Observed β ρ} (hworks : o.store.Works) {json : Json}
    (htidy : json.Tidy) :
    (o.importJson json).1 = (Document.verdict json).mapError .error := by
  rw [importJson_eq htidy, Document.verdict]
  cases hvalues : Document.values json with
  | error cause => rfl
  | ok entries =>
    obtain ⟨fields, hs, rfl, -⟩ := Document.values_eq_ok_iff.1 hvalues
    have hfields := Document.ascending_of_tidy htidy
    have hascending := Document.ascending_values hfields hvalues
    have hentries : ∀ entry ∈ entries, isReserved entry.1 = false ∧ entry.2.storable = true := by
      rintro ⟨key, v⟩ hentry
      have hget := Assoc.get?_of_mem hascending hentry
      obtain ⟨json, holder, ⟨hkey, -⟩, -, -, hencoded⟩ :=
        (Document.get?_values hfields hvalues).1 hget
      exact ⟨hkey, hencoded.storable⟩
    show (o.editStep (·.clear.putAll entries)).1 = _
    rw [editStep_outcome hworks (Draft.replace_leads entries)]
    simp only [bind, Except.bind]
    cases hget : Assoc.get? "" entries with
    | some v =>
      rw [Draft.putAll_eq_error hentries (Assoc.mem_of_get? hget)]
      rfl
    | none =>
      have hwritable : ∀ entry ∈ entries, Writable entry := by
        rintro ⟨key, v⟩ hentry
        refine ⟨⟨?_, (hentries _ hentry).1⟩, (hentries _ hentry).2⟩
        rintro rfl
        rw [Assoc.get?_of_mem hascending hentry] at hget
        cases hget
      obtain ⟨e, he⟩ := (Draft.putAll_ok_iff o.store.draft.clear).2 hwritable
      rw [he]
      rfl

/-- A store that works imports exactly the trees of the grammar. Every other tree is refused for
the first reason that applies: it is not an object; its version is another; a field is not the
wire form of a holder; a holder does not decode; there is the empty key. Where several keys are
at fault, the least is reported. No import panics, and what stands under reserved keys does not
matter but for the version that is stated. -/
theorem import_accepts_its_grammar {o : Observed β ρ} (hworks : o.store.Works) {json : Json}
    (htidy : json.Tidy) :
    ((∃ o', o.importJson json = (.ok (), o')) ↔
      ∃ fields, json = .obj fields ∧ Document.Accepted fields) ∧
    (∀ cause, (∃ o', o.importJson json = (.error (.error cause), o')) ↔
      Document.Refused json cause) ∧
    (∀ o', o.importJson json ≠ (.error .panic, o')) ∧
    ∀ fields fields', json = .obj fields → (Json.obj fields').Tidy →
      (∀ found, Document.Version fields found ↔ Document.Version fields' found) →
      (∀ key field, Document.HasField fields key field ↔ Document.HasField fields' key field) →
      o.importJson json = o.importJson (.obj fields') := by
  have houtcome := importJson_outcome hworks htidy
  have hresult {answer : Except (Halt ImportError) Unit} :
      (∃ o', o.importJson json = (answer, o')) ↔
        (Document.verdict json).mapError .error = answer := by
    rw [← houtcome]
    constructor
    · rintro ⟨o', h⟩
      exact congrArg Prod.fst h
    · intro h
      exact ⟨_, Prod.ext h rfl⟩
  refine ⟨?_, ?_, ?_, ?_⟩
  · rw [hresult, mapError_eq_ok_iff, Document.verdict_eq_ok_iff htidy]
  · intro cause
    rw [hresult, mapError_eq_error_iff, ← Document.verdict_eq_error_iff htidy]
    simp
  · intro o' h
    obtain ⟨cause, -, hpanic⟩ := mapError_eq_error_iff.1 (hresult.1 ⟨o', h⟩)
    cases hpanic
  · rintro fields fields' rfl htidy' hversion hfields
    exact importJson_congr htidy htidy' hversion hfields

/-- In a document with a value that does not decode and, under a greater key, a field that is not
the wire form of a holder, the field is what is reported. -/
theorem field_is_reported_before_value :
    let o : Observed Memory Unit := ⟨⟨⟨Dict.empty⟩, Dict.empty, .empty⟩, (), []⟩
    let json := Json.obj [("__version", .ofInt64 2),
      ("a", .obj [("type", .str "BOOLEAN"), ("value", .null)]), ("b", .obj [])]
    o.store.Works ∧ json.Tidy ∧
      ∃ o', o.importJson json = (.error (.error (.invalidHolder "b" "missing type")), o') := by
  intro o json
  have hworks : o.store.Works := ⟨rfl, rfl⟩
  have htidy : json.Tidy := by
    simp only [json, Json.Tidy, Json.TidyFields, Json.ofInt64]
    decide
  have hrefused : Document.Refused json (.invalidHolder "b" "missing type") := by
    refine .fault (Document.version?_eq_iff.1 rfl) ⟨by decide, rfl⟩ (.noType rfl) ?_
    rintro other field hless ⟨hkey, hfield⟩
    rcases List.mem_cons.1 (Assoc.mem_of_get? hfield) with heq | hmem
    · cases heq
      cases hkey
    · rcases List.mem_cons.1 hmem with heq | hmem
      · cases heq
        have htag : Kind.TaggedBy .boolean (.str "BOOLEAN") := .name
        exact ⟨_, .intro rfl htag rfl⟩
      · cases List.mem_singleton.1 hmem
        exact absurd hless (String.lt_irrefl _)
  exact ⟨hworks, htidy, ((import_accepts_its_grammar hworks htidy).2.1 _).2 hrefused⟩

end Observed

end PrefStore
