import PrefStore.Proofs.Backup.Import

/-!
# Documents on the wire

The wire form of a document keeps the version and the entries in one key space. Reading never
lets a reserved key into a document, and a document without one is read back from its wire form,
whatever its version is and whether or not its trees match their kinds. So a tree that is read
as a document is imported as that document is.
-/

namespace PrefStore

namespace Document

/-- A tree is read as a document where it is an object that states the version of the document
and whose holders are its entries. -/
theorem ofJson_eq_ok_iff {json : Json} {d : Document} :
    ofJson json = .ok d ↔ ∃ fields hs, json = .obj fields ∧
      version? (Assoc.get? versionKey fields) = some d.version ∧
      holders fields = .ok hs ∧ d.entries = Dict.ofList hs := by
  constructor
  · intro h
    obtain ⟨fields, hroot, h⟩ := bind_eq_ok_iff.1 h
    refine ⟨fields, ?_⟩
    cases hversion : version? (Assoc.get? versionKey fields) with
    | none =>
      rw [hversion] at h
      cases h
    | some version =>
      rw [hversion] at h
      obtain ⟨hs, hholders, h⟩ := bind_eq_ok_iff.1 h
      cases h
      exact ⟨hs, root_eq_ok_iff.1 hroot, rfl, hholders, rfl⟩
  · rintro ⟨fields, hs, rfl, hversion, hholders, hentries⟩
    simp only [ofJson, root, hversion, hholders, bind, Except.bind, pure, Except.pure]
    rw [← hentries]

private theorem keys_of_holders {fields : List (String × Json)} {hs : List (String × Holder)}
    (h : holders fields = .ok hs) :
    hs.map Prod.fst = (fields.filter fun field => !isReserved field.1).map Prod.fst := by
  refine keys_of_mapM (fun {entry value} hvalue => ?_) h
  obtain ⟨_, -, hpair⟩ := bind_eq_ok_iff.1 hvalue
  cases hpair
  rfl

/-- A document of holders under keys that are not reserved has no reserved key. -/
theorem unreserved_of_holders {d : Document} {hs : List (String × Holder)}
    (hentries : d.entries = Dict.ofList hs) (hopen : ∀ entry ∈ hs, isReserved entry.1 = false) :
    d.Unreserved := by
  intro key hkey
  rw [hentries, Dict.get?_ofList, find?_reserved hopen hkey]
  rfl

private theorem unreserved_of_ofJson {json : Json} {d : Document} (h : ofJson json = .ok d) :
    d.Unreserved := by
  obtain ⟨fields, hs, -, -, hholders, hentries⟩ := ofJson_eq_ok_iff.1 h
  apply unreserved_of_holders hentries
  intro entry hentry
  have hkey : entry.1 ∈ (fields.filter fun field => !isReserved field.1).map Prod.fst :=
    keys_of_holders hholders ▸ List.mem_map_of_mem hentry
  obtain ⟨field, hfield, heq⟩ := List.mem_map.1 hkey
  have hfree := (List.mem_filter.1 hfield).2
  rw [heq] at hfree
  simpa using hfree

/-- A tree that is read as a document is imported as the document is, also where its version is
refused. -/
theorem importJson_of_ofJson {β ρ : Type} [Backend β] [Conduct ρ] {json : Json} {d : Document}
    (h : ofJson json = .ok d) (o : Observed β ρ) : o.importJson json = o.importDocument d := by
  obtain ⟨fields, -, rfl, hversion, -⟩ := ofJson_eq_ok_iff.1 h
  simp only [Observed.importJson, root, hversion, h, bind, Except.bind]
  cases hcheck : checkVersion (some d.version) with
  | ok _ => rfl
  | error cause =>
    -- The document is decoded only after the same check.
    have hdecode : d.decode = .error cause := by
      rw [decode, hcheck]
      rfl
    simp only [Observed.importDocument, hdecode]

/-- Documents pass the wire unchanged. A document without reserved keys is read back from its
wire form, and every store imports either of them alike: with the same answer, and to the same
store and calls. What is read from any tree has no reserved key and so is read back too. -/
theorem wire_keeps_documents :
    (∀ d : Document, d.Unreserved → ofJson d.toJson = .ok d ∧
      ∀ {β ρ : Type} [Backend β] [Conduct ρ] (o : Observed β ρ),
        o.importJson d.toJson = o.importDocument d) ∧
    ∀ (json : Json) (d : Document), ofJson json = .ok d →
      d.Unreserved ∧ ofJson d.toJson = .ok d := by
  constructor
  · intro d h
    have hread := ofJson_toJson h
    exact ⟨hread, importJson_of_ofJson hread⟩
  · intro json d h
    have hopen := unreserved_of_ofJson h
    exact ⟨hopen, ofJson_toJson hopen⟩

/-- A document of a version that no import accepts, with an empty key and a tree that is not of
its kind, passes the wire. A tree that spells its version, names its kind and holds the migration
flag is read as one entry, which passes too. -/
theorem wire_keeps_odd_documents :
    let d : Document := ⟨-7, Dict.ofList [("", ⟨.float, .str "x"⟩), ("k", ⟨.int, .null⟩)]⟩
    let o : Observed Memory Unit := ⟨⟨⟨Dict.empty⟩, Dict.empty, .empty⟩, (), []⟩
    let json := Json.obj [("__version", .str " 3 "), ("k", .obj [("type", .str "LONG"),
      ("value", .ofInt64 5)]), (migrationKey, .bool true)]
    let read : Document := ⟨3, Dict.ofList [("k", ⟨.long, .ofInt64 5⟩)]⟩
    d.Unreserved ∧ ofJson d.toJson = .ok d ∧ o.importJson d.toJson = o.importDocument d ∧
      ofJson json = .ok read ∧ read.Unreserved ∧ ofJson read.toJson = .ok read := by
  intro d o json read
  have hd : d.Unreserved := unreserved_of_holders rfl (by decide)
  have hjson : ofJson json = .ok read := by rfl
  obtain ⟨hread, himport⟩ := wire_keeps_documents.1 d hd
  obtain ⟨hopen, hagain⟩ := wire_keeps_documents.2 json read hjson
  exact ⟨hd, hread, himport o, hjson, hopen, hagain⟩

end Document

end PrefStore
