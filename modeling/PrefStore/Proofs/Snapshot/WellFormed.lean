import PrefStore.Proofs.Edit.Lawful

/-!
# Well-formed snapshots

A client writes under keys that are neither empty nor reserved, and only values that can be
stored. Besides what clients write there is the migration flag, which is only ever set. A
snapshot that holds nothing else is well formed, and no change of a draft makes it otherwise.
-/

namespace PrefStore

/-- An entry that a client may write. -/
def Writable (entry : String × Value) : Prop :=
  (entry.1 ≠ "" ∧ isReserved entry.1 = false) ∧ entry.2.storable = true

instance (entry : String × Value) : Decidable (Writable entry) :=
  inferInstanceAs (Decidable (_ ∧ _))

/-- An entry that may stand in a snapshot: one that a client may write, or the set flag. -/
def Admissible (entry : String × Value) : Prop :=
  Writable entry ∨ entry = (migrationKey, .boolean true)

/-- An admissible entry at a key that clients see is one that they may write. -/
theorem Admissible.writable {key : String} {v : Value} (h : Admissible (key, v))
    (hkey : isReserved key = false) : Writable (key, v) := by
  rcases h with hwrite | hflag
  · exact hwrite
  · cases hflag
    simp at hkey

/-- A value that agrees with a storable one is storable. -/
theorem Value.storable_of_same {v w : Value} (h : v.same w = true) (hw : w.storable = true) :
    v.storable = true := by
  cases v with
  | float x =>
    cases w with
    | float y => cases x <;> cases y <;> simp_all [same, storable, Binary.same, Binary.isFinite]
    | boolean | int | long | string | stringSet => simp [same] at h
  | boolean | int | long | string | stringSet => rfl

/-- An entry is admissible if one with an agreeing value is. -/
theorem Admissible.of_same {key : String} {v w : Value} (h : Admissible (key, w))
    (hsame : v.same w = true) : Admissible (key, v) := by
  rcases h with ⟨hkey, hw⟩ | hflag
  · exact .inl ⟨hkey, Value.storable_of_same hsame hw⟩
  · cases hflag
    exact .inr (by rw [Value.same_boolean_iff.1 hsame])

namespace Snapshot

/-- There is no empty key and no version, nothing under the key of the flag but the set flag, and
no float that is not finite. -/
structure WellFormed (s : Snapshot) : Prop where
  empty_key : s.get? "" = none
  version_key : s.get? versionKey = none
  flag : ∀ v, s.get? migrationKey = some v → v = .boolean true
  finite : ∀ key x, s.get? key = some (.float x) → x.isFinite = true

/-- A snapshot is well formed if each of its entries is admissible. -/
theorem wellFormed_iff {s : Snapshot} :
    s.WellFormed ↔ ∀ key v, s.get? key = some v → Admissible (key, v) := by
  constructor
  · intro h key v hv
    by_cases hflag : key = migrationKey
    · subst hflag
      exact .inr (by rw [h.flag v hv])
    · have hempty : key ≠ "" := by
        rintro rfl
        rw [h.empty_key] at hv
        cases hv
      have hversion : key ≠ versionKey := by
        rintro rfl
        rw [h.version_key] at hv
        cases hv
      refine .inl ⟨⟨hempty, by simp [isReserved, hflag, hversion]⟩, ?_⟩
      cases v with
      | float x => exact h.finite key x hv
      | boolean | int | long | string | stringSet => rfl
  · intro h
    refine ⟨?_, ?_, fun v hv => ?_, fun key x hv => ?_⟩
    · refine Option.eq_none_iff_forall_not_mem.2 fun v hv => ?_
      rcases h "" v hv with hwrite | hflag
      · exact hwrite.1.1 rfl
      · exact absurd (Prod.mk.inj hflag).1 (by decide)
    · refine Option.eq_none_iff_forall_not_mem.2 fun v hv => ?_
      rcases h versionKey v hv with hwrite | hflag
      · simpa [isReserved] using hwrite.1.2
      · exact absurd (Prod.mk.inj hflag).1 (by decide)
    · rcases h migrationKey v hv with hwrite | hflag
      · simpa using hwrite.1.2
      · cases hflag
        rfl
    · rcases h key (.float x) hv with hwrite | hflag
      · exact hwrite.2
      · cases hflag

namespace WellFormed

/-- The empty snapshot is well formed. -/
theorem empty : WellFormed Dict.empty :=
  wellFormed_iff.2 fun _ _ hv => by cases hv

/-- A well-formed snapshot stays so when an admissible entry is put into it. -/
theorem insert {s : Snapshot} (h : s.WellFormed) {key : String} {v : Value}
    (hentry : Admissible (key, v)) : WellFormed (s.insert key v) := by
  refine wellFormed_iff.2 fun other w hw => ?_
  rw [Dict.get?_insert] at hw
  split at hw
  · next heq =>
    cases hw
    exact heq ▸ hentry
  · exact wellFormed_iff.1 h other w hw

/-- A snapshot is well formed if it holds nothing that a well-formed one does not hold. -/
theorem of_subset {s t : Snapshot} (h : s.WellFormed)
    (hsubset : ∀ key v, t.get? key = some v → s.get? key = some v) : t.WellFormed :=
  wellFormed_iff.2 fun key v hv => wellFormed_iff.1 h key v (hsubset key v hv)

/-- A snapshot that agrees with a well-formed one is well formed. -/
theorem of_agrees {s t : Snapshot} (h : t.WellFormed) (hagrees : s.Agrees t) : s.WellFormed := by
  rcases hagrees with rfl | hsame
  · exact h
  · refine wellFormed_iff.2 fun key v hv => ?_
    have hanswer := same_iff.1 hsame key
    rw [hv] at hanswer
    cases ht : t.get? key with
    | none =>
      rw [ht] at hanswer
      exact hanswer.elim
    | some w =>
      rw [ht] at hanswer
      exact (wellFormed_iff.1 h key w ht).of_same hanswer

end WellFormed

end Snapshot

namespace Draft

/-- One change leaves a well-formed snapshot. -/
theorem Change.wellFormed {d e : Draft} (h : d.Change e) (hd : d.entries.WellFormed) :
    e.entries.WellFormed := by
  cases h with
  | put h =>
    obtain ⟨hkey, hvalue, rfl⟩ := put_eq_ok_iff.1 h
    exact hd.insert (.inl ⟨hkey, hvalue⟩)
  | remove h =>
    obtain ⟨-, rfl⟩ := remove_eq_ok_iff.1 h
    refine hd.of_subset fun key v hv => ?_
    rw [Dict.get?_erase] at hv
    split at hv
    · cases hv
    · exact hv
  | clear =>
    refine hd.of_subset fun key v hv => ?_
    rw [get?_clear] at hv
    split at hv
    · exact hv
    · cases hv
  | markMigrated => exact hd.insert (.inr rfl)

/-- However many changes are made, they leave a well-formed snapshot. -/
theorem Leads.wellFormed {d e : Draft} (h : d.Leads e) (hd : d.entries.WellFormed) :
    e.entries.WellFormed := by
  induction h with
  | refl => exact hd
  | tail _ hchange ih => exact hchange.wellFormed ih

/-- Entries can be put into a draft exactly if each of them may be written. -/
theorem putAll_ok_iff {entries : List (String × Value)} (d : Draft) :
    (∃ e, d.putAll entries = .ok e) ↔ ∀ entry ∈ entries, Writable entry := by
  induction entries generalizing d with
  | nil => exact ⟨fun _ entry hentry => (List.not_mem_nil hentry).elim, fun _ => ⟨d, rfl⟩⟩
  | cons entry rest ih =>
    obtain ⟨key, value⟩ := entry
    have hcons (e : Draft) : d.putAll ((key, value) :: rest) = .ok e ↔
        ∃ next, d.put key value = .ok next ∧ next.putAll rest = .ok e := by
      rw [putAll, List.foldlM_cons, bind_eq_ok_iff]
      simp only [mapError_eq_ok_iff, putAll]
    simp only [hcons, List.forall_mem_cons]
    constructor
    · rintro ⟨e, next, hput, hrest⟩
      obtain ⟨hwrite, hvalue, -⟩ := put_eq_ok_iff.1 hput
      exact ⟨⟨hwrite, hvalue⟩, (ih next).1 ⟨e, hrest⟩⟩
    · rintro ⟨⟨hwrite, hvalue⟩, hrest⟩
      obtain ⟨e, he⟩ := (ih _).2 hrest
      exact ⟨e, _, put_eq_ok_iff.2 ⟨hwrite, hvalue, rfl⟩, he⟩

end Draft

end PrefStore
