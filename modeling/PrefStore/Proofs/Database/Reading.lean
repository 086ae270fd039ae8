import PrefStore.Proofs.Backup.Grammar
import PrefStore.Proofs.Database.Connection
import PrefStore.Proofs.Dict.Last

/-!
# What rows of preferences say

Which cells read as a value, which rows say what, and which snapshot rows say as a whole, each as a
relation that says nothing about how it is decided. Rows decode exactly if every one of them says
something, and then to the snapshot that they say: at each key the last row of the key counts.
-/

namespace PrefStore

/-- A cell reads as a value. -/
inductive Cell.Reads : Cell → Value → Prop where
  /-- Every integer but zero is true. -/
  | boolean (i : Int64) : Reads (.int i) (.boolean (i ≠ 0))
  /-- A real is rounded to 32 bits. -/
  | float {x : Double} (h : x ≠ .nan) : Reads (.real x) (.float x.narrow)
  | whole (i : Int64) : Reads (.int i) (.float (.ofInt .single i.toInt))
  | int (i : Int32) : Reads (.int i.toInt64) (.int i)
  | long (i : Int64) : Reads (.int i) (.long i)
  | string (s : String) : Reads (.text s) (.string s)
  | stringSet {text : String} {items : List String}
      (h : Json.read? text = some (.ofStrings items)) :
      Reads (.text text) (.stringSet (.ofList items))

/-- A value of a kind is read exactly from the cells that read as a value of this kind. -/
theorem Value.ofCell?_eq_some_iff {kind : Kind} {cell : Cell} {v : Value} :
    ofCell? kind cell = some v ↔ v.kind = kind ∧ cell.Reads v := by
  constructor
  · intro h
    cases cell with
    | null | blob => cases kind <;> cases h
    | int i =>
      cases kind with
      | boolean =>
        cases h
        exact ⟨rfl, .boolean i⟩
      | float =>
        cases h
        exact ⟨rfl, .whole i⟩
      | int =>
        obtain ⟨small, hsmall, rfl⟩ := Option.map_eq_some_iff.1 h
        have hsame : i = small.toInt64 := by
          rw [← Int64.toInt_inj, Int32.toInt_toInt64, int32?_eq_some_iff.1 hsmall]
        rw [hsame]
        exact ⟨rfl, .int small⟩
      | long =>
        cases h
        exact ⟨rfl, .long i⟩
      | string | stringSet => cases h
    | real x =>
      cases x with
      | nan => cases kind <;> cases h
      | infinite | zero | finite =>
        cases kind with
        | float =>
          cases h
          exact ⟨rfl, .float nofun⟩
        | boolean | int | long | string | stringSet => cases h
    | text s =>
      cases kind with
      | string =>
        cases h
        exact ⟨rfl, .string s⟩
      | stringSet =>
        obtain ⟨items, hitems, rfl⟩ := Option.map_eq_some_iff.1 h
        obtain ⟨json, hread, hstrings⟩ := Option.bind_eq_some_iff.1 hitems
        rw [Json.strings?_eq_some_iff.1 hstrings] at hread
        exact ⟨rfl, .stringSet hread⟩
      | boolean | float | int | long => cases h
  · rintro ⟨rfl, h⟩
    cases h with
    | boolean | whole | long | string => rfl
    | @float x hnan =>
      cases x with
      | nan => exact absurd rfl hnan
      | infinite | zero | finite => rfl
    | int i => simp [ofCell?, kind, Cell.stored]
    | stringSet hread => simp [ofCell?, kind, Cell.stored, hread, Json.strings?_ofStrings]

namespace PreferenceRow

/-- A row says that a key has a value: the key is a text, the kind is the code of the value's kind,
and the cell reads as the value. -/
structure Says (row : PreferenceRow) (key : String) (v : Value) : Prop where
  key : row.key = .text key
  kind : row.kind = .int (Int64.ofNat v.kind.code)
  value : row.value.Reads v

/-- A row decodes to what it says. -/
theorem preference?_eq_some_iff {row : PreferenceRow} {key : String} {v : Value} :
    row.preference? = some (key, v) ↔ row.Says key v := by
  constructor
  · intro h
    unfold preference? at h
    split at h
    · next k code hkey hcode =>
      obtain ⟨kind, hkind, h⟩ := Option.bind_eq_some_iff.1 h
      obtain ⟨w, hw, hentry⟩ := Option.map_eq_some_iff.1 h
      cases hentry
      obtain ⟨rfl, hreads⟩ := Value.ofCell?_eq_some_iff.1 hw
      exact ⟨hkey, by rw [hcode, Kind.ofCode?_toInt_eq_some_iff.1 hkind], hreads⟩
    · cases h
  · rintro ⟨hkey, hkind, hreads⟩
    simp only [preference?, hkey, hkind, Kind.ofCode?_toInt_eq_some_iff.2 rfl, Option.bind_some,
      Value.ofCell?_eq_some_iff.2 ⟨rfl, hreads⟩, Option.map_some]

end PreferenceRow

namespace Rows

/-- Rows are readable if every one of them says something. -/
def Readable (rows : List PreferenceRow) : Prop := ∀ row ∈ rows, ∃ key v, row.Says key v

/-- Rows say a snapshot: all are readable, and a key has the value that the last row of the key says
it has. -/
structure Say (rows : List PreferenceRow) (s : Snapshot) : Prop where
  readable : Readable rows
  get? : ∀ key v, s.get? key = some v ↔ ∃ row, IsLast PreferenceRow.key rows row ∧ row.Says key v

/-- Rows that all decode make the list of what they decode to. -/
private theorem mapM_eq_some_iff {rows : List PreferenceRow} {entries : List (String × Value)} :
    rows.mapM PreferenceRow.preference? = some entries ↔
      Readable rows ∧ entries = rows.filterMap PreferenceRow.preference? := by
  induction rows generalizing entries with
  | nil => simp [Readable]
  | cons row rows ih =>
    rw [List.mapM_cons]
    simp only [Option.bind_eq_bind, Option.bind_eq_some_iff, Option.pure_def, ih, Readable,
      List.forall_mem_cons, Option.some.injEq]
    constructor
    · rintro ⟨⟨key, v⟩, hrow, rest, ⟨hrest, rfl⟩, rfl⟩
      exact ⟨⟨⟨key, v, PreferenceRow.preference?_eq_some_iff.1 hrow⟩, hrest⟩, by simp [hrow]⟩
    · rintro ⟨⟨⟨key, v, hsaid⟩, hrest⟩, rfl⟩
      have hrow := PreferenceRow.preference?_eq_some_iff.2 hsaid
      exact ⟨(key, v), hrow, _, ⟨hrest, rfl⟩, by simp [hrow]⟩

/-- Rows decode to a snapshot exactly if they say it. -/
theorem hold_iff_say {rows : List PreferenceRow} {s : Snapshot} : Hold rows s ↔ Say rows s := by
  have hlast (hreadable : Readable rows) (key : String) (v : Value) :
      (Dict.ofList (rows.filterMap PreferenceRow.preference?)).get? key = some v ↔
        ∃ row, IsLast PreferenceRow.key rows row ∧ row.Says key v := by
    rw [Dict.get?_ofList, Option.map_eq_some_iff]
    constructor
    · rintro ⟨⟨k, w⟩, hfound, rfl⟩
      obtain ⟨before, row, after, rfl, ⟨hrow, hkey⟩, hafter⟩ :=
        reverse_find?_filterMap_eq_some_iff.1 hfound
      obtain rfl : k = key := of_decide_eq_true hkey
      have hsaid := PreferenceRow.preference?_eq_some_iff.1 hrow
      refine ⟨row, ⟨before, after, rfl, fun later hlater heq => ?_⟩, hsaid⟩
      obtain ⟨k', w', hlaterSays⟩ := hreadable later (by simp [hlater])
      have hne := hafter later hlater _ (PreferenceRow.preference?_eq_some_iff.2 hlaterSays)
      rw [hlaterSays.key, hsaid.key] at heq
      exact of_decide_eq_false hne (Cell.text.inj heq)
    · rintro ⟨row, ⟨before, after, rfl, hafter⟩, hsaid⟩
      refine ⟨(key, v), reverse_find?_filterMap_eq_some_iff.2 ⟨before, row, after, rfl, ?_, ?_⟩,
        rfl⟩
      · exact ⟨PreferenceRow.preference?_eq_some_iff.2 hsaid, by simp⟩
      · rintro later hlater ⟨k, w⟩ hlaterRow
        have hlaterSays := PreferenceRow.preference?_eq_some_iff.1 hlaterRow
        refine decide_eq_false fun heq => hafter later hlater ?_
        obtain rfl : k = key := heq
        rw [hlaterSays.key, hsaid.key]
  rw [hold_iff]
  constructor
  · rintro ⟨entries, hrows, rfl⟩
    obtain ⟨hreadable, rfl⟩ := mapM_eq_some_iff.1 hrows
    exact ⟨hreadable, hlast hreadable⟩
  · rintro ⟨hreadable, hget⟩
    refine ⟨_, mapM_eq_some_iff.2 ⟨hreadable, rfl⟩, Dict.ext_get? fun key => Option.ext fun v => ?_⟩
    rw [hlast hreadable, hget]

/-- What rows are read as: the snapshot that they say, or nothing if some row says nothing. -/
inductive ReadAs (rows : List PreferenceRow) : Snapshot → Prop where
  | said {s : Snapshot} (h : Say rows s) : ReadAs rows s
  | nothing (h : ¬Readable rows) : ReadAs rows Dict.empty

/-- Rows that are readable say something. -/
theorem Readable.exists_say {rows : List PreferenceRow} (h : Readable rows) : ∃ s, Say rows s :=
  ⟨_, hold_iff_say.1 (hold_iff.2 ⟨_, mapM_eq_some_iff.2 ⟨h, rfl⟩, rfl⟩)⟩

end Rows

namespace Connection

/-- Rows that are not readable are read as nothing. -/
theorem contents_of_not_readable {rows : List PreferenceRow} (h : ¬Rows.Readable rows) :
    contents rows = Dict.empty := by
  have hnone : Rows.snapshot? rows = none :=
    Option.eq_none_iff_forall_ne_some.2 fun _ hsaid => h (Rows.hold_iff_say.1 hsaid).readable
  rw [contents, hnone, Option.getD_none]

/-- Rows are read as the contents that a connection loads. -/
theorem readAs_iff {rows : List PreferenceRow} {s : Snapshot} :
    Rows.ReadAs rows s ↔ s = contents rows := by
  constructor
  · rintro (hsay | hunread)
    · exact (contents_of_hold (Rows.hold_iff_say.2 hsay)).symm
    · exact (contents_of_not_readable hunread).symm
  · rintro rfl
    by_cases hreadable : Rows.Readable rows
    · obtain ⟨said, hsay⟩ := hreadable.exists_say
      rw [contents_of_hold (Rows.hold_iff_say.2 hsay)]
      exact .said hsay
    · rw [contents_of_not_readable hreadable]
      exact .nothing hreadable

end Connection

end PrefStore
