import PrefStore.Proofs.Database.Reading
import PrefStore.Proofs.Number.Narrowing
import PrefStore.Proofs.Store.Durable

/-!
# Reals that are too large for 32 bits

A row may hold a real that becomes infinite when it is rounded to 32 bits, or that is infinite
itself. Such a row decodes: the float that it says is loaded, published and shown, although no
client could store it, and its holder in an export cannot be read back. Any other row says a value
that could be stored.
-/

namespace PrefStore

namespace PreferenceRow

/-- A row that says a float and holds a real that is too large for 32 bits. -/
structure Overflows (row : PreferenceRow) : Prop where
  kind : row.kind = .int 1
  value : ∃ x : Double, row.value = .real x ∧ x ≠ .nan ∧
    (x.isFinite = true → Binary.overflow ≤ |x.value|)

private theorem not_overflows {row : PreferenceRow} {cell : Cell} (hcell : row.value = cell)
    (hother : ∀ x, cell ≠ .real x) : ¬row.Overflows := by
  rintro ⟨-, x, hx, -⟩
  exact hother x (hcell.symm.trans hx)

/-- The value that a row says can be stored unless the row holds a real that is too large. -/
theorem Says.storable_iff {row : PreferenceRow} {key : String} {v : Value} (h : row.Says key v) :
    v.storable = true ↔ ¬row.Overflows := by
  have hreads := h.value
  generalize hcell : row.value = cell at hreads
  cases hreads with
  | @float x hnan =>
    have hkind : row.kind = .int 1 := h.kind
    have hoverflows : row.Overflows ↔ (x.isFinite = true → Binary.overflow ≤ |x.value|) := by
      constructor
      · rintro ⟨-, y, hy, -, hlarge⟩
        rw [hcell, Cell.real.injEq] at hy
        exact hy ▸ hlarge
      · intro hlarge
        exact ⟨hkind, x, hcell, hnan, hlarge⟩
    rw [hoverflows, Value.storable, Binary.isFinite_narrow_iff]
    simp only [Classical.not_imp, not_le]
  | whole i =>
    have hother := not_overflows hcell (by simp)
    simp only [Value.storable, Binary.isFinite_ofInt_single, hother, not_false_eq_true]
  | boolean | int | long | string | stringSet =>
    have hother := not_overflows hcell (by simp)
    simp only [Value.storable, hother, not_false_eq_true]

end PreferenceRow

namespace Rows

/-- The last row of a key holds a real that is too large. -/
def OverflowAt (rows : List PreferenceRow) (key : String) : Prop :=
  ∃ row, IsLast PreferenceRow.key rows row ∧ row.key = .text key ∧ row.Overflows

/-- What rows say at a key can be stored unless the last row of the key holds a real that is too
large. -/
theorem Say.storable_iff {rows : List PreferenceRow} {s : Snapshot} (h : Say rows s) {key : String}
    {v : Value} (hkey : s.get? key = some v) : v.storable = true ↔ ¬OverflowAt rows key := by
  obtain ⟨row, hlast, hsaid⟩ := (h.get? key v).1 hkey
  rw [hsaid.storable_iff, not_iff_not]
  constructor
  · intro hoverflows
    exact ⟨row, hlast, hsaid.key, hoverflows⟩
  · rintro ⟨other, hother, hotherKey, hoverflows⟩
    rwa [hlast.unique hother (hsaid.key.trans hotherKey.symm)]

/-- What rows are read as can be stored at a key unless the last row of the key holds a real that is
too large. -/
theorem ReadAs.validate_iff {rows : List PreferenceRow} {s : Snapshot} (h : ReadAs rows s)
    {key : String} {v : Value} (hkey : s.get? key = some v) :
    v.validate = .ok () ↔ ¬OverflowAt rows key := by
  rw [Value.validate_eq_ok_iff]
  cases h with
  | said hsay => exact hsay.storable_iff hkey
  | nothing => cases hkey

/-- All of what rows are read as can be stored exactly if some row says nothing or no last row of a
key holds a real that is too large. -/
theorem ReadAs.all_validate_iff {rows : List PreferenceRow} {s : Snapshot} (h : ReadAs rows s) :
    (∀ key v, s.get? key = some v → v.validate = .ok ()) ↔
      (Readable rows → ∀ key, ¬OverflowAt rows key) := by
  constructor
  · intro hvalid hreadable key hoverflow
    cases h with
    | nothing hunread => exact hunread hreadable
    | said hsay =>
      obtain ⟨row, hlast, hkey, -⟩ := id hoverflow
      obtain ⟨key', v, hsaid⟩ := hreadable row hlast.mem
      obtain rfl : key' = key := Cell.text.inj (hsaid.key.symm.trans hkey)
      have hget := (hsay.get? key' v).2 ⟨row, hlast, hsaid⟩
      exact (ReadAs.said hsay).validate_iff hget |>.1 (hvalid key' v hget) hoverflow
  · intro hsmall key v hkey
    rw [h.validate_iff hkey]
    cases h with
    | said hsay => exact hsmall hsay.readable key
    | nothing => cases hkey

end Rows

/-- What rows are read as is what transactions start from and what a store shows and exports. Each
value in it could be stored, and its holder in the export is read back, unless the last row of its
key holds a real that is too large for 32 bits. -/
theorem Connection.valid_unless_overflow {c : Connection} {rows : List PreferenceRow}
    (hrows : c.database.preferences = some rows) :
    ∃ s, Rows.ReadAs rows s ∧ c.load.1 = .ok s ∧
      (∀ {ν ε : Type} (t : Transform ν ε) (notes : ν),
        c.transact t notes = c.transact (fun _ => t s) notes) ∧
      (∀ key v, s.get? key = some v → (v.validate = .ok () ↔ ¬Rows.OverflowAt rows key)) ∧
      ((∀ key v, s.get? key = some v → v.validate = .ok ()) ↔
        (Rows.Readable rows → ∀ key, ¬Rows.OverflowAt rows key)) ∧
      ∃ store, Store.ofBackend? c = .ok store ∧ store.published = s ∧
        ∀ key holder, store.exportDocument.entries.get? key = some holder →
          ((∃ v, holder.decode key = .ok v) ↔ ¬Rows.OverflowAt rows key) := by
  have hread : Rows.ReadAs rows (contents rows) := readAs_iff.2 rfl
  have hload : c.load = (.ok (contents rows), { c with seen := c.foreign }) := by
    rw [load, hrows, Option.getD_some]
  refine ⟨contents rows, hread, by rw [hload], ?transact, fun _ _ => hread.validate_iff,
    hread.all_validate_iff, ⟨{ c with seen := c.foreign }, contents rows, .empty⟩, ?opened, rfl,
    ?exported⟩
  case transact =>
    intro ν ε t notes
    have hbegun := c.transaction.readOrClear_of_rows hrows
    simp only [transact, hbegun]
  case opened =>
    have hbackend : Backend.load c = c.load := rfl
    rw [Store.ofBackend?, hbackend, hload]
  case exported =>
    intro key holder hholder
    rw [Store.get?_exportDocument, Option.map_eq_some_iff] at hholder
    obtain ⟨v, hv, rfl⟩ := hholder
    have hget : (contents rows).get? key = some v := by
      have hvisible := Snapshot.mem_visible_iff.1 (Snapshot.visibleAt_eq_some_iff.1 hv)
      exact hvisible.2
    rw [Holder.exists_decode_ofValue_iff, ← Value.validate_eq_ok_iff, hread.validate_iff hget]

/-- Next to the least power of two that is too large, a float that is small enough is loaded as a
value that could be stored. -/
theorem Connection.valid_beside_overflow :
    let large : PreferenceRow := ⟨.text "k", .int 1, .real (.finite false 1 128 (by decide))⟩
    let small : PreferenceRow := ⟨.text "n", .int 1, .real (.finite true 1 (-1) (by decide))⟩
    let c : Connection := ⟨{ versions := some [1], preferences := some [large, small] }, 0, 0⟩
    c.database.preferences = some [large, small] ∧ Rows.OverflowAt [large, small] "k" ∧
      ∃ s, c.load.1 = .ok s ∧ s.get? "n" = some (.float (.finite true 1 (-1) (by decide))) ∧
        Value.validate (.float (.finite true 1 (-1) (by decide))) = .ok () ∧
        ¬Rows.OverflowAt [large, small] "n" := by
  intro large small c
  have hrows : c.database.preferences = some [large, small] := rfl
  obtain ⟨s, hread, hload, -, hvalid, -⟩ := valid_unless_overflow hrows
  have hs : s = contents [large, small] := readAs_iff.1 hread
  have hsmall : s.get? "n" = some (.float (.finite true 1 (-1) (by decide))) := by
    rw [hs]
    decide
  have hlarge : s.get? "k" = some (.float (.infinite false)) := by
    rw [hs]
    decide
  refine ⟨hrows, ?_, s, hload, hsmall, rfl, (hvalid _ _ hsmall).1 rfl⟩
  by_contra hno
  have hrefused := (hvalid _ _ hlarge).2 hno
  cases hrefused

/-- A real that is too large for 32 bits is loaded as an infinite float, which no client could have
stored, and the holder that a store exports for it is not read back. -/
theorem Connection.overflow_is_loaded :
    let large : PreferenceRow := ⟨.text "k", .int 1, .real (.finite false 1 128 (by decide))⟩
    let c : Connection := ⟨{ versions := some [1], preferences := some [large] }, 0, 0⟩
    open? c.database = .ok c ∧
      ∃ store, Store.ofBackend? c = .ok store ∧ c.load.1 = .ok store.published ∧
      store.getValue? "k" = some (.float (.infinite false)) ∧
      Value.validate (.float (.infinite false)) = .error (.nonFinite (.infinite false)) ∧
      store.exportDocument.entries.get? "k" = some ⟨.float, .null⟩ ∧
      Holder.decode ⟨.float, .null⟩ "k" =
        .error (.invalidHolder "k" "expected Float value, got null") := by
  intro large c
  have hload : c.load.1 = .ok (contents [large]) := rfl
  have hget : (contents [large]).visibleAt "k" = some (.float (.infinite false)) := by decide
  refine ⟨rfl, ⟨c, contents [large], .empty⟩, rfl, hload, hget, rfl, ?_, rfl⟩
  rw [Store.get?_exportDocument, Store.getValue?, hget]
  rfl

end PrefStore
