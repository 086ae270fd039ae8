import Mathlib.Data.List.Nodup

/-!
# The last item of a key

Where items are written one after another and each replaces an earlier one with its key, the last
item of each key stays. There is one of them for each key that occurs.
-/

namespace PrefStore

variable {α κ : Type} {key : α → κ} {items rest : List α} {item other : α}

/-- An item is the last of its key. -/
def IsLast (key : α → κ) (items : List α) (item : α) : Prop :=
  ∃ before after, items = before ++ item :: after ∧ ∀ later ∈ after, key later ≠ key item

/-- The last item of a key is an item. -/
theorem IsLast.mem (h : IsLast key items item) : item ∈ items := by
  obtain ⟨before, after, rfl, -⟩ := h
  simp

/-- The first item is the last of its key if no other has the key, and the others do not depend on
it. -/
theorem isLast_cons_iff : IsLast key (other :: rest) item ↔
    item = other ∧ (∀ later ∈ rest, key later ≠ key other) ∨ IsLast key rest item := by
  constructor
  · rintro ⟨before, after, hitems, hafter⟩
    cases before with
    | nil =>
      obtain ⟨rfl, rfl⟩ := List.cons.inj hitems
      exact .inl ⟨rfl, hafter⟩
    | cons first before =>
      obtain ⟨rfl, rfl⟩ := List.cons.inj hitems
      exact .inr ⟨before, after, rfl, hafter⟩
  · rintro (⟨rfl, hrest⟩ | ⟨before, after, rfl, hafter⟩)
    · exact ⟨[], rest, rfl, hrest⟩
    · exact ⟨other :: before, after, rfl, hafter⟩

/-- A key has one last item. -/
theorem IsLast.unique (h : IsLast key items item) (hother : IsLast key items other)
    (hkey : key item = key other) : item = other := by
  induction items with
  | nil => exact absurd h.mem List.not_mem_nil
  | cons first rest ih =>
    rcases isLast_cons_iff.1 h with ⟨rfl, hrest⟩ | hin
    · rcases isLast_cons_iff.1 hother with ⟨rfl, -⟩ | hin
      · rfl
      · exact absurd hkey.symm (hrest other hin.mem)
    · rcases isLast_cons_iff.1 hother with ⟨rfl, hrest⟩ | hin'
      · exact absurd hkey (hrest item hin.mem)
      · exact ih hin hin'

/-! ## The list of them -/

variable [DecidableEq κ]

/-- The last items of the keys that occur, in order. -/
def lasts (key : α → κ) : List α → List α
  | [] => []
  | item :: rest =>
    if ∃ later ∈ rest, key later = key item then lasts key rest else item :: lasts key rest

/-- The list has the items that are the last of their key. -/
theorem mem_lasts_iff : item ∈ lasts key items ↔ IsLast key items item := by
  induction items with
  | nil => exact ⟨nofun, fun h => absurd h.mem List.not_mem_nil⟩
  | cons first rest ih =>
    rw [isLast_cons_iff, ← ih, lasts]
    split
    · next hlater =>
      obtain ⟨later, hmem, hkey⟩ := hlater
      exact ⟨.inr, fun h => h.resolve_left fun h => h.2 later hmem hkey⟩
    · next hnone =>
      rw [List.mem_cons]
      refine or_congr_left (iff_self_and.2 fun _ later hmem hkey => ?_)
      exact hnone ⟨later, hmem, hkey⟩

/-- The list has an item for each key that occurs. -/
theorem mem_keys_lasts_iff {k : κ} : k ∈ (lasts key items).map key ↔ k ∈ items.map key := by
  induction items with
  | nil => rfl
  | cons first rest ih =>
    rw [lasts]
    split
    · next hlater =>
      have hfirst : key first ∈ rest.map key := List.mem_map.2 hlater
      rw [ih, List.map_cons, List.mem_cons]
      exact ⟨.inr, fun h => h.elim (fun heq => heq ▸ hfirst) id⟩
    · rw [List.map_cons, List.map_cons, List.mem_cons, List.mem_cons, ih]

/-- The list has no two items of one key. -/
theorem nodup_keys_lasts (key : α → κ) (items : List α) : ((lasts key items).map key).Nodup := by
  induction items with
  | nil => exact List.nodup_nil
  | cons first rest ih =>
    rw [lasts]
    split
    · exact ih
    · next hnone =>
      refine List.nodup_cons.2 ⟨fun hmem => hnone ?_, ih⟩
      exact List.mem_map.1 (mem_keys_lasts_iff.1 hmem)

/-- Items with keys of their own are all last. -/
theorem lasts_of_nodup (h : (items.map key).Nodup) : lasts key items = items := by
  induction items with
  | nil => rfl
  | cons first rest ih =>
    obtain ⟨hfirst, hrest⟩ := List.nodup_cons.1 h
    rw [lasts, if_neg (fun hlater => hfirst (List.mem_map.2 hlater)), ih hrest]

end PrefStore
