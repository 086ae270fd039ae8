import PrefStore.Dict.Lemmas
import PrefStore.Proofs.Number.Exact
import PrefStore.Snapshot

/-!
# Snapshots that agree

`Snapshot.same` compares entry by entry; here it is read key by key. A snapshot is regular if
none of its values is a NaN. On regular snapshots the comparison is an equivalence, and
snapshots that agree cannot be told apart by the migration flag or by which keys they hold.
-/

namespace PrefStore

namespace Value

/-- Agreement goes both ways. -/
theorem same_comm (v w : Value) : v.same w = w.same v := by
  cases v <;> cases w <;> simp [same, eq_comm]
  rename_i x y
  cases x <;> cases y <;> simp [Binary.same, eq_comm]

/-- Values that agree with one value agree. -/
theorem same_trans {u v w : Value} (huv : u.same v = true) (hvw : v.same w = true) :
    u.same w = true := by
  cases u <;> cases v <;> cases w <;> simp_all [same]
  rename_i x y z
  cases x <;> cases y <;> cases z <;> simp_all [Binary.same]

/-- A value that agrees with another is no NaN. -/
theorem same_self_of_same {v w : Value} (h : v.same w = true) : v.same v = true :=
  same_trans h ((same_comm w v).trans h)

/-- A value agrees with itself unless it is NaN. -/
theorem same_self_iff {v : Value} : v.same v = true ↔ v ≠ .float .nan := by
  cases v with
  | float x =>
    rw [ne_eq, float.injEq]
    exact Binary.same_self_iff
  | boolean | int | long | string | stringSet => simp [same]

/-- Values other than floats agree only if they are equal. -/
theorem same_boolean_iff {v : Value} {b : Bool} :
    v.same (boolean b) = true ↔ v = boolean b := by
  cases v <;> simp [same]

/-- Answers agree if both are absent or both are there and agree. -/
def SameAnswer : Option Value → Option Value → Prop
  | none, none => True
  | some v, some w => v.same w = true
  | _, _ => False

end Value

open Value

private theorem sameEntries_iff {a b : List (String × Value)} (ha : Assoc.Ascending a)
    (hb : Assoc.Ascending b) : Snapshot.sameEntries a b = true ↔
      ∀ key, SameAnswer (Assoc.get? key a) (Assoc.get? key b) := by
  induction a generalizing b with
  | nil =>
    cases b with
    | nil => simp [Snapshot.sameEntries, SameAnswer]
    | cons head rest =>
      simp only [Snapshot.sameEntries, Bool.false_eq_true, false_iff]
      intro h
      simpa [Assoc.get?, SameAnswer] using h head.1
  | cons first as ih =>
    obtain ⟨k, v⟩ := first
    obtain ⟨hbelow, hsorted⟩ := List.pairwise_cons.1 ha
    cases b with
    | nil =>
      simp only [Snapshot.sameEntries, Bool.false_eq_true, false_iff]
      intro h
      simpa [Assoc.get?, SameAnswer] using h k
    | cons second bs =>
      obtain ⟨k', w⟩ := second
      obtain ⟨hbelow', hsorted'⟩ := List.pairwise_cons.1 hb
      have habsent {key : String} {rest : List (String × Value)}
          (hrest : ∀ entry ∈ rest, key < entry.1) : Assoc.get? key rest = none := by
        cases answer : Assoc.get? key rest with
        | none => rfl
        | some u => exact absurd (hrest _ (Assoc.mem_of_get? answer)) (String.lt_irrefl _)
      simp only [Snapshot.sameEntries, Bool.and_eq_true, decide_eq_true_eq,
        ih hsorted hsorted']
      constructor
      · rintro ⟨⟨rfl, hsame⟩, hrest⟩ key
        rw [Assoc.get?_cons, Assoc.get?_cons]
        split
        · exact hsame
        · exact hrest key
      · intro h
        -- A key that heads one list only would have to be found behind the head of the other,
        -- so each of the two heads would be below the other.
        have hk : k = k' := by
          by_contra hne
          have hlow := h k
          have hhigh := h k'
          rw [Assoc.get?_cons, Assoc.get?_cons, if_pos rfl, if_neg (Ne.symm hne)] at hlow
          rw [Assoc.get?_cons, Assoc.get?_cons, if_neg hne, if_pos rfl] at hhigh
          cases hfind : Assoc.get? k bs with
          | none => simp [hfind, SameAnswer] at hlow
          | some u =>
            cases hfind' : Assoc.get? k' as with
            | none => simp [hfind', SameAnswer] at hhigh
            | some u' =>
              have hlt : k' < k := hbelow' (k, u) (Assoc.mem_of_get? hfind)
              have hgt : k < k' := hbelow (k', u') (Assoc.mem_of_get? hfind')
              exact String.lt_irrefl _ (String.lt_trans hlt hgt)
        subst hk
        have hhead := h k
        rw [Assoc.get?_cons, Assoc.get?_cons, if_pos rfl, if_pos rfl] at hhead
        refine ⟨⟨rfl, hhead⟩, fun key => ?_⟩
        by_cases he : k = key
        · subst he
          rw [habsent hbelow, habsent hbelow']
          trivial
        · simpa [Assoc.get?_cons, he] using h key

namespace Snapshot

/-- No value of the snapshot is a NaN. -/
def Regular (s : Snapshot) : Prop := ∀ key v, s.get? key = some v → v.same v = true

/-- Snapshots agree exactly if their answers agree at every key. -/
theorem same_iff {a b : Snapshot} :
    a.same b = true ↔ ∀ key, SameAnswer (a.get? key) (b.get? key) :=
  sameEntries_iff a.ascending b.ascending

/-- A regular snapshot agrees with itself. -/
theorem Regular.same_self {s : Snapshot} (h : s.Regular) : s.same s = true := by
  rw [same_iff]
  intro key
  cases hs : s.get? key with
  | none => trivial
  | some v => exact h key v hs

/-- Agreement goes both ways. -/
theorem same_comm (a b : Snapshot) : a.same b = b.same a := by
  rw [Bool.eq_iff_iff, same_iff, same_iff]
  apply forall_congr'
  intro key
  cases a.get? key <;> cases b.get? key <;> simp only [SameAnswer]
  rw [Value.same_comm]

/-- Snapshots that agree with one snapshot agree. -/
theorem same_trans {a b c : Snapshot} (hab : a.same b = true) (hbc : b.same c = true) :
    a.same c = true := by
  rw [same_iff] at *
  intro key
  have h := hab key
  have h' := hbc key
  cases ha : a.get? key <;> cases hb : b.get? key <;> cases hc : c.get? key <;>
    simp only [ha, hb, hc, SameAnswer] at h h' ⊢
  exact Value.same_trans h h'

/-- A snapshot that agrees with another is regular. -/
theorem regular_of_same {a b : Snapshot} (h : a.same b = true) : a.Regular := by
  intro key v hv
  have hkey := same_iff.1 h key
  cases hb : b.get? key <;> simp only [hv, hb, SameAnswer] at hkey
  exact Value.same_self_of_same hkey

/-- Snapshots that agree have the same migration flag. -/
theorem isMigrated_of_same {a b : Snapshot} (h : a.same b = true) :
    a.isMigrated = b.isMigrated := by
  have hkey := same_iff.1 h migrationKey
  cases ha : a.get? migrationKey <;> cases hb : b.get? migrationKey <;>
    simp only [ha, hb, SameAnswer] at hkey <;> simp only [isMigrated, ha, hb]
  rename_i v w
  rw [decide_eq_decide, Option.some.injEq, Option.some.injEq]
  constructor
  · rintro rfl
    exact same_boolean_iff.1 ((Value.same_comm _ _).trans hkey)
  · rintro rfl
    exact same_boolean_iff.1 hkey

/-- Snapshots that agree hold the same keys. -/
theorem keys_of_same {a b : Snapshot} (h : a.same b = true) : a.keys = b.keys := by
  have hentries : ∀ xs ys, sameEntries xs ys = true → xs.map Prod.fst = ys.map Prod.fst := by
    intro xs
    induction xs with
    | nil =>
      intro ys h
      cases ys with
      | nil => rfl
      | cons second ys => cases h
    | cons first xs ih =>
      intro ys h
      cases ys with
      | nil => cases h
      | cons second ys =>
        simp only [sameEntries, Bool.and_eq_true, decide_eq_true_eq] at h
        rw [List.map_cons, List.map_cons, h.1.1, ih ys h.2]
  exact hentries _ _ h

/-- Snapshots that agree show clients the same keys. -/
theorem visible_keys_of_same {a b : Snapshot} (h : a.same b = true) :
    a.visible.map Prod.fst = b.visible.map Prod.fst := by
  have hkeys (s : Snapshot) :
      s.visible.map Prod.fst = s.keys.filter fun key => !isReserved key := by
    rw [visible, Dict.keys, List.filter_map]
    rfl
  rw [hkeys, hkeys, keys_of_same h]

/-- Clients see the entries whose key is not reserved. -/
theorem mem_visible_iff {s : Snapshot} {key : String} {v : Value} :
    (key, v) ∈ s.visible ↔ isReserved key = false ∧ s.get? key = some v := by
  rw [visible, List.mem_filter, Dict.mem_entries_iff, and_comm, Bool.not_eq_true']

/-- The value that a client sees at a key is that of an entry. -/
theorem visibleAt_eq_some_iff {s : Snapshot} {key : String} {v : Value} :
    s.visibleAt key = some v ↔ (key, v) ∈ s.visible := by
  rw [mem_visible_iff, visibleAt]
  cases isReserved key <;> simp

/-- Snapshots that agree show clients agreeing answers. -/
theorem sameAnswer_visibleAt {a b : Snapshot} (h : a.same b = true) (key : String) :
    SameAnswer (a.visibleAt key) (b.visibleAt key) := by
  unfold visibleAt
  split
  · trivial
  · exact same_iff.1 h key

/-- Snapshots still agree when agreeing values are put at a key of both. -/
theorem same_insert {a b : Snapshot} (h : a.same b = true) (key : String) {v w : Value}
    (hv : v.same w = true) : Snapshot.same (a.insert key v) (b.insert key w) = true := by
  refine same_iff.2 fun other => ?_
  rw [Dict.get?_insert, Dict.get?_insert]
  split
  · exact hv
  · exact same_iff.1 h other

/-- Snapshots still agree when a key of both is erased. -/
theorem same_erase {a b : Snapshot} (h : a.same b = true) (key : String) :
    Snapshot.same (a.erase key) (b.erase key) = true := by
  refine same_iff.2 fun other => ?_
  rw [Dict.get?_erase, Dict.get?_erase]
  split
  · trivial
  · exact same_iff.1 h other

/-- Snapshots still agree when both are filtered by their keys. -/
theorem same_filterKeys {a b : Snapshot} (h : a.same b = true) (keep : String → Bool) :
    Snapshot.same (a.filterKeys keep) (b.filterKeys keep) = true := by
  refine same_iff.2 fun other => ?_
  rw [Dict.get?_filterKeys, Dict.get?_filterKeys]
  split
  · exact same_iff.1 h other
  · trivial

/-- A snapshot follows another carefully if each of its values can be stored or was there. -/
def Careful (before after : Snapshot) : Prop :=
  ∀ key v, after.get? key = some v → before.get? key = some v ∨ v.storable = true

/-- What follows a regular snapshot carefully is regular. -/
theorem Careful.regular {before after : Snapshot} (h : before.Careful after)
    (hbefore : before.Regular) : after.Regular := by
  intro key v hv
  rcases h key v hv with hold | hstorable
  · exact hbefore key v hold
  · exact Value.same_self_of_storable hstorable

/-- Snapshots that agree or are even one; the two differ where a NaN is held. -/
def Agrees (a b : Snapshot) : Prop := a = b ∨ a.same b = true

theorem Agrees.refl (a : Snapshot) : a.Agrees a := .inl rfl

theorem Agrees.symm {a b : Snapshot} (h : a.Agrees b) : b.Agrees a :=
  h.imp Eq.symm fun h => (same_comm b a).trans h

theorem Agrees.trans {a b c : Snapshot} (h : a.Agrees b) (h' : b.Agrees c) : a.Agrees c := by
  rcases h with rfl | h
  · exact h'
  · rcases h' with rfl | h'
    · exact .inr h
    · exact .inr (same_trans h h')

/-- Snapshots that agree hold one value at a key, or agreeing ones. -/
theorem Agrees.get? {a b : Snapshot} (h : a.Agrees b) (key : String) :
    a.get? key = b.get? key ∨ SameAnswer (a.get? key) (b.get? key) := by
  rcases h with rfl | hsame
  · exact .inl rfl
  · exact .inr (same_iff.1 hsame key)

/-- Snapshots that agree have the same migration flag. -/
theorem Agrees.isMigrated {a b : Snapshot} (h : a.Agrees b) : a.isMigrated = b.isMigrated := by
  rcases h with rfl | h
  · rfl
  · exact isMigrated_of_same h

end Snapshot

end PrefStore
