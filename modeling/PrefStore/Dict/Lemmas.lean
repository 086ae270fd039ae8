import PrefStore.Dict

/-!
# Dictionaries by what they hold

`get?` is the view of a dictionary: each operation changes it at the keys it names and nowhere
else, and two dictionaries that answer alike at every key are equal. `Assoc` has the same
equations for plain lists, some of them for ascending lists only.
-/

namespace PrefStore

namespace Assoc

variable {α β : Type}

@[simp] theorem get?_nil (key : String) : get? key ([] : List (String × α)) = none := rfl

/-- The head of a list answers for its key. -/
theorem get?_cons (key k : String) (v : α) (rest : List (String × α)) :
    get? key ((k, v) :: rest) = if k = key then some v else get? key rest := rfl

/-- An insertion changes the answer at its key only, whatever the order of the list. -/
theorem get?_insert (key k : String) (v : α) (entries : List (String × α)) :
    get? key (insert k v entries) = if k = key then some v else get? key entries := by
  induction entries with
  | nil => rfl
  | cons head rest ih =>
    obtain ⟨k', v'⟩ := head
    unfold insert
    split
    · next same =>
      subst same
      by_cases h : k' = key <;> simp [get?, h]
    · next differ =>
      split
      · rfl
      · by_cases h : k' = key
        · subst h
          simp [get?, Ne.symm differ]
        · simp [get?, h, ih]

/-- An erasure empties its key only. -/
theorem get?_erase (key k : String) (entries : List (String × α)) :
    get? key (erase k entries) = if k = key then none else get? key entries := by
  induction entries with
  | nil => simp [erase]
  | cons head rest ih =>
    obtain ⟨k', v'⟩ := head
    unfold erase at ih ⊢
    by_cases same : k' = k
    · subst same
      rw [List.filter_cons_of_neg (by simp), ih]
      by_cases h : k' = key <;> simp [get?, h]
    · rw [List.filter_cons_of_pos (by simpa using same)]
      by_cases h : k' = key
      · subst h
        simp [get?, Ne.symm same]
      · rw [get?_cons, get?_cons, if_neg h, if_neg h, ih]

/-- A filter by key keeps the answers at the keys it keeps. -/
theorem get?_filter (keep : String → Bool) (key : String) (entries : List (String × α)) :
    get? key (entries.filter fun entry => keep entry.1) =
      if keep key then get? key entries else none := by
  induction entries with
  | nil => simp
  | cons head rest ih =>
    obtain ⟨k, v⟩ := head
    by_cases kept : keep k
    · rw [List.filter_cons_of_pos (by simpa using kept)]
      by_cases h : k = key
      · subst h
        simp [get?, kept]
      · simp [get?, h, ih]
    · rw [List.filter_cons_of_neg (by simpa using kept), ih]
      by_cases h : k = key
      · subst h
        simp [kept]
      · simp [get?, h]

/-- A change of every value changes every answer. -/
theorem get?_map (change : α → β) (key : String) (entries : List (String × α)) :
    get? key (entries.map fun entry => (entry.1, change entry.2)) =
      (get? key entries).map change := by
  induction entries with
  | nil => rfl
  | cons head rest ih =>
    obtain ⟨k, v⟩ := head
    by_cases h : k = key <;> simp [get?, h, ih]

/-- An answer is an entry. -/
theorem mem_of_get? {key : String} {v : α} {entries : List (String × α)}
    (h : get? key entries = some v) : (key, v) ∈ entries := by
  induction entries with
  | nil => simp at h
  | cons head rest ih =>
    obtain ⟨k, v'⟩ := head
    rw [get?_cons] at h
    split at h
    · next same =>
      subst same
      cases h
      exact List.mem_cons_self
    · exact List.mem_cons_of_mem _ (ih h)

/-- In an ascending list every entry is an answer. -/
theorem get?_of_mem {key : String} {v : α} {entries : List (String × α)}
    (sorted : Ascending entries) (h : (key, v) ∈ entries) : get? key entries = some v := by
  induction entries with
  | nil => simp at h
  | cons head rest ih =>
    obtain ⟨k, v'⟩ := head
    obtain ⟨below, sorted⟩ := List.pairwise_cons.1 sorted
    rw [get?_cons]
    rcases List.mem_cons.1 h with h | h
    · cases h
      simp
    · have less := below _ h
      rw [if_neg (by rintro rfl; exact String.lt_irrefl _ less)]
      exact ih sorted h

/-- Ascending lists that answer alike at every key are equal. -/
theorem ext_get? {a b : List (String × α)} (ha : Ascending a) (hb : Ascending b)
    (h : ∀ key, get? key a = get? key b) : a = b := by
  induction a generalizing b with
  | nil =>
    cases b with
    | nil => rfl
    | cons head rest => simpa [get?] using h head.1
  | cons first as ih =>
    cases b with
    | nil => simpa [get?] using h first.1
    | cons second bs =>
      obtain ⟨k, v⟩ := first
      obtain ⟨k', v'⟩ := second
      obtain ⟨belowA, sortedA⟩ := List.pairwise_cons.1 ha
      obtain ⟨belowB, sortedB⟩ := List.pairwise_cons.1 hb
      have memA : (k, v) ∈ (k', v') :: bs := mem_of_get? (by rw [← h k]; simp [get?])
      have memB : (k', v') ∈ (k, v) :: as := mem_of_get? (by rw [h k']; simp [get?])
      have same : k = k' := by
        rcases List.mem_cons.1 memA with e | e
        · exact congrArg Prod.fst e
        · rcases List.mem_cons.1 memB with e' | e'
          · exact (congrArg Prod.fst e').symm
          · exact absurd (String.lt_trans (belowB _ e) (belowA _ e')) (String.lt_irrefl _)
      subst same
      have value : v = v' := by simpa [get?] using h k
      subst value
      congr 1
      refine ih sortedA sortedB fun key => ?_
      have hk := h key
      rw [get?_cons, get?_cons] at hk
      by_cases e : k = key
      · subst e
        have absent {rest : List (String × α)} (below : ∀ entry ∈ rest, k < entry.1) :
            get? k rest = none := by
          cases answer : get? k rest with
          | none => rfl
          | some w => exact absurd (below _ (mem_of_get? answer)) (String.lt_irrefl _)
        rw [absent belowA, absent belowB]
      · simpa [e] using hk

/-- A new key makes a list longer by one. -/
theorem length_insert {key : String} {v : α} {entries : List (String × α)}
    (h : get? key entries = none) :
    (insert key v entries).length = entries.length + 1 := by
  induction entries with
  | nil => rfl
  | cons head rest ih =>
    obtain ⟨k, w⟩ := head
    rw [get?_cons] at h
    split at h
    · cases h
    · next hne =>
      rw [insert, if_neg hne]
      split
      · rfl
      · rw [List.length_cons, ih h, List.length_cons]

/-- In an ascending list the answers are the entries. -/
theorem get?_eq_some_iff {entries : List (String × α)} (h : Ascending entries) {key : String}
    {v : α} : get? key entries = some v ↔ (key, v) ∈ entries :=
  ⟨mem_of_get?, get?_of_mem h⟩

/-- Ascending lists with the same entries are equal. -/
theorem ext_mem {a b : List (String × α)} (ha : Ascending a) (hb : Ascending b)
    (h : ∀ entry, entry ∈ a ↔ entry ∈ b) : a = b := by
  refine ext_get? ha hb fun key => Option.ext fun v => ?_
  rw [get?_eq_some_iff ha, get?_eq_some_iff hb]
  exact h (key, v)

end Assoc

/-- The last of several items that bring in something of a sort brings in what is found first from
the end. -/
theorem reverse_find?_filterMap_eq_some_iff {α γ : Type} {f : α → Option γ} {p : γ → Bool}
    {items : List α} {c : γ} : (items.filterMap f).reverse.find? p = some c ↔
      ∃ before a after, items = before ++ a :: after ∧ (f a = some c ∧ p c = true) ∧
        ∀ later ∈ after, ∀ c', f later = some c' → p c' = false := by
  rw [← List.filterMap_reverse, ← List.head?_filter, List.filter_filterMap, List.head?_filterMap,
    List.findSome?_eq_some_iff]
  simp only [Option.filter_eq_some_iff, Option.filter_eq_none_iff, Bool.not_eq_true]
  constructor
  · rintro ⟨later, a, before, hitems, hfound, hlater⟩
    refine ⟨before.reverse, a, later.reverse, ?_, hfound, fun item hitem => ?_⟩
    · rw [← List.reverse_reverse items, hitems]
      simp
    · exact hlater item (List.mem_reverse.1 hitem)
  · rintro ⟨before, a, after, rfl, hfound, hafter⟩
    refine ⟨after.reverse, a, before.reverse, by simp, hfound, fun item hitem => ?_⟩
    exact hafter item (List.mem_reverse.1 hitem)

namespace Dict

variable {α β : Type}

@[simp] theorem get?_empty (key : String) : (empty : Dict α).get? key = none := rfl

/-- An insertion changes the answer at its key only. -/
theorem get?_insert (d : Dict α) (key k : String) (v : α) :
    (d.insert k v).get? key = if k = key then some v else d.get? key :=
  Assoc.get?_insert key k v d.entries

@[simp] theorem get?_insert_self (d : Dict α) (key : String) (v : α) :
    (d.insert key v).get? key = some v := by simp [get?_insert]

/-- An erasure empties its key only. -/
theorem get?_erase (d : Dict α) (key k : String) :
    (d.erase k).get? key = if k = key then none else d.get? key :=
  Assoc.get?_erase key k d.entries

/-- A filter by key keeps the answers at the keys it keeps. -/
theorem get?_filterKeys (d : Dict α) (keep : String → Bool) (key : String) :
    (d.filterKeys keep).get? key = if keep key then d.get? key else none :=
  Assoc.get?_filter keep key d.entries

/-- A change of every value changes every answer. -/
theorem get?_mapValues (d : Dict α) (change : α → β) (key : String) :
    (d.mapValues change).get? key = (d.get? key).map change :=
  Assoc.get?_map change key d.entries

/-- The entries are the answers. -/
theorem mem_entries_iff {d : Dict α} {key : String} {v : α} :
    (key, v) ∈ d.entries ↔ d.get? key = some v :=
  ⟨Assoc.get?_of_mem d.ascending, Assoc.mem_of_get?⟩

/-- The keys are those that have an answer. -/
theorem mem_keys_iff {d : Dict α} {key : String} : key ∈ d.keys ↔ d.contains key = true := by
  rw [contains, Option.isSome_iff_exists]
  simp only [← mem_entries_iff, keys, List.mem_map]
  exact ⟨fun ⟨⟨_, v⟩, mem, same⟩ => ⟨v, same ▸ mem⟩, fun ⟨v, mem⟩ => ⟨(key, v), mem, rfl⟩⟩

/-- After erasures one after another the erased keys are empty and the others as they were. -/
theorem get?_foldl_erase (keys : List String) (d : Dict α) (key : String) :
    (keys.foldl erase d).get? key = if key ∈ keys then none else d.get? key := by
  induction keys generalizing d with
  | nil => simp
  | cons head rest ih =>
    rw [List.foldl_cons, ih, get?_erase]
    by_cases h : head = key
    · subst h
      simp
    · simp [h, Ne.symm h]

/-- Dictionaries that answer alike at every key are equal. -/
theorem ext_get? {a b : Dict α} (h : ∀ key, a.get? key = b.get? key) : a = b :=
  ext_entries (Assoc.ext_get? a.ascending b.ascending h)

/-- After insertions one after another a key has the last value inserted at it, or else the
value it had. -/
theorem get?_foldl_insert (entries : List (String × α)) (d : Dict α) (key : String) :
    (entries.foldl (fun d entry => d.insert entry.1 entry.2) d).get? key =
      ((entries.reverse.find? (·.1 = key)).map Prod.snd).or (d.get? key) := by
  induction entries generalizing d with
  | nil => simp
  | cons head rest ih =>
    rw [List.foldl_cons, ih, get?_insert, List.reverse_cons, List.find?_append]
    cases List.find? (·.1 = key) rest.reverse with
    | some found => simp
    | none => by_cases h : head.1 = key <;> simp [h]

/-- After insertions one after another a key has a value if it was inserted or had one. -/
theorem exists_get?_foldl_insert_iff {entries : List (String × α)} {d : Dict α} {key : String} :
    (∃ v, (entries.foldl (fun d entry => d.insert entry.1 entry.2) d).get? key = some v) ↔
      key ∈ entries.map Prod.fst ∨ ∃ v, d.get? key = some v := by
  induction entries generalizing d with
  | nil => simp
  | cons head rest ih =>
    rw [List.foldl_cons, ih, get?_insert, List.map_cons, List.mem_cons]
    by_cases h : head.1 = key
    · simp [h]
    · simp [h, Ne.symm h]

/-- The answer of a dictionary made from a list is the last pair of the key. -/
theorem get?_ofList (entries : List (String × α)) (key : String) :
    (ofList entries).get? key = (entries.reverse.find? (·.1 = key)).map Prod.snd := by
  rw [ofList, get?_foldl_insert, get?_empty, Option.or_none]

/-- A filter by key keeps an inserted entry or drops it. -/
theorem filterKeys_insert (d : Dict α) (keep : String → Bool) (key : String) (v : α) :
    (d.insert key v).filterKeys keep =
      if keep key then (d.filterKeys keep).insert key v else d.filterKeys keep := by
  refine ext_get? fun other => ?_
  by_cases hkeep : keep key = true
  · rw [if_pos hkeep, get?_filterKeys, get?_insert, get?_insert, get?_filterKeys]
    by_cases heq : key = other
    · subst heq
      simp [hkeep]
    · simp [heq]
  · rw [if_neg hkeep, get?_filterKeys, get?_insert, get?_filterKeys]
    by_cases heq : key = other
    · subst heq
      simp [hkeep]
    · simp [heq]

/-- Each of several new keys makes a dictionary longer by one. -/
theorem length_foldl_insert {entries : List (String × α)} (hkeys : (entries.map Prod.fst).Nodup)
    {d : Dict α} (hnew : ∀ key ∈ entries.map Prod.fst, d.get? key = none) :
    (entries.foldl (fun d entry => d.insert entry.1 entry.2) d).entries.length =
      d.entries.length + entries.length := by
  induction entries generalizing d with
  | nil => rfl
  | cons head rest ih =>
    obtain ⟨hhead, hrest⟩ := List.nodup_cons.1 hkeys
    have hlength : (d.insert head.1 head.2).entries.length = d.entries.length + 1 :=
      Assoc.length_insert (hnew head.1 List.mem_cons_self)
    have hothers : ∀ key ∈ rest.map Prod.fst, (d.insert head.1 head.2).get? key = none := by
      intro key hkey
      have hne : head.1 ≠ key := fun heq => hhead (heq ▸ hkey)
      rw [get?_insert, if_neg hne]
      exact hnew key (List.mem_cons_of_mem _ hkey)
    rw [List.foldl_cons, ih hrest hothers, hlength, List.length_cons]
    omega

/-- A list without repeated keys makes a dictionary of the same length. -/
theorem length_ofList {entries : List (String × α)} (hkeys : (entries.map Prod.fst).Nodup) :
    (ofList entries).entries.length = entries.length := by
  have hlength := length_foldl_insert (d := empty) hkeys fun _ _ => rfl
  exact hlength.trans (Nat.zero_add _)

@[simp] theorem ofList_entries (d : Dict α) : ofList d.entries = d := by
  refine ext_get? fun key => ?_
  rw [get?_ofList]
  cases found : d.entries.reverse.find? (·.1 = key) with
  | some entry =>
    have same := List.find?_some found
    have mem := List.mem_reverse.1 (List.mem_of_find?_eq_some found)
    obtain ⟨k, v⟩ := entry
    simp only [decide_eq_true_eq] at same
    subst same
    simpa using (mem_entries_iff.1 mem).symm
  | none =>
    cases answer : d.get? key with
    | none => rfl
    | some v =>
      have none := List.find?_eq_none.1 found (key, v) (by simpa using mem_entries_iff.2 answer)
      simp at none

end Dict

namespace StringSet

/-- A member has the only value there is. -/
theorem mem_items_iff {s : StringSet} {item : String} : item ∈ s.items ↔ s.get? item = some () := by
  rw [← Dict.mem_entries_iff]
  simp only [items, Dict.keys, List.mem_map]
  exact ⟨fun ⟨⟨_, ()⟩, mem, same⟩ => same ▸ mem, fun mem => ⟨_, mem, rfl⟩⟩

/-- The members of a set ascend. -/
theorem ascending_items (s : StringSet) : s.items.Pairwise (· < ·) :=
  List.pairwise_map.2 s.ascending

@[simp] theorem items_empty : items Dict.empty = [] := rfl

/-- A set gains the member that is added and no other. -/
theorem mem_items_add {s : StringSet} {item other : String} :
    other ∈ (s.add item).items ↔ other = item ∨ other ∈ s.items := by
  rw [mem_items_iff, mem_items_iff, add, Dict.get?_insert]
  by_cases h : item = other
  · simp [h]
  · simp [h, Ne.symm h]

/-- A set gains the members that are added one after another and no other. -/
theorem mem_items_foldl_add {items' : List String} {s : StringSet} {other : String} :
    other ∈ (items'.foldl add s).items ↔ other ∈ items' ∨ other ∈ s.items := by
  induction items' generalizing s with
  | nil => simp
  | cons item rest ih => simp [ih, mem_items_add, or_assoc, or_left_comm]

@[simp] theorem ofList_items (s : StringSet) : ofList s.items = s := by
  rw [ofList, items, Dict.keys, List.foldl_map]
  exact Dict.ofList_entries s

end StringSet

end PrefStore
