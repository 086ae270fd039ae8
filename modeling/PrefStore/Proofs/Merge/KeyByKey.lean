import PrefStore.Proofs.Merge.Lookup

/-!
# Layering is the merge of its rules

The rules say what stands at a key after a merge, given how nested objects are merged; so they
speak of merges at every depth. Layering follows them, and it is the only merge that does:
two merges that follow them agree on all overrides, by induction on the size of the overrides.
-/

namespace PrefStore

namespace Json

/-- An array is tidy if its items are. -/
theorem tidyItems_iff {items : List Json} : TidyItems items ↔ ∀ item ∈ items, item.Tidy := by
  induction items with
  | nil => simp [TidyItems]
  | cons item rest ih => simp [TidyItems, ih]

/-- The values of an object are tidy if each of them is. -/
theorem tidyFields_iff {fields : List (String × Json)} :
    TidyFields fields ↔ ∀ field ∈ fields, field.2.Tidy := by
  induction fields with
  | nil => simp [TidyFields]
  | cons field rest ih => simp [TidyFields, ih]

end Json

namespace Merge

open Json

/-- What stands at a key is tidy, if anything does. -/
def TidyAt (held : Option Json) : Prop := ∀ value, held = some value → value.Tidy

/-- In a tidy object something tidy stands at every key. -/
theorem tidyAt_get? {fields : Fields} (h : TidyFields fields) (key : String) :
    TidyAt (Assoc.get? key fields) := by
  intro value hvalue
  exact tidyFields_iff.1 h _ (Assoc.mem_of_get? hvalue)

/-- A tidy value can be put into a tidy object. -/
theorem tidy_insert {base : Fields} (h : (obj base).Tidy) {value : Json} (hvalue : value.Tidy)
    (key : String) : (obj (Assoc.insert key value base)).Tidy := by
  refine ⟨h.1.insert key value, tidyFields_iff.2 fun field hfield => ?_⟩
  rcases Assoc.mem_insert hfield with rfl | hfield
  · exact hvalue
  · exact tidyFields_iff.1 h.2 field hfield

private theorem tidy_operand {value : Json} (h : value.Tidy) :
    ∀ item ∈ operand value, item.Tidy := by
  cases value with
  | arr items => exact tidyItems_iff.1 h
  | null | bool | num | str | obj => simpa [operand] using h

private theorem tidy_asList {held : Option Json} (h : TidyAt held) :
    ∀ item ∈ asList held, item.Tidy := by
  cases held with
  | none => simp [asList]
  | some value =>
    have hvalue := h value rfl
    cases value with
    | null => simp [asList]
    | arr items => exact tidyItems_iff.1 hvalue
    | bool | num | str | obj => simpa [asList] using hvalue

private theorem tidyAt_arr {items : List Json} (h : ∀ item ∈ items, item.Tidy) :
    TidyAt (some (.arr items)) := by
  rintro _ ⟨⟩
  exact tidyItems_iff.2 h

private theorem tidy_editList {base : Fields} (h : (obj base).Tidy) {items : List Json}
    (hitems : ∀ item ∈ items, item.Tidy) {join : List Json → List Json → List Json}
    (hjoin : ∀ a b item, item ∈ join a b → item ∈ a ∨ item ∈ b) (key : String) :
    (obj (editList key items join base)).Tidy := by
  unfold editList
  split
  · exact h
  · have hjoined : ∀ item ∈ join items (asList (Assoc.get? key base)), item.Tidy := by
      intro item hitem
      rcases hjoin _ _ _ hitem with hitem | hitem
      · exact hitems item hitem
      · exact tidy_asList (tidyAt_get? h.2 key) item hitem
    exact tidy_insert h (tidyAt_arr hjoined _ rfl) key

private theorem tidy_applyLeaf {base : Fields} (h : (obj base).Tidy) {value : Json}
    (hvalue : value.Tidy) (key : String) : (obj (applyLeaf key value base)).Tidy := by
  unfold applyLeaf
  split
  · exact tidy_insert h hvalue key
  · exact tidy_editList h (tidy_operand hvalue) (by simp) _
  · exact tidy_editList h (tidy_operand hvalue) (by simp [or_comm]) _
  · exact h

private theorem tidy_objectAt {base : Fields} (h : (obj base).Tidy) (key : String) :
    (obj (objectAt key base)).Tidy := by
  unfold objectAt
  split
  · next fields hfields => exact tidyAt_get? h.2 key _ hfields
  · exact ⟨List.Pairwise.nil, trivial⟩

mutual

private theorem tidy_apply (key : String) (value : Json) (hvalue : value.Tidy) {base : Fields}
    (h : (obj base).Tidy) : (obj (apply key value base)).Tidy := by
  cases value with
  | null =>
    rw [apply]
    exact h
  | obj fields =>
    rw [apply]
    split
    · exact tidy_insert h (tidy_layer fields hvalue.2 (tidy_objectAt h key)) key
    · exact tidy_applyLeaf h hvalue key
  | bool | num | str | arr => exact tidy_applyLeaf h hvalue key

/-- Tidy overrides leave a tidy object. -/
theorem tidy_layer (top : Fields) (htop : TidyFields top) {base : Fields}
    (h : (obj base).Tidy) : (obj (layer top base)).Tidy := by
  cases top with
  | nil => exact h
  | cons field rest =>
    obtain ⟨key, value⟩ := field
    rw [layer]
    exact tidy_layer rest htop.2 (tidy_apply key value htop.1 h)

end

/-! ## Merges that follow the rules -/

/-- A merge of objects follows the rules at every key, and so at every depth: on tidy objects
it leaves a tidy object, with that value at each key which the overrides meant for it give. -/
structure KeyByKey (merge : Fields → Fields → Fields) : Prop where
  tidy {top base : Fields} (htop : (obj top).Tidy) (hbase : (obj base).Tidy) :
    (obj (merge top base)).Tidy
  get? {top base : Fields} (htop : (obj top).Tidy) (hbase : (obj base).Tidy) (key : String) :
    Assoc.get? key (merge top base) = valueAt merge key (Assoc.get? key base) fun role =>
      Assoc.get? (role.spelling key) top

/-- Layering follows the rules. -/
theorem keyByKey_layer : KeyByKey layer where
  tidy htop hbase := tidy_layer _ htop.2 hbase
  get? htop _ key := get?_layer htop.1 _ key

private theorem act_tidy_or_merges (role : Role) {held value : Option Json} (hheld : TidyAt held)
    (hvalue : TidyAt value) :
    (∃ result, TidyAt result ∧ ∀ merge : Fields → Fields → Fields,
      role.act merge held value = result) ∨
    ∃ top base, value = some (.obj top) ∧ (obj base).Tidy ∧
      ∀ merge : Fields → Fields → Fields,
        role.act merge held value = some (.obj (merge top base)) := by
  obtain _ | value := value
  · exact .inl ⟨held, hheld, fun _ => rfl⟩
  by_cases hnull : value = .null
  · subst hnull
    exact .inl ⟨held, hheld, fun _ => rfl⟩
  have hitems := tidy_operand (hvalue value rfl)
  have hlist := tidy_asList hheld
  -- The list roles do the same with the two lists in either order.
  have hjoin (joined : List Json)
      (h : ∀ item ∈ joined, item ∈ operand value ∨ item ∈ asList held) :
      TidyAt (if operand value = [] then held else some (.arr joined)) := by
    split
    · exact hheld
    · exact tidyAt_arr fun item hitem => (h item hitem).elim (hitems item) (hlist item)
  cases role with
  | prepend =>
    exact .inl ⟨_, hjoin _ fun item => List.mem_append.1, fun _ => Role.act_prepend hnull⟩
  | append =>
    exact .inl ⟨_, hjoin _ fun item h => (List.mem_append.1 h).symm,
      fun _ => Role.act_append hnull⟩
  | set =>
    by_cases hobj : ∃ fields, value = .obj fields
    · obtain ⟨top, rfl⟩ := hobj
      obtain ⟨base, hbase, hact⟩ := Role.act_set_obj held top
      refine .inr ⟨top, base, rfl, ?_, hact⟩
      rcases hbase with hbase | rfl
      · exact hheld _ hbase
      · exact ⟨List.Pairwise.nil, trivial⟩
    · have hleaf : ∀ fields, value ≠ .obj fields := fun fields heq => hobj ⟨fields, heq⟩
      exact .inl ⟨_, hvalue, fun _ => Role.act_set hnull hleaf⟩

private theorem KeyByKey.tidyAt_act {merge : Fields → Fields → Fields} (h : KeyByKey merge)
    (role : Role) {held value : Option Json} (hheld : TidyAt held) (hvalue : TidyAt value) :
    TidyAt (role.act merge held value) := by
  rcases act_tidy_or_merges role hheld hvalue with
    ⟨result, hresult, hact⟩ | ⟨top, base, rfl, hbase, hact⟩
  · rw [hact]
    exact hresult
  · rw [hact]
    rintro _ ⟨⟩
    exact h.tidy (hvalue _ rfl) hbase

private theorem act_congr {merge other : Fields → Fields → Fields} (role : Role)
    {held value : Option Json} (hheld : TidyAt held) (hvalue : TidyAt value)
    (hagree : ∀ fields, value = some (.obj fields) → ∀ base, (obj base).Tidy →
      merge fields base = other fields base) :
    role.act merge held value = role.act other held value := by
  rcases act_tidy_or_merges role hheld hvalue with
    ⟨result, -, hact⟩ | ⟨top, base, hobj, hbase, hact⟩
  · rw [hact, hact]
  · rw [hact, hact, hagree top hobj base hbase]

private theorem KeyByKey.valueAt_congr {merge other : Fields → Fields → Fields} (h : KeyByKey other)
    {top : Role → Option Json} (htop : ∀ role, TidyAt (top role))
    (hagree : ∀ role fields, top role = some (.obj fields) → ∀ base, (obj base).Tidy →
      merge fields base = other fields base)
    (key : String) {held : Option Json} (hheld : TidyAt held) :
    valueAt merge key held top = valueAt other key held top := by
  unfold valueAt
  generalize roles key = order
  -- What stands at the key stays tidy from role to role, so that the merges keep agreeing.
  induction order generalizing held with
  | nil => rfl
  | cons role rest ih =>
    have hact := act_congr role hheld (htop role) (hagree role)
    rw [List.foldl_cons, List.foldl_cons, hact]
    exact ih (h.tidyAt_act role hheld (htop role))

/-- A field of an object is smaller than the object. -/
theorem sizeOf_lt_of_get? {key : String} {fields top : Fields}
    (h : Assoc.get? key top = some (.obj fields)) : sizeOf fields < sizeOf top := by
  have hmem := List.sizeOf_lt_of_mem (Assoc.mem_of_get? h)
  simp only [Prod.mk.sizeOf_spec, Json.obj.sizeOf_spec] at hmem
  omega

/-- A merge that follows the rules is layering. -/
theorem KeyByKey.eq_layer {merge : Fields → Fields → Fields} (h : KeyByKey merge)
    {top base : Fields} (htop : (obj top).Tidy) (hbase : (obj base).Tidy) :
    merge top base = layer top base := by
  have hascending := (h.tidy htop hbase).1
  refine Assoc.ext_get? hascending (keyByKey_layer.tidy htop hbase).1 fun key => ?_
  rw [h.get? htop hbase, keyByKey_layer.get? htop hbase]
  have hmeant (role : Role) : TidyAt (Assoc.get? (role.spelling key) top) :=
    tidyAt_get? htop.2 _
  refine keyByKey_layer.valueAt_congr hmeant ?_ key (tidyAt_get? hbase.2 key)
  intro role fields hfields base hbase
  have hsmaller := sizeOf_lt_of_get? hfields
  exact h.eq_layer (hmeant role _ hfields) hbase
termination_by sizeOf top

/-! ## Overrides without effect -/

/-- A key with a plus sign at both ends. -/
def isInert (key : String) : Bool := startsPlus key && endsPlus key

private theorem apply_of_isInert {key : String} (h : isInert key = true) (value : Json)
    (base : Fields) : apply key value base = base := by
  have hop : KeyOperator.ofKey key = .inert := by
    simp only [isInert, startsPlus, endsPlus, Bool.and_eq_true] at h
    rw [KeyOperator.ofKey, h.1, h.2]
  cases value with
  | null => rw [apply]
  | obj fields =>
    rw [apply, hop, applyLeaf, hop]
  | bool | num | str | arr => simp only [apply, applyLeaf, hop]

/-- Overrides whose keys have a plus sign at both ends can be left out. -/
theorem layer_filter (top base : Fields) :
    layer (top.filter fun field => !isInert field.1) base = layer top base := by
  induction top generalizing base with
  | nil => rfl
  | cons field rest ih =>
    obtain ⟨key, value⟩ := field
    by_cases hinert : isInert key = true
    · rw [List.filter_cons_of_neg (by simpa using hinert), layer, apply_of_isInert hinert, ih]
    · rw [List.filter_cons_of_pos (by simpa using hinert), layer, layer, ih]

/-! ## The rules -/

/-- Layering computes the value at each key from the value before and from the overrides that
are meant for the key, in the order of their spellings. Overrides with a plus sign at both ends
do nothing. The rules hold at every depth, and no other merge follows them there. -/
theorem layer_merges_key_by_key :
    (∀ top : Fields, Assoc.Ascending top → ∀ (base : Fields) (key : String),
      Assoc.get? key (layer top base) = valueAt layer key (Assoc.get? key base) fun role =>
        Assoc.get? (role.spelling key) top) ∧
    (∀ top base : Fields,
      layer (top.filter fun field => !isInert field.1) base = layer top base) ∧
    KeyByKey layer ∧
    ∀ merge : Fields → Fields → Fields, KeyByKey merge →
      ∀ top base : Fields, (obj top).Tidy → (obj base).Tidy →
        merge top base = layer top base :=
  ⟨fun _ htop => get?_layer htop, layer_filter, keyByKey_layer,
    fun _ hmerge _ _ htop hbase => hmerge.eq_layer htop hbase⟩

/-- Overrides that edit one list in three roles, at the top and in a nested object. An
exclamation mark stands before a plus sign, so the plain key `!` is the first of the three. -/
def threefold : Fields :=
  [("!", .str "set"), ("!+", .arr [.str "last"]), ("+!", .str "first"), ("+!+", .bool true),
    ("nested", .obj [("+list", .str "first"), ("list", .str "set"), ("list+", .str "last")])]

/-- The rules at a key whose plain spelling comes first, and for a merge that first drops the
overrides without effect. -/
theorem layer_merges_threefold :
    Assoc.Ascending threefold ∧
    (valueAt layer "!" (some (.str "old")) fun role => Assoc.get? (role.spelling "!") threefold) =
      some (.arr [.str "first", .str "set", .str "last"]) ∧
    (valueAt layer "nested" none fun role => Assoc.get? (role.spelling "nested") threefold) =
      some (.obj [("list", .arr [.str "set", .str "last"])]) ∧
    (obj threefold).Tidy ∧
    KeyByKey (fun top base => layer (top.filter fun field => !isInert field.1) base) ∧
    layer (threefold.filter fun field => !isInert field.1) [] = layer threefold [] := by
  obtain ⟨hvalue, hinert, hrules, hunique⟩ := layer_merges_key_by_key
  have hascending : Assoc.Ascending threefold := by decide
  have hnested : Assoc.Ascending
      [("+list", Json.str "first"), ("list", .str "set"), ("list+", .str "last")] := by decide
  have htidy : (obj threefold).Tidy := by
    refine ⟨hascending, ?_⟩
    simpa [TidyFields, TidyItems, Tidy, threefold] using hnested
  have hdrop : KeyByKey (fun top base =>
      layer (top.filter fun field => !isInert field.1) base) := by
    simpa only [hinert] using hrules
  refine ⟨hascending, ?_, ?_, htidy, hdrop, ?_⟩
  · exact (hvalue threefold hascending [("!", .str "old")] "!").symm.trans rfl
  · exact (hvalue threefold hascending [] "nested").symm.trans rfl
  · exact hunique _ hdrop threefold [] htidy ⟨List.Pairwise.nil, trivial⟩

end Merge

end PrefStore
