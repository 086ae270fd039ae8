import Mathlib.Data.List.Basic
import PrefStore.Dict.Lemmas
import PrefStore.Merge

/-!
# Layering, one key at a time

Up to three overrides are meant for a key: the key itself, and the key with a plus sign in front
of it or behind it. Each has a role, and a key admits a role if the spelling is then read that
way. `Merge.valueAt` applies the roles of a key in the order of their spellings; the value that
layering leaves at a key is that one, so it depends on the value before and on three overrides.
-/

namespace PrefStore

namespace Merge

/-- Whether a key begins with a plus sign. -/
def startsPlus (key : String) : Bool := key.toList.head? = some '+'

/-- Whether a key ends with a plus sign. -/
def endsPlus (key : String) : Bool := key.toList.getLast? = some '+'

/-- What an override does to the key that it is meant for. -/
inductive Role where
  | prepend
  | set
  | append
  deriving DecidableEq, Repr

namespace Role

/-- The key under which an override stands that has a role for a key. -/
def spelling (key : String) : Role → String
  | prepend => "+" ++ key
  | set => key
  | append => key ++ "+"

/-- Whether a role can be meant for a key. -/
def admits (key : String) : Role → Bool
  | prepend => key ≠ "" && !endsPlus key
  | set => !startsPlus key && !endsPlus key
  | append => key ≠ "" && !startsPlus key

/-- The value at a key after an override in a role, given how objects are merged; nothing and
null override nothing. -/
def act (merge : Fields → Fields → Fields) (role : Role) (held : Option Json) :
    Option Json → Option Json
  | none | some .null => held
  | some value =>
    match role with
    | prepend => if operand value = [] then held else some (.arr (operand value ++ asList held))
    | append => if operand value = [] then held else some (.arr (asList held ++ operand value))
    | set =>
      match value, held with
      | .obj top, some (.obj base) => some (.obj (merge top base))
      | .obj top, _ => some (.obj (merge top []))
      | value, _ => some value

/-- A list in front of a key puts its items before what is there. -/
theorem act_prepend {merge : Fields → Fields → Fields} {held : Option Json} {value : Json}
    (h : value ≠ .null) : prepend.act merge held (some value) =
      if operand value = [] then held else some (.arr (operand value ++ asList held)) := by
  cases value with
  | null => exact absurd rfl h
  | bool | num | str | arr | obj => rfl

/-- A list behind a key puts its items after what is there. -/
theorem act_append {merge : Fields → Fields → Fields} {held : Option Json} {value : Json}
    (h : value ≠ .null) : append.act merge held (some value) =
      if operand value = [] then held else some (.arr (asList held ++ operand value)) := by
  cases value with
  | null => exact absurd rfl h
  | bool | num | str | arr | obj => rfl

/-- Anything but an object replaces what is there. -/
theorem act_set {merge : Fields → Fields → Fields} {held : Option Json} {value : Json}
    (h : value ≠ .null) (hobj : ∀ fields, value ≠ .obj fields) :
    set.act merge held (some value) = some value := by
  cases value with
  | null => exact absurd rfl h
  | obj fields => exact absurd rfl (hobj fields)
  | bool | num | str | arr => rfl

/-- An object is merged into the object that is there, or into the empty one. -/
theorem act_set_obj (held : Option Json) (top : Fields) :
    ∃ base, (held = some (.obj base) ∨ base = []) ∧ ∀ merge : Fields → Fields → Fields,
      set.act merge held (some (.obj top)) = some (.obj (merge top base)) := by
  cases held with
  | none => exact ⟨[], .inr rfl, fun _ => rfl⟩
  | some value =>
    cases value with
    | obj base => exact ⟨base, .inl rfl, fun _ => rfl⟩
    | null | bool | num | str | arr => exact ⟨[], .inr rfl, fun _ => rfl⟩

end Role

/-- The roles that are meant for a key, in the order of their spellings. -/
def roles (key : String) : List Role :=
  ([Role.prepend, .set, .append].filter (·.admits key)).mergeSort fun r s =>
    r.spelling key ≤ s.spelling key

/-- The value at a key after the overrides that are meant for it. -/
def valueAt (merge : Fields → Fields → Fields) (key : String) (held : Option Json)
    (top : Role → Option Json) : Option Json :=
  (roles key).foldl (fun held role => role.act merge held (top role)) held

/-! ## Spellings -/

/-- The key that an override is meant for, and its role. -/
def target? (key : String) : Option (String × Role) :=
  match KeyOperator.ofKey key with
  | .set => some (key, .set)
  | .prepend base => some (base, .prepend)
  | .append base => some (base, .append)
  | .inert => none

/-- A key that begins with a plus sign is that sign and a rest. -/
theorem startsPlus_iff {key : String} : startsPlus key = true ↔ ∃ rest, key = "+" ++ rest := by
  simp only [startsPlus, decide_eq_true_eq]
  constructor
  · intro h
    obtain ⟨rest, hrest⟩ := List.head?_eq_some_iff.1 h
    refine ⟨String.ofList rest, String.toList_inj.1 ?_⟩
    simp [hrest]
  · rintro ⟨rest, rfl⟩
    simp

/-- A key that ends with a plus sign is a rest and that sign. -/
theorem endsPlus_iff {key : String} : endsPlus key = true ↔ ∃ rest, key = rest ++ "+" := by
  simp only [endsPlus, decide_eq_true_eq]
  constructor
  · intro h
    obtain ⟨rest, hrest⟩ := List.getLast?_eq_some_iff.1 h
    refine ⟨String.ofList rest, String.toList_inj.1 ?_⟩
    simp [hrest]
  · rintro ⟨rest, rfl⟩
    simp

/-- A plus sign in front leaves the end of a key as it is, unless it is the whole key. -/
theorem endsPlus_plus {key : String} (h : key ≠ "") : endsPlus ("+" ++ key) = endsPlus key := by
  have hne : key.toList ≠ [] := by simpa using h
  have hlast : ("+" ++ key).toList.getLast? = key.toList.getLast? := by
    rw [String.toList_append]
    exact List.getLast?_cons_of_ne_nil hne
  rw [endsPlus, endsPlus, hlast]

/-- A plus sign behind leaves the beginning of a key as it is, unless it is the whole key. -/
theorem startsPlus_plus {key : String} (h : key ≠ "") :
    startsPlus (key ++ "+") = startsPlus key := by
  have hne : key.toList ≠ [] := by simpa using h
  have hhead : (key ++ "+").toList.head? = key.toList.head? := by
    rw [String.toList_append, List.head?_append]
    cases hkey : key.toList with
    | nil => exact absurd hkey hne
    | cons c cs => rfl
  rw [startsPlus, startsPlus, hhead]

/-- What a key spells, by the plus signs at its ends. -/
theorem target?_eq (key : String) :
    target? key = match startsPlus key, endsPlus key with
      | false, false => some (key, .set)
      | true, false => some (String.ofList (key.toList.drop 1), .prepend)
      | false, true => some (String.ofList key.toList.dropLast, .append)
      | true, true => none := by
  unfold target? KeyOperator.ofKey startsPlus endsPlus
  cases decide (key.toList.head? = some '+') <;>
    cases decide (key.toList.getLast? = some '+') <;> rfl

/-- A key is read in a role for another key exactly if it is its spelling in that role and the
other key admits the role. -/
theorem target?_eq_some_iff {key aim : String} {role : Role} :
    target? key = some (aim, role) ↔ role.admits aim = true ∧ key = role.spelling aim := by
  rw [target?_eq]
  constructor
  · intro h
    cases hstarts : startsPlus key <;> cases hends : endsPlus key <;>
      simp only [hstarts, hends, Option.some.injEq, Prod.mk.injEq, reduceCtorEq] at h
    case false.false =>
      obtain ⟨rfl, rfl⟩ := h
      simp [Role.admits, Role.spelling, hstarts, hends]
    case true.false =>
      obtain ⟨rfl, rfl⟩ := h
      obtain ⟨rest, rfl⟩ := startsPlus_iff.1 hstarts
      have hne : rest ≠ "" := by
        rintro rfl
        simp [endsPlus] at hends
      rw [endsPlus_plus hne] at hends
      simp [Role.admits, Role.spelling, hne, hends]
    case false.true =>
      obtain ⟨rfl, rfl⟩ := h
      obtain ⟨rest, rfl⟩ := endsPlus_iff.1 hends
      have hne : rest ≠ "" := by
        rintro rfl
        simp [startsPlus] at hstarts
      rw [startsPlus_plus hne] at hstarts
      simp [Role.admits, Role.spelling, hne, hstarts]
  · rintro ⟨hadmits, rfl⟩
    cases role with
    | set =>
      simp only [Role.admits, Bool.and_eq_true, Bool.not_eq_true'] at hadmits
      simp [Role.spelling, hadmits]
    | prepend =>
      simp only [Role.admits, ne_eq, decide_not, Bool.and_eq_true, Bool.not_eq_true',
        decide_eq_false_iff_not] at hadmits
      have hstarts : startsPlus ("+" ++ aim) = true := startsPlus_iff.2 ⟨aim, rfl⟩
      have hends : endsPlus ("+" ++ aim) = false := (endsPlus_plus hadmits.1).trans hadmits.2
      simp [Role.spelling, hstarts, hends]
    | append =>
      simp only [Role.admits, ne_eq, decide_not, Bool.and_eq_true, Bool.not_eq_true',
        decide_eq_false_iff_not] at hadmits
      have hends : endsPlus (aim ++ "+") = true := endsPlus_iff.2 ⟨aim, rfl⟩
      have hstarts : startsPlus (aim ++ "+") = false := (startsPlus_plus hadmits.1).trans hadmits.2
      simp [Role.spelling, hstarts, hends]

/-- The roles of a key are those that it admits. -/
theorem mem_roles_iff {key : String} {role : Role} : role ∈ roles key ↔ role.admits key = true := by
  cases role <;> simp [roles]

/-- The spellings of a key's roles strictly ascend. -/
theorem roles_ascending (key : String) :
    (roles key).Pairwise fun r s => r.spelling key < s.spelling key := by
  have htrans : ∀ a b c : Role, decide (a.spelling key ≤ b.spelling key) = true →
      decide (b.spelling key ≤ c.spelling key) = true →
        decide (a.spelling key ≤ c.spelling key) = true := by
    simp only [decide_eq_true_eq]
    exact fun a b c => String.le_trans
  have htotal : ∀ a b : Role, (decide (a.spelling key ≤ b.spelling key) ||
      decide (b.spelling key ≤ a.spelling key)) = true := by
    simp only [Bool.or_eq_true, decide_eq_true_eq]
    exact fun a b => String.le_total _ _
  have hsorted : (roles key).Pairwise fun r s => r.spelling key ≤ s.spelling key := by
    have h := List.pairwise_mergeSort htrans htotal
      ([Role.prepend, .set, .append].filter (·.admits key))
    simpa [roles] using h
  have hnodup : (roles key).Nodup := by
    have h : ([Role.prepend, .set, .append].filter (·.admits key)).Nodup :=
      List.Pairwise.filter _ (by decide)
    exact (List.mergeSort_perm _ _).nodup_iff.2 h
  refine (hsorted.and hnodup).imp_of_mem ?_
  intro r s hr hs ⟨hle, hne⟩
  refine Std.lt_of_le_of_ne hle fun heq => hne ?_
  have htarget := target?_eq_some_iff.2 ⟨mem_roles_iff.1 hr, rfl⟩
  rw [heq, target?_eq_some_iff.2 ⟨mem_roles_iff.1 hs, rfl⟩] at htarget
  exact (congrArg Prod.snd (Option.some.inj htarget)).symm

/-! ## Lookups -/

private theorem get?_editList (key aim : String) (items : List Json)
    (join : List Json → List Json → List Json) (base : Fields) :
    Assoc.get? key (editList aim items join base) =
      if aim = key then
        if items = [] then Assoc.get? key base
        else some (.arr (join items (asList (Assoc.get? key base))))
      else Assoc.get? key base := by
  unfold editList
  by_cases haim : aim = key
  · subst haim
    cases items <;> simp [Assoc.get?_insert]
  · cases items <;> simp [Assoc.get?_insert, haim]

private theorem get?_applyLeaf (key k : String) {value : Json} (hnull : value ≠ .null)
    (hleaf : (∀ fields, value ≠ .obj fields) ∨ KeyOperator.ofKey k ≠ .set) (base : Fields) :
    Assoc.get? key (applyLeaf k value base) = match target? k with
      | some (aim, role) =>
        if aim = key then role.act layer (Assoc.get? key base) (some value)
        else Assoc.get? key base
      | none => Assoc.get? key base := by
  unfold applyLeaf target?
  cases hop : KeyOperator.ofKey k with
  | inert => rfl
  | set =>
    have hobj : ∀ fields, value ≠ .obj fields := hleaf.resolve_right (by simp [hop])
    simp only [Assoc.get?_insert, Role.act_set hnull hobj]
  | prepend aim => simp only [get?_editList, Role.act_prepend hnull]
  | append aim => simp only [get?_editList, Role.act_append hnull]

/-- One override changes the value at the key that it is meant for only, and by its role. -/
theorem get?_apply (key k : String) (value : Json) (base : Fields) :
    Assoc.get? key (apply k value base) = match target? k with
      | some (aim, role) =>
        if aim = key then role.act layer (Assoc.get? key base) (some value)
        else Assoc.get? key base
      | none => Assoc.get? key base := by
  cases value with
  | null =>
    rw [apply]
    split
    · simp [Role.act]
    · rfl
  | obj fields =>
    by_cases hset : KeyOperator.ofKey k = .set
    · have htarget : target? k = some (k, .set) := by simp [target?, hset]
      rw [apply, hset, htarget]
      simp only [Assoc.get?_insert]
      by_cases haim : k = key
      · subst haim
        rw [if_pos rfl, if_pos rfl, objectAt]
        cases Assoc.get? k base with
        | none => rfl
        | some held => cases held <;> rfl
      · rw [if_neg haim, if_neg haim]
    · have hnull : Json.obj fields ≠ .null := by simp
      have hleaf := get?_applyLeaf key k hnull (.inr hset) base
      rw [← hleaf, apply]
      split
      · next hop => exact absurd hop hset
      · rfl
  | bool | num | str | arr => exact get?_applyLeaf key k (by simp) (.inl (by simp)) base

/-- The overrides that are meant for a key, in the order of its roles. -/
def meantFor (key : String) (top : Fields) : Fields :=
  (roles key).filterMap fun role =>
    (Assoc.get? (role.spelling key) top).map (role.spelling key, ·)

private theorem filter_target?_eq {top : Fields} (h : Assoc.Ascending top) (key : String) :
    (top.filter fun field => (target? field.1).map Prod.fst = some key) = meantFor key top := by
  refine Assoc.ext_mem (h.filter _) ?_ ?_
  · rw [Assoc.Ascending, meantFor, List.pairwise_filterMap]
    refine (roles_ascending key).imp ?_
    intro r s hlt field hfield other hother
    obtain ⟨_, -, rfl⟩ := Option.map_eq_some_iff.1 hfield
    obtain ⟨_, -, rfl⟩ := Option.map_eq_some_iff.1 hother
    exact hlt
  · rintro ⟨k, value⟩
    simp only [List.mem_filter, decide_eq_true_eq, meantFor, List.mem_filterMap,
      Option.map_eq_some_iff, Prod.mk.injEq, mem_roles_iff, Assoc.get?_eq_some_iff h]
    constructor
    · rintro ⟨hmem, ⟨aim, role⟩, htarget, rfl⟩
      obtain ⟨hadmits, rfl⟩ := target?_eq_some_iff.1 htarget
      exact ⟨role, hadmits, value, hmem, rfl, rfl⟩
    · rintro ⟨role, hadmits, value, hmem, rfl, rfl⟩
      exact ⟨hmem, (key, role), target?_eq_some_iff.2 ⟨hadmits, rfl⟩, rfl⟩

/-- The value at a key after layering ascending overrides depends on the value before and on the
overrides that are meant for the key, which take effect in the order of their spellings. -/
theorem get?_layer {top : Fields} (h : Assoc.Ascending top) (base : Fields) (key : String) :
    Assoc.get? key (layer top base) = valueAt layer key (Assoc.get? key base) fun role =>
      Assoc.get? (role.spelling key) top := by
  -- Whatever is not meant for the key is skipped, in the order in which the overrides stand.
  have hskip : ∀ (top base : Fields), Assoc.get? key (layer top base) =
      (top.filter fun field => (target? field.1).map Prod.fst = some key).foldl
        (fun held field => match target? field.1 with
          | some (_, role) => role.act layer held (some field.2)
          | none => held)
        (Assoc.get? key base) := by
    intro top
    induction top with
    | nil => intro base; rfl
    | cons field rest ih =>
      intro base
      obtain ⟨k, value⟩ := field
      rw [layer, ih, get?_apply]
      cases htarget : target? k with
      | none => rw [List.filter_cons_of_neg (by simp [htarget])]
      | some target =>
        obtain ⟨aim, role⟩ := target
        by_cases haim : aim = key
        · rw [List.filter_cons_of_pos (by simp [htarget, haim]), List.foldl_cons]
          simp only [htarget, if_pos haim]
        · rw [List.filter_cons_of_neg (by simp [htarget, haim])]
          simp only [if_neg haim]
  rw [hskip, filter_target?_eq h, meantFor, List.foldl_filterMap, valueAt]
  refine List.foldl_ext _ _ _ fun held role hrole => ?_
  have htarget := target?_eq_some_iff.2 ⟨mem_roles_iff.1 hrole, rfl⟩
  cases Assoc.get? (role.spelling key) top with
  | none => rfl
  | some value => simp only [Option.map_some, htarget]

end Merge

end PrefStore
