import PrefStore.Proofs.Merge.Edits
import PrefStore.Proofs.Merge.KeyByKey

/-!
# Trees under other names

A key that is spelled over a name is the name with a plus sign at either end, at both or at
none. A renaming replaces the name and keeps the signs, in every key of a tree, also in lists;
the fields of each object are then put in order again. A renamed tree answers at renamed keys as
the tree does at the keys, and at no others.
-/

namespace PrefStore

namespace Merge

open Json

/-! ## Names with signs -/

/-- A name with plus signs in front and behind as asked. -/
def marked (front behind : Bool) (name : String) : String :=
  (if front then "+" else "") ++ name ++ (if behind then "+" else "")

/-- A key without the plus signs at its ends. -/
def stem (key : String) : String :=
  let chars := if startsPlus key then key.toList.drop 1 else key.toList
  String.ofList (if endsPlus key then chars.dropLast else chars)

private theorem aim_eq_stem {key aim : String} {role : Role} (h : target? key = some (aim, role)) :
    aim = stem key := by
  rw [target?_eq] at h
  unfold stem
  cases hstarts : startsPlus key <;> cases hends : endsPlus key <;>
    simp only [hstarts, hends, Option.some.injEq, Prod.mk.injEq, reduceCtorEq] at h
  case false.false => simpa using h.1.symm
  case true.false => simpa using h.1.symm
  case false.true => simpa using h.1.symm

namespace IsName

variable {name : String} (h : IsName name) (front behind : Bool)

include h

/-- The sign in front is read back. -/
theorem startsPlus_marked : startsPlus (marked front behind name) = front := by
  obtain ⟨hne, hstarts, -⟩ := h
  cases front with
  | true =>
    refine startsPlus_iff.2 ⟨name ++ (if behind then "+" else ""), ?_⟩
    rw [marked, if_pos rfl, String.append_assoc]
  | false =>
    cases behind with
    | true => simpa [marked] using (startsPlus_plus hne).trans hstarts
    | false => simpa [marked] using hstarts

/-- The sign behind is read back. -/
theorem endsPlus_marked : endsPlus (marked front behind name) = behind := by
  obtain ⟨hne, -, hends⟩ := h
  cases behind with
  | true => exact endsPlus_iff.2 ⟨_, rfl⟩
  | false =>
    cases front with
    | true => simpa [marked] using (endsPlus_plus hne).trans hends
    | false => simpa [marked] using hends

/-- The name is read back. -/
theorem stem_marked : stem (marked front behind name) = name := by
  refine String.toList_inj.1 ?_
  rw [stem, h.startsPlus_marked, h.endsPlus_marked]
  cases front <;> cases behind <;> simp [marked]

private theorem aim_of_target? {aim : String} {role : Role}
    (htarget : target? (marked front behind name) = some (aim, role)) : aim = name :=
  (aim_eq_stem htarget).trans (h.stem_marked front behind)

end IsName

/-- The spellings of a key in a role are the key with a sign or without. -/
theorem exists_spelling_eq_marked (role : Role) :
    ∃ front behind, ∀ key, role.spelling key = marked front behind key := by
  cases role with
  | prepend => exact ⟨true, false, fun key => by simp [Role.spelling, marked]⟩
  | set => exact ⟨false, false, fun key => by simp [Role.spelling, marked]⟩
  | append => exact ⟨false, true, fun key => by simp [Role.spelling, marked]⟩

/-- A key that is a name with signs or without. -/
def IsSpelled (key : String) : Prop :=
  ∃ front behind name, IsName name ∧ key = marked front behind name

private theorem isSpelled_iff {key : String} : IsSpelled key ↔
    IsName (stem key) ∧ key = marked (startsPlus key) (endsPlus key) (stem key) := by
  constructor
  · rintro ⟨front, behind, name, hname, rfl⟩
    rw [hname.startsPlus_marked, hname.endsPlus_marked, hname.stem_marked]
    exact ⟨hname, rfl⟩
  · rintro ⟨hname, heq⟩
    exact ⟨_, _, _, hname, heq⟩

instance (key : String) : Decidable (IsSpelled key) := decidable_of_iff' _ isSpelled_iff

/-- A name is spelled over itself. -/
theorem IsName.isSpelled {name : String} (h : IsName name) : IsSpelled name :=
  ⟨false, false, name, h, by simp [marked]⟩

/-! ## Renamings -/

/-- A renaming takes names to names, different ones to different ones. -/
structure Renaming (rename : String → String) : Prop where
  isName {name : String} (h : IsName name) : IsName (rename name)
  injective {name other : String} (h : IsName name) (h' : IsName other)
    (heq : rename name = rename other) : name = other

/-- Renames a key and keeps its signs. -/
def renameKey (rename : String → String) (key : String) : String :=
  marked (startsPlus key) (endsPlus key) (rename (stem key))

/-- A name with signs is renamed between them. -/
theorem renameKey_marked (rename : String → String) {name : String} (h : IsName name)
    (front behind : Bool) :
    renameKey rename (marked front behind name) = marked front behind (rename name) := by
  rw [renameKey, h.startsPlus_marked, h.endsPlus_marked, h.stem_marked]

/-- The spelling of a name is renamed to that of the other name in the same role. -/
theorem renameKey_spelling (rename : String → String) {name : String} (h : IsName name)
    (role : Role) : renameKey rename (role.spelling name) = role.spelling (rename name) := by
  obtain ⟨front, behind, hspelling⟩ := exists_spelling_eq_marked role
  rw [hspelling, hspelling, renameKey_marked rename h]

private theorem Renaming.renameKey_injective {rename : String → String} (hr : Renaming rename)
    {key other : String} (hkey : IsSpelled key) (hother : IsSpelled other)
    (h : renameKey rename key = renameKey rename other) : key = other := by
  obtain ⟨front, behind, name, hname, rfl⟩ := hkey
  obtain ⟨front', behind', name', hname', rfl⟩ := hother
  rw [renameKey_marked rename hname, renameKey_marked rename hname'] at h
  have hnew := hr.isName hname
  have hnew' := hr.isName hname'
  have hfront := congrArg startsPlus h
  have hbehind := congrArg endsPlus h
  have hstem := congrArg stem h
  rw [hnew.startsPlus_marked, hnew'.startsPlus_marked] at hfront
  rw [hnew.endsPlus_marked, hnew'.endsPlus_marked] at hbehind
  rw [hnew.stem_marked, hnew'.stem_marked] at hstem
  rw [hfront, hbehind, hr.injective hname hname' hstem]

mutual

/-- Renames every key of a tree. -/
def renameTree (rename : String → String) : Json → Json
  | .arr items => .arr (renameItems rename items)
  | .obj fields => .obj (renameFields rename fields)
  | value => value

/-- Renames every key of the items of a list. -/
def renameItems (rename : String → String) : List Json → List Json
  | [] => []
  | item :: rest => renameTree rename item :: renameItems rename rest

/-- Renames every key of an object and puts its fields in order. -/
def renameFields (rename : String → String) : List (String × Json) → List (String × Json)
  | [] => []
  | (key, value) :: rest =>
    Assoc.insert (renameKey rename key) (renameTree rename value) (renameFields rename rest)

end

mutual

/-- Every key of the tree is a name with signs or without. -/
def Spelled : Json → Prop
  | .arr items => SpelledItems items
  | .obj fields => SpelledFields fields
  | _ => True

/-- Every item of a list is spelled over names. -/
def SpelledItems : List Json → Prop
  | [] => True
  | item :: rest => Spelled item ∧ SpelledItems rest

/-- Every key and every value of an object is spelled over names. -/
def SpelledFields : List (String × Json) → Prop
  | [] => True
  | (key, value) :: rest => IsSpelled key ∧ Spelled value ∧ SpelledFields rest

end

/-- An object is spelled over names if each of its keys and values is. -/
theorem spelledFields_iff {fields : Fields} :
    SpelledFields fields ↔ ∀ field ∈ fields, IsSpelled field.1 ∧ Spelled field.2 := by
  induction fields with
  | nil => simp [SpelledFields]
  | cons field rest ih => simp [SpelledFields, ih, and_assoc]

/-- Items are renamed one by one. -/
theorem renameItems_eq (rename : String → String) (items : List Json) :
    renameItems rename items = items.map (renameTree rename) := by
  induction items with
  | nil => rfl
  | cons item rest ih => rw [renameItems, ih, List.map_cons]

mutual

/-- A renamed tree has its fields in order. -/
theorem tidy_renameTree (rename : String → String) (value : Json) :
    (renameTree rename value).Tidy := by
  cases value with
  | arr items => exact tidy_renameItems rename items
  | obj fields => exact tidy_renameFields rename fields
  | null | bool | num | str => trivial

/-- Renamed items have their fields in order. -/
theorem tidy_renameItems (rename : String → String) (items : List Json) :
    TidyItems (renameItems rename items) := by
  cases items with
  | nil => trivial
  | cons item rest => exact ⟨tidy_renameTree rename item, tidy_renameItems rename rest⟩

/-- Renamed fields are in order. -/
theorem tidy_renameFields (rename : String → String) (fields : List (String × Json)) :
    (obj (renameFields rename fields)).Tidy := by
  cases fields with
  | nil => exact ⟨List.Pairwise.nil, trivial⟩
  | cons field rest =>
    obtain ⟨key, value⟩ := field
    exact tidy_insert (tidy_renameFields rename rest) (tidy_renameTree rename value) _

end

/-! ## Lookups in renamed objects -/

/-- At a renamed key a renamed object has the renamed value. -/
theorem Renaming.get?_renameFields {rename : String → String} (hr : Renaming rename)
    {fields : Fields} (hfields : ∀ field ∈ fields, IsSpelled field.1) {key : String}
    (hkey : IsSpelled key) : Assoc.get? (renameKey rename key) (renameFields rename fields) =
      (Assoc.get? key fields).map (renameTree rename) := by
  induction fields with
  | nil => rfl
  | cons field rest ih =>
    obtain ⟨k, value⟩ := field
    have hk : IsSpelled k := hfields (k, value) List.mem_cons_self
    have hrest := ih fun field hmem => hfields field (List.mem_cons_of_mem _ hmem)
    rw [renameFields, Assoc.get?_insert, Assoc.get?_cons, hrest]
    by_cases heq : k = key
    · subst heq
      rw [if_pos rfl, if_pos rfl, Option.map_some]
    · rw [if_neg heq, if_neg fun h => heq (hr.renameKey_injective hk hkey h)]

/-- At a renamed name a renamed object has the renamed value. -/
theorem Renaming.get?_renameFields_name {rename : String → String} (hr : Renaming rename)
    {fields : Fields} (hfields : ∀ field ∈ fields, IsSpelled field.1) {name : String}
    (hname : IsName name) : Assoc.get? (rename name) (renameFields rename fields) =
      (Assoc.get? name fields).map (renameTree rename) := by
  have hkey : renameKey rename name = rename name := renameKey_spelling rename hname .set
  rw [← hkey]
  exact hr.get?_renameFields hfields hname.isSpelled

private theorem exists_of_get?_renameFields {rename : String → String} {fields : Fields}
    {key : String} {value : Json} (h : Assoc.get? key (renameFields rename fields) = some value) :
    ∃ field ∈ fields, renameKey rename field.1 = key := by
  induction fields with
  | nil => cases h
  | cons field rest ih =>
    obtain ⟨k, v⟩ := field
    rw [renameFields, Assoc.get?_insert] at h
    split at h
    · next heq => exact ⟨(k, v), List.mem_cons_self, heq⟩
    · obtain ⟨field, hmem, heq⟩ := ih h
      exact ⟨field, List.mem_cons_of_mem _ hmem, heq⟩

/-- At other keys a renamed object has nothing. -/
theorem get?_renameFields_eq_none {rename : String → String} {fields : Fields}
    (hfields : ∀ field ∈ fields, IsSpelled field.1) {key : String}
    (h : ∀ other, IsSpelled other → renameKey rename other ≠ key) :
    Assoc.get? key (renameFields rename fields) = none := by
  refine Option.eq_none_iff_forall_ne_some.2 fun value hvalue => ?_
  obtain ⟨field, hmem, heq⟩ := exists_of_get?_renameFields hvalue
  exact h field.1 (hfields field hmem) heq

/-- Overrides spelled over names are meant for names only. -/
theorem found_eq_none_of_not_isName {top : Fields} (htop : ∀ field ∈ top, IsSpelled field.1)
    {key : String} (h : ¬IsName key) (role : Role) : found key top role = none := by
  refine Option.eq_none_iff_forall_ne_some.2 fun value hfound => ?_
  obtain ⟨hadmits, hvalue⟩ := found_eq_some_iff.1 hfound
  obtain ⟨front, behind, name, hname, heq⟩ : IsSpelled (role.spelling key) :=
    htop _ (Assoc.mem_of_get? hvalue)
  have htarget := target?_eq_some_iff.2 ⟨hadmits, rfl⟩
  rw [heq] at htarget
  rw [hname.aim_of_target? front behind htarget] at h
  exact h hname

/-- Renamed overrides are meant for renamed names only. -/
theorem found_renameFields_eq_none {rename : String → String} {top : Fields}
    (htop : ∀ field ∈ top, IsSpelled field.1) (hr : Renaming rename) {key : String}
    (h : ∀ name, IsName name → rename name ≠ key) (role : Role) :
    found key (renameFields rename top) role = none := by
  refine Option.eq_none_iff_forall_ne_some.2 fun value hfound => ?_
  obtain ⟨hadmits, hvalue⟩ := found_eq_some_iff.1 hfound
  obtain ⟨field, hmem, heq⟩ := exists_of_get?_renameFields hvalue
  obtain ⟨front, behind, name, hname, hfield⟩ := htop field hmem
  have htarget := target?_eq_some_iff.2 ⟨hadmits, rfl⟩
  rw [← heq, hfield, renameKey_marked rename hname] at htarget
  exact h name hname ((hr.isName hname).aim_of_target? front behind htarget).symm

/-- At a renamed name the renamed override is found. -/
theorem Renaming.found_renameFields {rename : String → String} (hr : Renaming rename)
    {top : Fields} (htop : ∀ field ∈ top, IsSpelled field.1) {name : String}
    (hname : IsName name) (role : Role) :
    found (rename name) (renameFields rename top) role =
      (found name top role).map (renameTree rename) := by
  obtain ⟨front, behind, hspelling⟩ := exists_spelling_eq_marked role
  have hspelled : IsSpelled (role.spelling name) := ⟨front, behind, name, hname, hspelling name⟩
  rw [(hr.isName hname).found, hname.found, ← renameKey_spelling rename hname,
    hr.get?_renameFields htop hspelled]

end Merge

end PrefStore
